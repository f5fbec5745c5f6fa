import TypeReach.Command.Help
import TypeReach.Command.Run

/-!
# The program

The files that a command can look at are read into a disk, the command is run on
that disk, and what it changed is written back.  Links inside of directories are
not followed.  Archives are not unpacked, so a classpath consists of
directories here.
-/

namespace TypeReach.Program

open Files (Disk Location Node)

/-- What is at a path, if it is a directory or a plain file. -/
def nodeAt? (path : String) : IO (Option Node) := do
  try
    match (← (← IO.FS.realPath path).metadata).type with
    | .dir => return some .directory
    | .file => return some (.file (← IO.FS.readBinFile path).toList)
    | _ => return none
  catch _ => return none

/-- Read everything below a directory. -/
partial def readBelow (location : Location) (path : String) (disk : Disk) : IO Disk := do
  let entries ← (← IO.FS.realPath path).readDir
  entries.foldlM
    (fun disk entry => do
      let place := location ++ [entry.fileName]
      let below := path ++ "/" ++ entry.fileName
      match (← entry.path.symlinkMetadata).type with
      | .dir => readBelow place below (disk.put place .directory)
      | .file => return disk.put place (.file (← IO.FS.readBinFile below).toList)
      | _ => return disk)
    disk

/-- The place that a path and one more segment lead to. -/
def next (location : Location) (segment : String) : Location :=
  if Files.Path.isIdle segment then location
  else if segment = ".." then location.dropLast
  else location ++ [segment]

/-- Read what is on the way along a path, and everything below its end. -/
def readAlong (disk : Disk) (location : Location) (path : String) :
    List String → IO Disk
  | [] => readBelow location path disk
  | segment :: rest => do
    let place := next location segment
    let further := path ++ "/" ++ segment
    match ← nodeAt? further with
    | none => return disk
    | some .directory => readAlong (disk.put place .directory) place further rest
    | some node => return disk.put place node

/-- Read what a path leads to. -/
def readPath (disk : Disk) (path : String) : IO Disk :=
  if path.isEmpty then return disk
  else readAlong disk (disk.start path) (if Files.Path.isAbsolute path then "" else ".")
    (Files.Path.segments path)

/-- The disk with nothing but the way to the working directory. -/
def startingDisk : IO Disk := do
  let location := (Files.Path.segments (← IO.currentDir).toString).foldl next []
  return Disk.put ⟨location, []⟩ location .directory

/-- Read what some paths lead to. -/
def readPaths (paths : List String) : IO Disk := do
  paths.foldlM readPath (← startingDisk)

/-- A place as a path. -/
def pathOf (location : Location) : String :=
  "/" ++ "/".intercalate location

/-- Write what a command changed. -/
def writeChanges (before after : Disk) : IO Unit :=
  after.nodes.forM fun (location, node) => do
    if before.node? location = some node then return
    match node with
    | .directory => IO.FS.createDirAll (pathOf location)
    | .file bytes => IO.FS.writeBinFile (pathOf location) ⟨bytes.toArray⟩
    | .archive _ => return

/-- The paths that a request names besides the classpath: where settings and results are. -/
def namedPaths : Command.Request → Command.ClasspathArguments × List String
  | .analyze arguments output _ _ => (arguments, output.toList)
  | .describe _ arguments => (arguments, [])

/-- The disk as far as a request can look at it. -/
def diskFor (request : Command.Request) : IO Disk := do
  let (arguments, results) := namedPaths request
  let settings := arguments.config.toList ++ Config.fileNames
  match Command.load (← readPaths settings) arguments with
  | .ok loaded =>
    readPaths (settings ++ loaded.config.classpath ++ loaded.config.platform ++ results)
  | .error _ => readPaths settings

/-- Run a request and give its exit code. -/
def run (request : Command.Request) : IO Nat := do
  let colored := (← (← IO.getStdout).isTty) && (← IO.getEnv "NO_COLOR").isNone
  let before ← diskFor request
  let (result, after) := Command.perform ⟨colored⟩ before request
  writeChanges before after
  match result with
  | .ok effect =>
    IO.print effect.output
    IO.eprint effect.errors
    return effect.exitCode
  | .error failure =>
    IO.eprintln ("Error: " ++ failure.message)
    return Command.errorCode

end TypeReach.Program

open TypeReach in
def main (arguments : List String) : IO UInt32 := do
  match Command.parse arguments with
  | .error usage =>
    if usage.isSuccess then IO.print usage.message else IO.eprint usage.message
    return usage.exitCode.toUInt32
  | .ok invocation =>
    try
      return (← Program.run invocation.request).toUInt32
    catch error =>
      IO.eprintln ("Error: " ++ toString error)
      return Command.errorCode.toUInt32
