import TypeReach.Classpath.Basic
import TypeReach.Index.Components
import TypeReach.Index.Factories

/-!
# Discovery of index files

Index files are read from every container of the classpath and from files that
are listed explicitly, and are merged in the order in which they were found.
-/

namespace TypeReach.Index

open Files (Disk)
open Classpath (Container)

/-- Where containers keep the factories file. -/
def factoriesPath : String := "META-INF/spring.factories"

/-- Where containers keep the components file. -/
def componentsPath : String := "META-INF/spring.components"

/-- The key under which factories files list configurations. -/
def autoConfigurationKey : String :=
  "org.springframework.boot.autoconfigure.EnableAutoConfiguration"

/-- The index files found, merged. -/
structure IndexSet where
  factories : Factories
  /-- None when there is no components file at all. -/
  components : Option Components
  /-- Where the files came from. -/
  sources : List String
  deriving DecidableEq, Repr

namespace IndexSet

def empty : IndexSet := ⟨.empty, none, []⟩

/-- Read a text as a factories file and merge it. -/
def addFactories (set : IndexSet) (source text : String) : Except Cause IndexSet :=
  match Factories.parse source text with
  | .error malformed => .error (.malformedIndex malformed)
  | .ok parsed =>
    .ok { set with
      factories := set.factories.merge parsed
      sources := set.sources ++ [source] }

/-- Read a text as a components file and merge it. -/
def addComponents (set : IndexSet) (source text : String) : Except Cause IndexSet :=
  match Components.parse source text with
  | .error malformed => .error (.malformedIndex malformed)
  | .ok parsed =>
    .ok { set with
      components := some ((set.components.getD .empty).merge parsed)
      sources := set.sources ++ [source] }

/-- The name of a container's entry as a source. -/
def sourceOf (container : Container) (entry : String) : String :=
  container.path ++ "!/" ++ entry

/-- Read files found in containers; what is not UTF-8 in them is replaced. -/
def addFound (add : IndexSet → String → String → Except Cause IndexSet) (entry : String)
    (set : IndexSet) (found : List (Container × List UInt8)) : Except Cause IndexSet :=
  found.foldlM
    (fun set item =>
      add set (sourceOf item.1 entry) (String.ofList (Text.Utf8.decodeLenient item.2)))
    set

/-- Read both index files from every container of a classpath. -/
def discover (classpath : Classpath) (disk : Disk) : Except Cause IndexSet := do
  let set ← addFound addFactories factoriesPath .empty
    (← classpath.readResource disk factoriesPath)
  addFound addComponents componentsPath set (← classpath.readResource disk componentsPath)

/-- Add an index file from the disk.  Its ending tells which of the two it is. -/
def loadFile (set : IndexSet) (disk : Disk) (path : String) : Except Cause IndexSet :=
  match disk.readText path with
  | .error error => .error (.unreadable error)
  | .ok text =>
    if Files.Path.extension? path = some "components" then set.addComponents path text
    else set.addFactories path text

end IndexSet

end TypeReach.Index
