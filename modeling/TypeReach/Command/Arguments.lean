import TypeReach.Text.Split

/-!
# Arguments

The command line has two commands, `analyze` (also called `run`) and
`describe`.  Options come in a long and a short form; a value follows its option
or is attached to it.  Arguments are taken from the left, and the first one that
cannot be taken decides what is reported.  An option's value is taken for good
only when the next option or the end is reached, so that an unknown argument
after it is reported first.
-/

namespace TypeReach.Command

/-- Why arguments lead to no command. -/
inductive Usage where
  | help
  | version
  /-- There are no arguments at all. -/
  | helpForNothing
  | missingCommand
  | unknownCommand
  | unknownArgument
  | missingArgument
  /-- An option without its value, or with one that it cannot have. -/
  | invalidValue
  /-- An option twice, or two options that exclude each other. -/
  | conflict
  /-- A value for an option that takes none. -/
  | surplusValue
  deriving DecidableEq, Repr

/-- Asking for help or the version is no error. -/
def Usage.isSuccess : Usage → Bool
  | help => true
  | version => true
  | _ => false

/-- The exit code when arguments lead to no command. -/
def Usage.exitCode (usage : Usage) : Nat :=
  if usage.isSuccess then 0 else 2

/-- The options. -/
inductive OptionName where
  | verbose
  | quiet
  | help
  | version
  | config
  | classpath
  | output
  | format
  | strict
  deriving DecidableEq, Repr

/-- How an option is written. -/
structure OptionForm where
  name : OptionName
  longs : List String
  short : Option Char
  takesValue : Bool
  /-- Whether the value is a path, which cannot be empty. -/
  isPath : Bool := false
  deriving DecidableEq, Repr

/-- Where arguments are taken: before the command, or for one of the commands. -/
inductive Level where
  | root
  | analyze
  | describe
  deriving DecidableEq, Repr

/-- The options that are known everywhere. -/
def commonForms : List OptionForm :=
  [⟨.verbose, ["verbose"], some 'v', false, false⟩, ⟨.quiet, ["quiet"], some 'q', false, false⟩,
    ⟨.help, ["help"], some 'h', false, false⟩]

/-- The options of commands that need a classpath. -/
def classpathForms : List OptionForm :=
  [⟨.config, ["config"], some 'c', true, true⟩,
    ⟨.classpath, ["classpath", "cp"], none, true, false⟩]

/-- The options of a level. -/
def Level.forms : Level → List OptionForm
  | root => ⟨.version, ["version"], some 'V', false, false⟩ :: commonForms
  | analyze =>
    commonForms ++ classpathForms ++
      [⟨.output, ["output"], some 'o', true, true⟩, ⟨.format, ["format"], some 'f', true, false⟩,
        ⟨.strict, ["strict"], none, false, false⟩]
  | describe => commonForms ++ classpathForms

/-- The command that a word stands for. -/
def commandOf? : String → Option Level
  | "analyze" => some .analyze
  | "run" => some .analyze
  | "describe" => some .describe
  | _ => none

/-! ## Taking options -/

/-- What was taken at a level so far. -/
structure Taken where
  options : List (OptionName × String)
  words : List String
  /-- An option whose value is not taken for good, and its value if it came. -/
  pending : Option (OptionForm × Option String)
  /-- Whether only words can follow. -/
  onlyWords : Bool

namespace Taken

def nothing : Taken := ⟨[], [], none, false⟩

def has (taken : Taken) (name : OptionName) : Bool :=
  (taken.options.lookup name).isSome

/-- Whether the next argument is the value of an option unless it is an option itself. -/
def awaitsValue (taken : Taken) : Bool :=
  match taken.pending with
  | some (_, none) => true
  | _ => false

/-- Take an option with its value for good. -/
def store (taken : Taken) (form : OptionForm) (value : String) : Except Usage Taken :=
  if taken.has form.name then .error .conflict
  else if form.isPath && value.isEmpty then .error .invalidValue
  else .ok { taken with options := taken.options ++ [(form.name, value)] }

/-- Take the pending option for good. -/
def settle (taken : Taken) : Except Usage Taken :=
  match taken.pending with
  | none => .ok taken
  | some (_, none) => .error .invalidValue
  | some (form, some value) => { taken with pending := none }.store form value

/-- Take an option without a value. -/
def takeFlag (taken : Taken) (form : OptionForm) : Except Usage Taken := do
  let settled ← taken.settle
  match form.name with
  | .help => throw .help
  | .version => throw .version
  | _ => settled.store form ""

/-- Take an option with an attached value, or wait for the value. -/
def takeOption (taken : Taken) (form : OptionForm) (attached : Option String) :
    Except Usage Taken := do
  let settled ← taken.settle
  match attached with
  | some value => settled.store form value
  | none => return { settled with pending := some (form, none) }

/-- Take an option in its long form, without the two hyphens. -/
def takeLong (taken : Taken) (forms : List OptionForm) (text : List Char) :
    Except Usage Taken :=
  let (name, attached) : List Char × Option String :=
    match Text.cut? '=' text with
    | some (name, value) => (name, some (String.ofList value))
    | none => (text, none)
  match forms.find? (·.longs.contains (String.ofList name)) with
  | none => .error .unknownArgument
  | some form =>
    if form.takesValue then taken.takeOption form attached
    else if attached.isSome then .error .surplusValue
    else taken.takeFlag form

/-- What is attached to an option in its short form. -/
def attachedTo : List Char → Option String
  | [] => none
  | '=' :: rest => some (String.ofList rest)
  | rest => some (String.ofList rest)

/-- Take options in their short forms, without the hyphen. -/
def takeShorts (forms : List OptionForm) : List Char → Taken → Except Usage Taken
  | [], taken => .ok taken
  | letter :: rest, taken =>
    match forms.find? (·.short = some letter) with
    | none => .error .unknownArgument
    | some form =>
      if form.takesValue then taken.takeOption form (attachedTo rest)
      else
        match taken.takeFlag form with
        | .error usage => .error usage
        | .ok next => takeShorts forms rest next

end Taken

/-! ## Taking arguments -/

/-- Take a word that is no option at a level. -/
def takeWord (level : Level) (taken : Taken) (word : String) : Except Usage Taken :=
  match level with
  | .root =>
    if taken.onlyWords && (word = "help" || (commandOf? word).isSome) then .error .unknownArgument
    else .error .unknownCommand
  | .analyze => .error .unknownArgument
  | .describe =>
    if taken.words.isEmpty then do
      let settled ← taken.settle
      return { settled with words := [word] }
    else .error .unknownArgument

/-- Take one argument that is no command. -/
def takeArgument (level : Level) (taken : Taken) (argument : String) : Except Usage Taken :=
  if taken.onlyWords then takeWord level taken argument
  else
    match argument.toList with
    | '-' :: '-' :: [] => .ok { taken with onlyWords := true }
    | '-' :: '-' :: text => taken.takeLong level.forms text
    | '-' :: letter :: rest => taken.takeShorts level.forms (letter :: rest)
    | _ =>
      match taken.pending with
      | some (form, none) => .ok { taken with pending := some (form, some argument) }
      | _ => takeWord level taken argument

/-- Check what was taken at a level against the rules between options. -/
def checked (taken : Taken) : Except Usage Taken :=
  if taken.has .verbose && taken.has .quiet then .error .conflict else .ok taken

/-- Take all arguments of a command. -/
def takeAll (level : Level) (arguments : List String) : Except Usage Taken := do
  let taken ← arguments.foldlM (takeArgument level) .nothing
  checked (← taken.settle)

/-! ## Commands -/

/-- Where a command finds its classpath. -/
structure ClasspathArguments where
  config : Option String
  classpath : Option String
  deriving DecidableEq, Repr

/-- What is to be done. -/
inductive Request where
  | analyze (classpath : ClasspathArguments) (output : Option String) (format : String)
    (strict : Bool)
  | describe (type : String) (classpath : ClasspathArguments)
  deriving DecidableEq, Repr

/-- A request, and how much is to be logged. -/
structure Invocation where
  verbose : Bool
  quiet : Bool
  request : Request
  deriving DecidableEq, Repr

/-- The arguments for a classpath. -/
def Taken.classpathArguments (taken : Taken) : ClasspathArguments :=
  ⟨taken.options.lookup .config, taken.options.lookup .classpath⟩

/-- The request of a command. -/
def requestOf (level : Level) (taken : Taken) : Except Usage Request :=
  match level with
  | .root => .error .missingCommand
  | .analyze =>
    .ok (.analyze taken.classpathArguments (taken.options.lookup .output)
      ((taken.options.lookup .format).getD "pretty") (taken.has .strict))
  | .describe =>
    match taken.words with
    | [] => .error .missingArgument
    | type :: _ => .ok (.describe type taken.classpathArguments)

/-- What asking for help on some commands gives. -/
def helpOn : List String → Usage
  | [] => .help
  | [word] => if word = "help" || (commandOf? word).isSome then .help else .unknownCommand
  | _ => .unknownCommand

/-- Parse the arguments of a command after those of the root. -/
def parseCommand (level : Level) (root : Taken) (arguments : List String) :
    Except Usage Invocation := do
  let taken ← takeAll level arguments
  let request ← requestOf level taken
  let above ← checked root
  return ⟨above.has .verbose || taken.has .verbose, above.has .quiet || taken.has .quiet, request⟩

/-- Parse arguments from the root on. -/
def parseFrom (root : Taken) : List String → Except Usage Invocation
  | [] => if root.options.isEmpty then .error .helpForNothing else .error .missingCommand
  | argument :: rest =>
    if ! root.onlyWords && argument = "help" then .error (helpOn rest)
    else
      match (if root.onlyWords then none else commandOf? argument) with
      | some level => parseCommand level root rest
      | none =>
        match takeArgument .root root argument with
        | .error usage => .error usage
        | .ok next => parseFrom next rest

/-- Parse the arguments of the program. -/
def parse (arguments : List String) : Except Usage Invocation :=
  parseFrom .nothing arguments

end TypeReach.Command
