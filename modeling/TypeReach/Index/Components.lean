import TypeReach.Index.Line
import TypeReach.Index.Malformed
import TypeReach.Keyed
import TypeReach.TypeName

/-!
# Components files

A components file maps types to stereotypes, one type to a line.
-/

namespace TypeReach.Index

/-- A components file or several of them merged. -/
structure Components where
  entries : List (TypeName × String)
  deriving DecidableEq, Repr

namespace Components

def empty : Components := ⟨[]⟩

def isEmpty (index : Components) : Bool := index.entries.isEmpty

def size (index : Components) : Nat := index.entries.length

/-- Give a type a stereotype, in the place of an earlier one. -/
def insert (index : Components) (name : TypeName) (stereotype : String) : Components :=
  ⟨Keyed.set name stereotype index.entries⟩

/-- The type and the stereotype of a line. -/
def readLine (text : List Char) : Except Defect (TypeName × String) :=
  match Text.cut? '=' text with
  | none => .error .noStereotype
  | some (type, stereotype) =>
    match TypeName.parseChars? type with
    | none => .error .emptyTypeName
    | some name => .ok (name, String.ofList (Text.trim stereotype))

/-- Take lines over one by one, up to the first that is malformed. -/
def addLines (source : String) : List LogicalLine → Components → Except Malformed Components
  | [], index => .ok index
  | line :: rest, index =>
    match readLine line.text with
    | .error defect => .error ⟨source, line.start, defect⟩
    | .ok (name, stereotype) => addLines source rest (index.insert name stereotype)

/-- Read a components file; the source is named in errors. -/
def parse (source text : String) : Except Malformed Components :=
  addLines source (plainLines text.toList) empty

/-- Add the types of another file that have no stereotype yet. -/
def merge (index other : Components) : Components :=
  ⟨other.entries.foldl (fun entries entry => Keyed.setIfNew entry.1 entry.2 entries)
    index.entries⟩

def contains (index : Components) (name : TypeName) : Bool :=
  Keyed.contains name index.entries

/-- The stereotype of a type. -/
def stereotype? (index : Components) (name : TypeName) : Option String :=
  Keyed.get? name index.entries

/-- The types in order. -/
def types (index : Components) : List TypeName :=
  Keyed.keys index.entries

/-- Remove the rejected types. -/
def filtered (index : Components) (rejected : List TypeName) : Components :=
  ⟨index.entries.filter fun entry => ! rejected.contains entry.1⟩

def renderEntry (entry : TypeName × String) : String :=
  entry.1.dotted ++ "=" ++ entry.2 ++ "\n"

/-- The text of a components file. -/
def render (index : Components) : String :=
  String.join (index.entries.map renderEntry)

/-- The resource pattern under which a component's own artifact is kept. -/
def resourcePattern (name : TypeName) : String := name.artifact

end Components

end TypeReach.Index
