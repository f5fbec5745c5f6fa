import TypeReach.Index.Line
import TypeReach.Index.Malformed
import TypeReach.Keyed
import TypeReach.TypeName

/-!
# Factories files

A factories file maps keys to lists of type names, in the manner of a
properties file.  Keys keep the order in which they were first seen; a later
line for a key replaces an earlier one in the same file, while files are merged
by adding the values that are new.
-/

namespace TypeReach.Index

/-- A factories file or several of them merged. -/
structure Factories where
  entries : List (String × List String)
  deriving DecidableEq, Repr

namespace Factories

def empty : Factories := ⟨[]⟩

def isEmpty (index : Factories) : Bool := index.entries.isEmpty

/-- The values in the text after the equals sign. -/
def readValues (text : List Char) : List String :=
  (((text.splitOn ',').map Text.trim).filter (! ·.isEmpty)).map String.ofList

/-- The key and the values of a logical line. -/
def readLine (text : List Char) : Except Defect (String × List String) :=
  match Text.cut? '=' text with
  | none => .error .noKeyValue
  | some (key, values) =>
    if (Text.trim key).isEmpty then .error .emptyKey
    else .ok (String.ofList (Text.trim key), readValues values)

/-- Take logical lines over one by one, up to the first that is malformed. -/
def addLines (source : String) : List LogicalLine → Factories → Except Malformed Factories
  | [], index => .ok index
  | line :: rest, index =>
    match readLine line.text with
    | .error defect => .error ⟨source, line.start, defect⟩
    | .ok (key, values) => addLines source rest ⟨Keyed.set key values index.entries⟩

/-- Read a factories file; the source is named in errors. -/
def parse (source text : String) : Except Malformed Factories :=
  addLines source (logicalLines text.toList) empty

/-- The values of a key. -/
def values (index : Factories) (key : String) : List String :=
  (Keyed.get? key index.entries).getD []

/-- Add values that are not there yet at the end. -/
def addNew (present added : List String) : List String :=
  added.foldl (fun values value => if value ∈ values then values else values ++ [value]) present

/-- Add the keys and values of another file. -/
def merge (index other : Factories) : Factories :=
  ⟨other.entries.foldl
    (fun entries entry => Keyed.alter entry.1 (addNew · entry.2) entry.2 entries)
    index.entries⟩

/-- The types listed under some keys, each at its first place. -/
def candidates (index : Factories) (keys : List String) : List TypeName :=
  ((keys.flatMap index.values).filterMap TypeName.parse?).eraseDups

/-- Whether a value names one of the rejected types. -/
def isRejected (rejected : List TypeName) (value : String) : Bool :=
  match TypeName.parse? value with
  | some name => rejected.contains name
  | none => false

/-- Remove the rejected types from the values of some keys. -/
def filtered (index : Factories) (keys : List String) (rejected : List TypeName) : Factories :=
  ⟨index.entries.map fun entry =>
    if keys.contains entry.1 then (entry.1, entry.2.filter (! isRejected rejected ·))
    else entry⟩

theorem keys_filtered (index : Factories) (keys : List String) (rejected : List TypeName) :
    Keyed.keys (index.filtered keys rejected).entries = Keyed.keys index.entries := by
  simp only [filtered, Keyed.keys, List.map_map]
  apply List.map_congr_left
  intro entry _
  simp only [Function.comp_apply]
  split <;> rfl

/-- The lines of one key: one value to a line. -/
def renderEntry (entry : String × List String) : String :=
  entry.1 ++ "=" ++ ",\\\n".intercalate entry.2 ++ "\n"

/-- The text of a factories file. -/
def render (index : Factories) : String :=
  String.join (index.entries.map renderEntry)

end Factories

end TypeReach.Index
