import TypeReach.Text.Blank
import TypeReach.Text.Split
import TypeReach.Text.Quoted

/-!
# Type names

A type is written in three ways: dotted (`a.b.C`), slashed (`a/b/C`) and as a
field descriptor (`La/b/C;`, with one `[` in front for each array dimension).
All of them are brought to the slashed form once, when a name is read, so that
two names are equal exactly when they name the same type.
-/

namespace TypeReach

/-- A type name in its slashed form. -/
structure TypeName where
  slashed : String
  deriving DecidableEq, Hashable, Repr, Inhabited

namespace TypeName

/-- The slashed form of a dotted or slashed spelling. -/
def ofSpelling (spelling : List Char) : TypeName :=
  ⟨String.ofList (Text.replaceChar '.' '/' spelling)⟩

/-- What stands between the `L` and the `;` of a reference type's descriptor. -/
def referred? (descriptor : List Char) : Option (List Char) :=
  match descriptor with
  | 'L' :: rest =>
    match Text.before? [';'] rest with
    | some (first :: inner) => some (first :: inner)
    | _ => none
  | _ => none

/--
The type that a field descriptor names; for an array this is the type of its
elements.  Primitive types have no name.
-/
def ofDescriptorChars? (descriptor : List Char) : Option TypeName :=
  (referred? (descriptor.dropWhile (· = '['))).map ofSpelling

/-- The type that a field descriptor names. -/
def ofDescriptor? (descriptor : String) : Option TypeName :=
  ofDescriptorChars? descriptor.toList

/-- Read a name in any of its spellings, blank ends dropped. -/
def parseChars? (raw : List Char) : Option TypeName :=
  match Text.trim raw with
  | [] => none
  | first :: rest =>
    if first = '[' then ofDescriptorChars? (first :: rest)
    else
      match referred? (first :: rest) with
      | some inner => some (ofSpelling inner)
      | none => some (ofSpelling (first :: rest))

/-- Read a name in any of its spellings, blank ends dropped. -/
def parse? (raw : String) : Option TypeName :=
  parseChars? raw.toList

/-- The message for a text that is no type name. -/
def notANameMessage (raw : String) : String :=
  "not a type name: " ++ Text.quoted raw

/-- Read a name back from the text that it was stored as. -/
def parse (raw : String) : Except String TypeName :=
  match parse? raw with
  | some name => .ok name
  | none => .error (notANameMessage raw)

/-- The dotted form, which index files and reports show and in which names are stored. -/
def dotted (name : TypeName) : String :=
  String.ofList (Text.replaceChar '/' '.' name.slashed.toList)

/-- The field descriptor form. -/
def descriptor (name : TypeName) : String :=
  "L" ++ name.slashed ++ ";"

/-- The package in slashed form; empty for the unnamed package. -/
def package (name : TypeName) : String :=
  match Text.cutLast? '/' name.slashed.toList with
  | some (package, _) => String.ofList package
  | none => ""

/-- The name without its package. -/
def simple (name : TypeName) : String :=
  match Text.cutLast? '/' name.slashed.toList with
  | some (_, simple) => String.ofList simple
  | none => name.slashed

/-- Where a container keeps the compiled type. -/
def artifact (name : TypeName) : String :=
  name.slashed ++ ".class"

/-- Whether a name is spelled as one nested in `outer`. -/
def isNestedIn (name outer : TypeName) : Bool :=
  match Text.after? outer.slashed.toList name.slashed.toList with
  | some ('$' :: _ :: _) => true
  | _ => false

/-- The order of names by the code points of their slashed forms. -/
def le (left right : TypeName) : Bool :=
  decide (left.slashed ≤ right.slashed)

/-- Names in ascending order. -/
def sorted (names : List TypeName) : List TypeName :=
  names.mergeSort le

end TypeName

end TypeReach
