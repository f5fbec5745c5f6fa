/-!
# Settings without types

The tree that a settings text stands for before it is known what its parts are
for.  A scalar written without quotes has no type of its own: it is a text where
a text is expected, and a truth value where one is expected.
-/

namespace TypeReach

/-- A tree of settings. -/
inductive Datum where
  | null
  | bool (value : Bool)
  | number
  | text (value : String)
  /-- A scalar without quotes, by its spelling. -/
  | plain (spelling : String)
  | list (items : List Datum)
  | record (fields : List (Datum × Datum))
  deriving Inhabited

namespace Datum

/-- Nothing at all, which is how an empty text is read. -/
def void : Datum := .plain ""

mutual

/-- How many lists and records are nested in a tree at most. -/
def levels : Datum → Nat
  | .list items => levelsOfItems items + 1
  | .record fields => levelsOfFields fields + 1
  | .null => 0
  | .bool _ => 0
  | .number => 0
  | .text _ => 0
  | .plain _ => 0

def levelsOfItems : List Datum → Nat
  | [] => 0
  | item :: rest => max item.levels (levelsOfItems rest)

def levelsOfField : Datum × Datum → Nat
  | (key, value) => max key.levels value.levels

def levelsOfFields : List (Datum × Datum) → Nat
  | [] => 0
  | field :: rest => max (levelsOfField field) (levelsOfFields rest)

end

end Datum

end TypeReach
