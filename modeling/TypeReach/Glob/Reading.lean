import TypeReach.Glob.Basic

/-!
# Reading glob patterns

`*` and `**` stand for any bytes, `?` for one, `[…]` for a class, `{…,…}` for
alternatives and a backslash takes the next character as it is.  Beside a
slash, `**` stands for whole segments of a path.
-/

namespace TypeReach.Glob

/-- Why a text is no pattern. -/
inductive Fault where
  | unclosedClass
  | invalidRange (low high : Char)
  | unopenedGroup
  | unclosedGroup
  | danglingEscape
  deriving DecidableEq, Repr

/-- The words for a fault. -/
def Fault.words : Fault → String
  | unclosedClass => "unclosed character class; missing ']'"
  | invalidRange low high =>
    "invalid range; '" ++ String.singleton low ++ "' > '" ++ String.singleton high ++ "'"
  | unopenedGroup =>
    "unopened alternate group; missing '\x7b' (maybe escape '\x7d' with '[\x7d]'?)"
  | unclosedGroup =>
    "unclosed alternate group; missing '\x7d' (maybe escape '\x7b' with '[\x7b]'?)"
  | danglingEscape => "dangling '\\'"

/-- The message for a text with a fault. -/
def Fault.message (text : String) (fault : Fault) : String :=
  "error parsing glob '" ++ text ++ "': " ++ fault.words

/-! ## Classes -/

/-- Let the last range end in another character. -/
def extendLast (character : Char) : List (Char × Char) → Except Fault (List (Char × Char))
  | [] => .ok [(character, character)]
  | (low, _) :: rest =>
    if character < low then .error (.invalidRange low character)
    else .ok ((low, character) :: rest)

/--
The ranges up to the closing bracket, the last one first, and what follows it.
A bracket or hyphen in front is a member, and so is a hyphen at the end.
-/
def readRanges (isFirst inRange : Bool) (ranges : List (Char × Char)) :
    List Char → Except Fault (List (Char × Char) × List Char)
  | [] => .error .unclosedClass
  | ']' :: rest =>
    if isFirst then readRanges false inRange ((']', ']') :: ranges) rest
    else if inRange then .ok (('-', '-') :: ranges, rest)
    else .ok (ranges, rest)
  | '-' :: rest =>
    if isFirst then readRanges false inRange (('-', '-') :: ranges) rest
    else if inRange then
      match extendLast '-' ranges with
      | .error fault => .error fault
      | .ok extended => readRanges false false extended rest
    else readRanges false true ranges rest
  | character :: rest =>
    if inRange then
      match extendLast character ranges with
      | .error fault => .error fault
      | .ok extended => readRanges false false extended rest
    else readRanges false false ((character, character) :: ranges) rest

theorem length_le_of_readRanges {isFirst inRange : Bool} {ranges found : List (Char × Char)}
    {input rest : List Char}
    (equality : readRanges isFirst inRange ranges input = .ok (found, rest)) :
    rest.length ≤ input.length := by
  fun_induction readRanges isFirst inRange ranges input <;> simp_all <;> omega

/-- A class after its opening bracket, and what follows it. -/
def readClass (input : List Char) : Except Fault (Token × List Char) :=
  let (negated, body) : Bool × List Char :=
    match input with
    | '!' :: rest => (true, rest)
    | '^' :: rest => (true, rest)
    | _ => (false, input)
  match readRanges true false [] body with
  | .error fault => .error fault
  | .ok (ranges, rest) => .ok (.oneOf negated ranges.reverse, rest)

theorem length_le_of_readClass {input rest : List Char} {token : Token}
    (equality : readClass input = .ok (token, rest)) : rest.length ≤ input.length := by
  unfold readClass at equality
  split at equality
  next body bodyEquality =>
    have bodyLength : body.length ≤ input.length := by
      split at bodyEquality <;> simp_all
    split at equality
    next => simp at equality
    next found more read =>
      have shorter := length_le_of_readRanges read
      simp at equality
      obtain ⟨-, rfl⟩ := equality
      omega

/-! ## Groups -/

/-- A group that is still open: what precedes it, and its branches so far. -/
structure OpenGroup where
  before : List Token
  branches : List (List Token)

/-- What was read so far: the current branch, the last part first, and the open groups. -/
structure Draft where
  current : List Token
  groups : List OpenGroup

namespace Draft

def empty : Draft := ⟨[], []⟩

def push (draft : Draft) (token : Token) : Draft :=
  { draft with current := token :: draft.current }

/-- Two stars that do not stand beside a slash. -/
def pushRuns (draft : Draft) : Draft := (draft.push .run).push .run

def openGroup (draft : Draft) : Draft :=
  ⟨[], ⟨draft.current, []⟩ :: draft.groups⟩

/-- A comma parts branches inside a group only. -/
def comma (draft : Draft) : Draft :=
  match draft.groups with
  | [] => draft.push (.literal ',')
  | group :: rest =>
    ⟨[], { group with branches := draft.current.reverse :: group.branches } :: rest⟩

def closeGroup (draft : Draft) : Except Fault Draft :=
  match draft.groups with
  | [] => .error .unopenedGroup
  | group :: rest =>
    .ok ⟨.alternatives (draft.current.reverse :: group.branches).reverse :: group.before, rest⟩

/-- Put whole segments in the place of the slash before two stars. -/
def pathRun (draft : Draft) (isLast : Bool) : Draft :=
  match draft.current with
  | .leadingPath :: _ => draft
  | .trailingPath :: _ => draft
  | _ :: rest => { draft with current := (if isLast then .trailingPath else .innerPath) :: rest }
  | [] => draft

/-- Whether two stars after `previous` can stand for whole segments. -/
def allowsPathRun (draft : Draft) (previous : Option Char) : Bool :=
  previous = some '/' ||
    (! draft.groups.isEmpty && (previous = some ',' || previous = some '\x7b'))

end Draft

/-- Read on after `previous`. -/
def readFrom (previous : Option Char) (draft : Draft) : List Char → Except Fault Draft
  | [] => .ok draft
  | '?' :: rest => readFrom (some '?') (draft.push .any) rest
  | '*' :: '*' :: rest =>
    if draft.current.isEmpty then
      match rest with
      | [] => .ok (draft.push .leadingPath)
      | '/' :: more => readFrom (some '/') (draft.push .leadingPath) more
      | more => readFrom (some '*') draft.pushRuns more
    else if draft.allowsPathRun previous then
      match rest with
      | [] => .ok (draft.pathRun true)
      | '/' :: more => readFrom (some '/') (draft.pathRun false) more
      | next :: more =>
        if ! draft.groups.isEmpty && (next = ',' || next = '\x7d') then
          readFrom (some '*') (draft.pathRun true) (next :: more)
        else readFrom (some '*') draft.pushRuns (next :: more)
    else readFrom (some '*') draft.pushRuns rest
  | '*' :: rest => readFrom (some '*') (draft.push .run) rest
  | '[' :: rest =>
    match found : readClass rest with
    | .error fault => .error fault
    | .ok (token, more) =>
      have := length_le_of_readClass found
      readFrom (some ']') (draft.push token) more
  | '\x7b' :: rest => readFrom (some '\x7b') draft.openGroup rest
  | '\x7d' :: rest =>
    match draft.closeGroup with
    | .error fault => .error fault
    | .ok closed => readFrom (some '\x7d') closed rest
  | ',' :: rest => readFrom (some ',') draft.comma rest
  | ['\\'] => .error .danglingEscape
  | '\\' :: character :: rest =>
    readFrom (some character) (draft.push (.literal character)) rest
  | character :: rest => readFrom (some character) (draft.push (.literal character)) rest
termination_by input => input.length

/-- Read a pattern. -/
def Pattern.parse (text : String) : Except Fault Pattern :=
  match readFrom none .empty text.toList with
  | .error fault => .error fault
  | .ok draft =>
    if draft.groups.isEmpty then .ok ⟨text, draft.current.reverse⟩
    else .error .unclosedGroup

end TypeReach.Glob
