/-!
# UTF-8

A byte text is cut into pieces: each piece is a character or an invalid run of
bytes that is as long as it could still have begun a character.  A strict
reading needs every piece to be a character; a lenient one puts the
replacement character in the place of every other piece.
-/

namespace TypeReach.Text.Utf8

/--
What the first byte of a character says: how many bytes follow, between which
bounds the first of these has to lie, and the leading bits of the code point.
-/
structure Lead where
  tails : Nat
  low : Nat
  high : Nat
  bits : Nat

/-- The reading of a first byte; `none` for a byte that starts no character. -/
def lead? (byte : Nat) : Option Lead :=
  if byte < 0x80 then some ⟨0, 0, 0, byte⟩
  else if byte < 0xC2 then none
  else if byte < 0xE0 then some ⟨1, 0x80, 0xBF, byte - 0xC0⟩
  else if byte = 0xE0 then some ⟨2, 0xA0, 0xBF, 0⟩
  else if byte = 0xED then some ⟨2, 0x80, 0x9F, 0xD⟩
  else if byte < 0xF0 then some ⟨2, 0x80, 0xBF, byte - 0xE0⟩
  else if byte = 0xF0 then some ⟨3, 0x90, 0xBF, 0⟩
  else if byte < 0xF4 then some ⟨3, 0x80, 0xBF, byte - 0xF0⟩
  else if byte = 0xF4 then some ⟨3, 0x80, 0x8F, 4⟩
  else none

/-- Read the later bytes of a character on top of the bits already read. -/
def tails : Nat → Nat → List UInt8 → Option Char × List UInt8
  | 0, bits, rest => (some (Char.ofNat bits), rest)
  | _ + 1, _, [] => (none, [])
  | count + 1, bits, byte :: rest =>
    if 0x80 ≤ byte.toNat && byte.toNat ≤ 0xBF then
      tails count (bits * 64 + (byte.toNat - 0x80)) rest
    else (none, byte :: rest)

/-- The piece that starts with a given byte, and the bytes after it. -/
def piece (first : UInt8) (rest : List UInt8) : Option Char × List UInt8 :=
  match lead? first.toNat with
  | none => (none, rest)
  | some lead =>
    match lead.tails, rest with
    | 0, _ => (some (Char.ofNat lead.bits), rest)
    | _ + 1, [] => (none, [])
    | count + 1, byte :: more =>
      if lead.low ≤ byte.toNat && byte.toNat ≤ lead.high then
        tails count (lead.bits * 64 + (byte.toNat - 0x80)) more
      else (none, rest)

theorem length_tails_le (count bits : Nat) (rest : List UInt8) :
    (tails count bits rest).2.length ≤ rest.length := by
  induction count generalizing bits rest with
  | zero => simp [tails]
  | succ count inductive_hypothesis =>
    cases rest with
    | nil => simp [tails]
    | cons byte more =>
      unfold tails
      split
      · have bound := inductive_hypothesis (bits * 64 + (byte.toNat - 0x80)) more
        simp only [List.length_cons]
        omega
      · simp

theorem length_piece_le (first : UInt8) (rest : List UInt8) :
    (piece first rest).2.length ≤ rest.length := by
  unfold piece
  split
  · simp
  · split
    · simp
    · simp
    · split
      · have bound := length_tails_le
        simp only [List.length_cons]
        exact Nat.le_succ_of_le (bound _ _ _)
      · simp

/-- All pieces of a byte text in order. -/
def pieces : List UInt8 → List (Option Char)
  | [] => []
  | first :: rest => (piece first rest).1 :: pieces (piece first rest).2
termination_by bytes => bytes.length
decreasing_by
  have bound := length_piece_le first rest
  simp only [List.length_cons]
  omega

/-- The characters of pieces that are all characters. -/
def wholeChars? : List (Option Char) → Option (List Char)
  | [] => some []
  | none :: _ => none
  | some character :: rest => (wholeChars? rest).map (character :: ·)

/-- Strict reading: `none` unless the bytes are UTF-8 throughout. -/
def decode? (bytes : List UInt8) : Option (List Char) :=
  wholeChars? (pieces bytes)

/-- Lenient reading: U+FFFD stands for every piece that is no character. -/
def decodeLenient (bytes : List UInt8) : List Char :=
  (pieces bytes).map (Option.getD · '�')

/-- The bytes of a text. -/
def encode (text : List Char) : List UInt8 :=
  text.flatMap String.utf8EncodeChar

end TypeReach.Text.Utf8
