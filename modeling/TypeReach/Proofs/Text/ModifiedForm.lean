import TypeReach.Proofs.Text.Coding

/-!
# The modified form of texts

The modified form differs from UTF-8 in two places only: NUL takes two bytes, and
a character beyond U+FFFF is written as its two surrogates with three bytes each.
Both forms of a text are read as that text.  They are told apart by no mark, so a
byte string may have a reading as UTF-8 and one unit by unit.  This is so exactly
where no character takes two units, and then the two readings are one.
-/

namespace TypeReach.Text.ModifiedUtf8

/-! ## The bytes of one character -/

/-- The three bytes that hold the sixteen bits of a unit. -/
def threeBytes (unit : Nat) : List UInt8 :=
  [.ofNat (0xE0 + unit / 4096), .ofNat (0x80 + unit / 64 % 64), .ofNat (0x80 + unit % 64)]

/-- The modified form of a character. -/
def encodeChar (character : Char) : List UInt8 :=
  if character.toNat = 0 then [0xC0, 0x80]
  else if character.toNat < 0x10000 then String.utf8EncodeChar character
  else
    threeBytes (0xD800 + (character.toNat - 0x10000) / 0x400) ++
      threeBytes (0xDC00 + (character.toNat - 0x10000) % 0x400)

/-- A unit that is a character other than NUL has the bytes of that character. -/
theorem spells_encodeUnit
    {code : Nat}
    (valid : code.isValidChar)
    (nonzero : code ≠ 0)
    (single : code < 0x10000) :
    Utf8.Spells (encodeUnit code) code := by
  unfold Nat.isValidChar at valid
  unfold encodeUnit
  split
  · exact .one (by omega) (toNat_ofNat_of_lt (by omega))
  split
  · exact .two (by omega) (by omega) (toNat_ofNat_of_lt (by omega))
      (toNat_ofNat_of_lt (by omega))
  · exact .three (by omega) single (by omega) (toNat_ofNat_of_lt (by omega))
      (toNat_ofNat_of_lt (by omega)) (toNat_ofNat_of_lt (by omega))

theorem encodeUnit_eq_threeBytes
    {unit : Nat}
    (long : 0x800 ≤ unit) :
    encodeUnit unit = threeBytes unit := by
  rw [encodeUnit, if_neg (by omega), if_neg (by omega), threeBytes]

theorem flatMap_encodeUnit_toUnits
    (character : Char) :
    (toUnits character).flatMap encodeUnit = encodeChar character := by
  unfold toUnits encodeChar
  by_cases single : character.toNat < 0x10000
  · rw [if_pos single, if_pos single, List.flatMap_singleton]
    by_cases zero : character.toNat = 0
    · rw [if_pos zero, zero]
      rfl
    · rw [if_neg zero]
      exact (spells_encodeUnit character.valid zero single).utf8EncodeChar_eq.symm
  · rw [if_neg single, if_neg (by omega), if_neg single, List.flatMap_cons,
      List.flatMap_singleton, encodeUnit_eq_threeBytes (by omega),
      encodeUnit_eq_threeBytes (by omega)]

/-! ## Both forms of a text -/

theorem encode_eq_flatMap
    (text : List Char) :
    encode text = text.flatMap encodeChar := by
  rw [encode, List.flatMap_assoc]
  simp only [flatMap_encodeUnit_toUnits]

/--
The modified form of a text and its UTF-8 form are both read as that text.  Where
UTF-8 can also be read unit by unit, the two readings are the same; this is so as
long as no character takes two units.
-/
theorem decode?_faithful
    (text : List Char) :
    encode text = text.flatMap encodeChar ∧
    decode? (text.flatMap encodeChar) = some text ∧
    decode? (Utf8.encode text) = some text ∧
    ∀ bytes, Utf8.decode? bytes = some text →
      (∀ other, decodeUnits? bytes = some other → other = text) ∧
      ((decodeUnits? bytes).isSome ↔ ∀ character ∈ text, character.toNat < 0x10000) := by
  refine ⟨encode_eq_flatMap text, ?_, decode?_utf8 text, ?_⟩
  · rw [← encode_eq_flatMap]
    exact decode?_encode text
  · intro bytes decoded
    rw [Utf8.decode?_eq_some_iff.mp decoded]
    refine ⟨fun other => eq_of_decodeUnits?_encode, ?_⟩
    have test : text.all (fun character => character.toNat < 0x10000) = true ↔
        ∀ character ∈ text, character.toNat < 0x10000 := by
      simp only [List.all_eq_true, decide_eq_true_eq]
    rw [decodeUnits?_utf8, ← test]
    cases text.all fun character => character.toNat < 0x10000 <;> simp

/-- One character of each form; the last one takes two units. -/
def everyForm : List Char := ['a', '\x00', 'é', '€', '😀']

theorem decode?_faithful_everyForm :
    everyForm.flatMap encodeChar =
        [0x61, 0xC0, 0x80, 0xC3, 0xA9, 0xE2, 0x82, 0xAC, 0xED, 0xA0, 0xBD, 0xED, 0xB8, 0x80] ∧
      decode? (everyForm.flatMap encodeChar) = some everyForm ∧
      Utf8.encode everyForm =
        [0x61, 0x00, 0xC3, 0xA9, 0xE2, 0x82, 0xAC, 0xF0, 0x9F, 0x98, 0x80] ∧
      decode? (Utf8.encode everyForm) = some everyForm ∧
      decodeUnits? (Utf8.encode everyForm) = none ∧
      Utf8.decode? [0x61, 0x00, 0xC3, 0xA9, 0xE2, 0x82, 0xAC] = some ['a', '\x00', 'é', '€'] ∧
      ∃ other, decodeUnits? [0x61, 0x00, 0xC3, 0xA9, 0xE2, 0x82, 0xAC] = some other ∧
        other = ['a', '\x00', 'é', '€'] := by
  have plain : Utf8.decode? [0x61, 0x00, 0xC3, 0xA9, 0xE2, 0x82, 0xAC] =
      some ['a', '\x00', 'é', '€'] := Utf8.decode?_eq_some_iff.mpr (by decide)
  rcases decode?_faithful ['a', '\x00', 'é', '€'] with ⟨_, _, _, agree⟩
  rcases decode?_faithful everyForm with ⟨_, modified, utf8, units⟩
  rcases agree _ plain with ⟨same, readable⟩
  rcases Option.isSome_iff_exists.mp (readable.mpr (by simp)) with ⟨other, decoded⟩
  refine ⟨by decide, modified, by decide, utf8, ?_, plain, other, decoded, same other decoded⟩
  have unreadable := (units _ (Utf8.decode?_encode everyForm)).2
  rw [← Option.not_isSome_iff_eq_none, unreadable]
  simp [everyForm]

end TypeReach.Text.ModifiedUtf8
