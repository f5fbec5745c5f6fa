import TypeReach.Text.ModifiedUtf8

/-!
# Texts written as bytes

The strict reading of UTF-8 gives a text exactly for the bytes of that text.  A
text of a class file may also be written unit by unit; such bytes are read as
UTF-8 first, and where both readings give a text it is the same one.  So either
form is read back as what was written.
-/

namespace TypeReach.Text

theorem toNat_ofNat_of_isValidChar
    {code : Nat} (valid : code.isValidChar) :
    (Char.ofNat code).toNat = code := by
  rw [Char.ofNat, dif_pos valid]
  rfl

theorem toNat_bounds
    (character : Char) :
    character.toNat < 0xD800 ∨ 0xDFFF < character.toNat ∧ character.toNat < 0x110000 :=
  character.valid

theorem toNat_ofNat_of_lt
    {number : Nat} (bound : number < 256) :
    (UInt8.ofNat number).toNat = number :=
  UInt8.toNat_ofNat_of_lt' bound

theorem ofNat_eq_of_toNat_eq
    {byte : UInt8} {number : Nat} (same : byte.toNat = number) :
    UInt8.ofNat number = byte := by
  rw [← same, UInt8.ofNat_toNat]

namespace Utf8

/-! ## The bytes of one code point -/

/-- The bytes that write a code point: the shortest of the four forms. -/
inductive Spells : List UInt8 → Nat → Prop where
  | one {first : UInt8} {code : Nat}
      (bound : code < 0x80)
      (isFirst : first.toNat = code) :
      Spells [first] code
  | two {first second : UInt8} {code : Nat}
      (lower : 0x80 ≤ code) (bound : code < 0x800)
      (isFirst : first.toNat = 0xC0 + code / 64)
      (isSecond : second.toNat = 0x80 + code % 64) :
      Spells [first, second] code
  | three {first second third : UInt8} {code : Nat}
      (lower : 0x800 ≤ code) (bound : code < 0x10000)
      (whole : code < 0xD800 ∨ 0xE000 ≤ code)
      (isFirst : first.toNat = 0xE0 + code / 4096)
      (isSecond : second.toNat = 0x80 + code / 64 % 64)
      (isThird : third.toNat = 0x80 + code % 64) :
      Spells [first, second, third] code
  | four {first second third fourth : UInt8} {code : Nat}
      (lower : 0x10000 ≤ code) (bound : code < 0x110000)
      (isFirst : first.toNat = 0xF0 + code / 262144)
      (isSecond : second.toNat = 0x80 + code / 4096 % 64)
      (isThird : third.toNat = 0x80 + code / 64 % 64)
      (isFourth : fourth.toNat = 0x80 + code % 64) :
      Spells [first, second, third, fourth] code

theorem exists_spells
    {code : Nat} (valid : code.isValidChar) :
    ∃ chunk, Spells chunk code := by
  unfold Nat.isValidChar at valid
  by_cases small : code < 0x80
  · exact ⟨[.ofNat code], .one small (toNat_ofNat_of_lt (by omega))⟩
  by_cases medium : code < 0x800
  · exact ⟨[.ofNat (0xC0 + code / 64), .ofNat (0x80 + code % 64)],
      .two (by omega) medium (toNat_ofNat_of_lt (by omega))
        (toNat_ofNat_of_lt (by omega))⟩
  by_cases large : code < 0x10000
  · exact ⟨[.ofNat (0xE0 + code / 4096), .ofNat (0x80 + code / 64 % 64),
        .ofNat (0x80 + code % 64)],
      .three (by omega) large (by omega) (toNat_ofNat_of_lt (by omega))
        (toNat_ofNat_of_lt (by omega)) (toNat_ofNat_of_lt (by omega))⟩
  · exact ⟨[.ofNat (0xF0 + code / 262144), .ofNat (0x80 + code / 4096 % 64),
        .ofNat (0x80 + code / 64 % 64), .ofNat (0x80 + code % 64)],
      .four (by omega) (by omega) (toNat_ofNat_of_lt (by omega))
        (toNat_ofNat_of_lt (by omega)) (toNat_ofNat_of_lt (by omega))
        (toNat_ofNat_of_lt (by omega))⟩

theorem Spells.isValidChar
    {chunk : List UInt8} {code : Nat} (spells : Spells chunk code) :
    code.isValidChar := by
  unfold Nat.isValidChar
  cases spells <;> omega

theorem Spells.utf8EncodeChar_eq
    {chunk : List UInt8} {character : Char} (spells : Spells chunk character.toNat) :
    String.utf8EncodeChar character = chunk := by
  have value : character.val.toNat = character.toNat := rfl
  simp only [String.utf8EncodeChar, value]
  generalize character.toNat = code at spells
  cases spells with
  | one bound isFirst =>
      rw [if_pos (by omega), ofNat_eq_of_toNat_eq isFirst]
  | two lower bound isFirst isSecond =>
      rw [if_neg (by omega), if_pos (by omega)]
      simp only [List.cons.injEq, and_true]
      exact ⟨ofNat_eq_of_toNat_eq (by omega), ofNat_eq_of_toNat_eq (by omega)⟩
  | three lower bound whole isFirst isSecond isThird =>
      rw [if_neg (by omega), if_neg (by omega), if_pos (by omega)]
      simp only [List.cons.injEq, and_true]
      exact ⟨ofNat_eq_of_toNat_eq (by omega), ofNat_eq_of_toNat_eq (by omega),
        ofNat_eq_of_toNat_eq (by omega)⟩
  | four lower bound isFirst isSecond isThird isFourth =>
      rw [if_neg (by omega), if_neg (by omega), if_neg (by omega)]
      simp only [List.cons.injEq, and_true]
      exact ⟨ofNat_eq_of_toNat_eq (by omega), ofNat_eq_of_toNat_eq (by omega),
        ofNat_eq_of_toNat_eq (by omega), ofNat_eq_of_toNat_eq (by omega)⟩

theorem spells_utf8EncodeChar
    (character : Char) :
    Spells (String.utf8EncodeChar character) character.toNat := by
  rcases exists_spells character.valid with ⟨chunk, spells⟩
  rw [Spells.utf8EncodeChar_eq spells]
  exact spells

/-! ## One piece -/

theorem lead?_of_two
    (high : Nat) (lower : 2 ≤ high) (bound : high < 32) :
    lead? (0xC0 + high) = some ⟨1, 0x80, 0xBF, high⟩ := by
  rw [lead?, if_neg (by omega), if_neg (by omega), if_pos (by omega),
    Nat.add_sub_cancel_left]

/-- The bounds leave out the long forms and the halves of pairs. -/
theorem lead?_of_three
    (high : Nat) (bound : high < 16) :
    lead? (0xE0 + high) =
      some ⟨2, if high = 0 then 0xA0 else 0x80, if high = 13 then 0x9F else 0xBF, high⟩ := by
  rw [lead?, if_neg (by omega), if_neg (by omega), if_neg (by omega)]
  by_cases lowest : high = 0
  · simp [lowest]
  by_cases paired : high = 13
  · simp [paired]
  · rw [if_neg (by omega), if_neg (by omega), if_pos (by omega), if_neg lowest,
      if_neg paired, Nat.add_sub_cancel_left]

/-- The bounds leave out the long forms and what is beyond the last code point. -/
theorem lead?_of_four
    (high : Nat) (bound : high ≤ 4) :
    lead? (0xF0 + high) =
      some ⟨3, if high = 0 then 0x90 else 0x80, if high = 4 then 0x8F else 0xBF, high⟩ := by
  have cases : high = 0 ∨ high = 1 ∨ high = 2 ∨ high = 3 ∨ high = 4 := by omega
  rcases cases with rfl | rfl | rfl | rfl | rfl <;> rfl

/-- A first byte is one of the four forms. -/
theorem lead?_eq_some
    {byte : Nat} {lead : Lead} (isLead : lead? byte = some lead) :
    (byte < 0x80 ∧ lead = ⟨0, 0, 0, byte⟩) ∨
      (∃ high, byte = 0xC0 + high ∧ 2 ≤ high ∧ high < 32) ∨
      (∃ high, byte = 0xE0 + high ∧ high < 16) ∨
      ∃ high, byte = 0xF0 + high ∧ high ≤ 4 := by
  by_cases small : byte < 0x80
  · rw [lead?, if_pos small] at isLead
    exact .inl ⟨small, (Option.some.inj isLead).symm⟩
  by_cases stray : byte < 0xC2
  · rw [lead?, if_neg small, if_pos stray] at isLead
    cases isLead
  by_cases two : byte < 0xE0
  · exact .inr (.inl ⟨byte - 0xC0, by omega, by omega, by omega⟩)
  by_cases three : byte < 0xF0
  · exact .inr (.inr (.inl ⟨byte - 0xE0, by omega, by omega⟩))
  by_cases four : byte < 0xF5
  · exact .inr (.inr (.inr ⟨byte - 0xF0, by omega, by omega⟩))
  · simp (disch := omega) only [lead?, if_neg] at isLead
    cases isLead

theorem tails_cons
    (count bits : Nat) {byte : UInt8} {low : Nat}
    (isByte : byte.toNat = 0x80 + low) (bound : low < 64) (rest : List UInt8) :
    tails (count + 1) bits (byte :: rest) = tails count (bits * 64 + low) rest := by
  have inside : (0x80 ≤ byte.toNat && byte.toNat ≤ 0xBF) = true := by
    simp only [Bool.and_eq_true, decide_eq_true_eq]
    omega
  rw [tails, if_pos inside, isByte, Nat.add_sub_cancel_left]

theorem tails_eq_some
    {count bits : Nat} {rest after : List UInt8} {character : Char}
    (found : tails (count + 1) bits rest = (some character, after)) :
    ∃ byte more low, rest = byte :: more ∧ byte.toNat = 0x80 + low ∧ low < 64 ∧
      tails count (bits * 64 + low) more = (some character, after) := by
  cases rest with
  | nil => cases found
  | cons byte more =>
      by_cases inside : (0x80 ≤ byte.toNat && byte.toNat ≤ 0xBF) = true
      · rw [tails, if_pos inside] at found
        simp only [Bool.and_eq_true, decide_eq_true_eq] at inside
        exact ⟨byte, more, byte.toNat - 0x80, rfl, by omega, by omega, found⟩
      · rw [tails, if_neg inside] at found
        cases found

theorem piece_cons
    {first byte : UInt8} {lead : Lead} {count low : Nat}
    (isLead : lead? first.toNat = some lead) (tailed : lead.tails = count + 1)
    (isByte : byte.toNat = 0x80 + low)
    (inside : lead.low ≤ byte.toNat ∧ byte.toNat ≤ lead.high) (rest : List UInt8) :
    piece first (byte :: rest) = tails count (lead.bits * 64 + low) rest := by
  have test : (lead.low ≤ byte.toNat && byte.toNat ≤ lead.high) = true := by
    simpa only [Bool.and_eq_true, decide_eq_true_eq] using inside
  simp only [piece, isLead, tailed]
  rw [if_pos test, isByte, Nat.add_sub_cancel_left]

theorem piece_eq_some
    {first : UInt8} {rest after : List UInt8} {character : Char} {lead : Lead} {count : Nat}
    (isLead : lead? first.toNat = some lead) (tailed : lead.tails = count + 1)
    (found : piece first rest = (some character, after)) :
    ∃ byte more, rest = byte :: more ∧ lead.low ≤ byte.toNat ∧ byte.toNat ≤ lead.high ∧
      tails count (lead.bits * 64 + (byte.toNat - 0x80)) more = (some character, after) := by
  cases rest with
  | nil =>
      simp only [piece, isLead, tailed] at found
      cases found
  | cons byte more =>
      simp only [piece, isLead, tailed] at found
      by_cases inside : (lead.low ≤ byte.toNat && byte.toNat ≤ lead.high) = true
      · rw [if_pos inside] at found
        simp only [Bool.and_eq_true, decide_eq_true_eq] at inside
        exact ⟨byte, more, rfl, inside.1, inside.2, found⟩
      · rw [if_neg inside] at found
        cases found

theorem Spells.piece_eq
    {chunk : List UInt8} {code : Nat} (spells : Spells chunk code) :
    ∃ first more, chunk = first :: more ∧
      ∀ rest, piece first (more ++ rest) = (some (Char.ofNat code), rest) := by
  cases spells with
  | one bound isFirst =>
      refine ⟨_, _, rfl, ?_⟩
      intro rest
      simp [piece, lead?, isFirst, bound]
  | two lower bound isFirst isSecond =>
      refine ⟨_, _, rfl, ?_⟩
      intro rest
      have isLead := lead?_of_two (code / 64) (by omega) (by omega)
      rw [← isFirst] at isLead
      rw [List.cons_append, List.nil_append,
        piece_cons isLead rfl isSecond (by constructor <;> simp only <;> omega), tails,
        Nat.div_add_mod']
  | three lower bound whole isFirst isSecond isThird =>
      refine ⟨_, _, rfl, ?_⟩
      intro rest
      have isLead := lead?_of_three (code / 4096) (by omega)
      rw [← isFirst] at isLead
      rw [List.cons_append, List.cons_append, List.nil_append,
        piece_cons isLead rfl isSecond (by constructor <;> dsimp only <;> split <;> omega),
        tails_cons 0 _ isThird (by omega), tails,
        show (code / 4096 * 64 + code / 64 % 64) * 64 + code % 64 = code by omega]
  | four lower bound isFirst isSecond isThird isFourth =>
      refine ⟨_, _, rfl, ?_⟩
      intro rest
      have isLead := lead?_of_four (code / 262144) (by omega)
      rw [← isFirst] at isLead
      rw [List.cons_append, List.cons_append, List.cons_append, List.nil_append,
        piece_cons isLead rfl isSecond (by constructor <;> dsimp only <;> split <;> omega),
        tails_cons 1 _ isThird (by omega), tails_cons 0 _ isFourth (by omega), tails,
        show ((code / 262144 * 64 + code / 4096 % 64) * 64 + code / 64 % 64) * 64 + code % 64 =
          code by omega]

/-- A piece that is a character has the bytes of that character. -/
theorem exists_spells_of_piece
    {first : UInt8} {rest after : List UInt8} {character : Char}
    (found : piece first rest = (some character, after)) :
    ∃ chunk code, Spells chunk code ∧ first :: rest = chunk ++ after ∧
      character = Char.ofNat code := by
  cases isLead : lead? first.toNat with
  | none =>
      simp only [piece, isLead] at found
      cases found
  | some lead =>
      rcases lead?_eq_some isLead with ⟨small, rfl⟩ | ⟨high, isFirst, lower, bound⟩ |
        ⟨high, isFirst, bound⟩ | ⟨high, isFirst, bound⟩
      · simp only [piece, isLead] at found
        cases found
        exact ⟨[first], first.toNat, .one small rfl, rfl, rfl⟩
      · have form := lead?_of_two high lower bound
        rw [← isFirst] at form
        rcases piece_eq_some form rfl found with ⟨second, more, rfl, above, below, ended⟩
        rcases Prod.mk.inj ended with ⟨isCharacter, rfl⟩
        dsimp only at above below isCharacter
        refine ⟨[first, second], _, .two ?_ ?_ ?_ ?_, rfl,
          (Option.some.inj isCharacter).symm⟩ <;> omega
      · have form := lead?_of_three high bound
        rw [← isFirst] at form
        rcases piece_eq_some form rfl found with ⟨second, more, rfl, above, below, following⟩
        rcases tails_eq_some following with ⟨third, more, low, rfl, isThird, lowBound, ended⟩
        rcases Prod.mk.inj ended with ⟨isCharacter, rfl⟩
        dsimp only at above below isCharacter
        have lower : 0x80 ≤ second.toNat ∧ (high = 0 → 0xA0 ≤ second.toNat) := by
          split at above <;> omega
        have upper : second.toNat ≤ 0xBF ∧ (high = 13 → second.toNat ≤ 0x9F) := by
          split at below <;> omega
        clear above below
        refine ⟨[first, second, third], _, .three ?_ ?_ ?_ ?_ ?_ ?_, rfl,
          (Option.some.inj isCharacter).symm⟩ <;> omega
      · have form := lead?_of_four high bound
        rw [← isFirst] at form
        rcases piece_eq_some form rfl found with ⟨second, more, rfl, above, below, following⟩
        rcases tails_eq_some following with ⟨third, more, mid, rfl, isThird, midBound, later⟩
        rcases tails_eq_some later with ⟨fourth, more, low, rfl, isFourth, lowBound, ended⟩
        rcases Prod.mk.inj ended with ⟨isCharacter, rfl⟩
        dsimp only at above below isCharacter
        have lower : 0x80 ≤ second.toNat ∧ (high = 0 → 0x90 ≤ second.toNat) := by
          split at above <;> omega
        have upper : second.toNat ≤ 0xBF ∧ (high = 4 → second.toNat ≤ 0x8F) := by
          split at below <;> omega
        clear above below
        refine ⟨[first, second, third, fourth], _, .four ?_ ?_ ?_ ?_ ?_ ?_, rfl,
          (Option.some.inj isCharacter).symm⟩ <;> omega

/-! ## Whole texts -/

theorem decode?_nil :
    decode? [] = some [] := by
  rw [decode?, pieces]
  rfl

theorem decode?_cons
    (first : UInt8) (rest : List UInt8) :
    decode? (first :: rest) =
      (piece first rest).1.bind fun character =>
        (decode? (piece first rest).2).map (character :: ·) := by
  rw [decode?, pieces]
  cases (piece first rest).1 <;> rfl

theorem Spells.decode?_append
    {chunk : List UInt8} {code : Nat} (spells : Spells chunk code) (rest : List UInt8) :
    decode? (chunk ++ rest) = (decode? rest).map (Char.ofNat code :: ·) := by
  rcases spells.piece_eq with ⟨first, more, rfl, isPiece⟩
  rw [List.cons_append, decode?_cons, isPiece rest]
  rfl

theorem decode?_encode
    (text : List Char) :
    decode? (encode text) = some text := by
  induction text with
  | nil => exact decode?_nil
  | cons character rest inductive_hypothesis =>
      have step := (spells_utf8EncodeChar character).decode?_append (encode rest)
      rw [inductive_hypothesis, Char.ofNat_toNat] at step
      exact step

theorem eq_encode_of_decode?
    {bytes : List UInt8} {text : List Char} (decoded : decode? bytes = some text) :
    bytes = encode text := by
  induction text generalizing bytes with
  | nil =>
      cases bytes with
      | nil => rfl
      | cons first rest =>
          rw [decode?_cons] at decoded
          simp [Option.bind_eq_some_iff] at decoded
  | cons character text inductive_hypothesis =>
      cases bytes with
      | nil =>
          rw [decode?_nil] at decoded
          cases decoded
      | cons first rest =>
          rw [decode?_cons, Option.bind_eq_some_iff] at decoded
          rcases decoded with ⟨found, isPiece, decoded⟩
          rcases Option.map_eq_some_iff.mp decoded with ⟨_, later, same⟩
          cases same
          have whole : piece first rest = (some character, (piece first rest).2) :=
            Prod.ext isPiece rfl
          rcases exists_spells_of_piece whole with ⟨chunk, code, spells, parts, rfl⟩
          rw [← toNat_ofNat_of_isValidChar spells.isValidChar] at spells
          rw [parts, inductive_hypothesis later, ← spells.utf8EncodeChar_eq]
          rfl

/-- Strict reading gives a text exactly for the bytes of that text. -/
theorem decode?_eq_some_iff
    {bytes : List UInt8} {text : List Char} :
    decode? bytes = some text ↔ bytes = encode text := by
  constructor
  · exact eq_encode_of_decode?
  · rintro rfl
    exact decode?_encode text

end Utf8

namespace ModifiedUtf8

/-! ## Units -/

theorem units?_one
    {first : UInt8} {unit : Nat}
    (bound : unit < 0x80) (isFirst : first.toNat = unit) (rest : List UInt8) :
    units? (first :: rest) = (units? rest).map (unit :: ·) := by
  rw [units?.eq_def]
  simp only [isFirst, if_pos bound]

theorem isTail_of_toNat_eq
    {byte : UInt8} {low : Nat} (isByte : byte.toNat = 0x80 + low) (bound : low < 64) :
    isTail byte = true := by
  simp only [isTail, Bool.and_eq_true, decide_eq_true_eq]
  omega

theorem units?_two
    {first second : UInt8} {unit : Nat} (bound : unit < 0x800)
    (isFirst : first.toNat = 0xC0 + unit / 64) (isSecond : second.toNat = 0x80 + unit % 64)
    (rest : List UInt8) :
    units? (first :: second :: rest) = (units? rest).map (unit :: ·) := by
  have form : (0xC0 ≤ first.toNat && first.toNat < 0xE0) = true := by
    simp only [Bool.and_eq_true, decide_eq_true_eq]
    omega
  rw [units?, if_neg (by omega), if_pos form]
  simp only [isTail_of_toNat_eq isSecond (by omega), if_true]
  rw [isFirst, isSecond, Nat.add_sub_cancel_left, Nat.add_sub_cancel_left,
    Nat.div_add_mod']

theorem units?_three
    {first second third : UInt8} {unit : Nat} (bound : unit < 0x10000)
    (isFirst : first.toNat = 0xE0 + unit / 4096)
    (isSecond : second.toNat = 0x80 + unit / 64 % 64)
    (isThird : third.toNat = 0x80 + unit % 64) (rest : List UInt8) :
    units? (first :: second :: third :: rest) = (units? rest).map (unit :: ·) := by
  have shorter : ¬(0xC0 ≤ first.toNat && first.toNat < 0xE0) = true := by
    simp only [Bool.and_eq_true, decide_eq_true_eq]
    omega
  have form : (0xE0 ≤ first.toNat && first.toNat < 0xF0) = true := by
    simp only [Bool.and_eq_true, decide_eq_true_eq]
    omega
  rw [units?, if_neg (by omega), if_neg shorter, if_pos form]
  simp only [isTail_of_toNat_eq isSecond (by omega), isTail_of_toNat_eq isThird (by omega),
    Bool.and_true, if_true]
  rw [isFirst, isSecond, isThird, Nat.add_sub_cancel_left, Nat.add_sub_cancel_left,
    Nat.add_sub_cancel_left,
    show unit / 4096 * 4096 + unit / 64 % 64 * 64 + unit % 64 = unit by omega]

theorem units?_encodeUnit_append
    {unit : Nat} (bound : unit < 0x10000) (rest : List UInt8) :
    units? (encodeUnit unit ++ rest) = (units? rest).map (unit :: ·) := by
  unfold encodeUnit
  split
  · exact units?_one (by omega) (toNat_ofNat_of_lt (by omega)) rest
  split
  · exact units?_two (by omega) (toNat_ofNat_of_lt (by omega))
      (toNat_ofNat_of_lt (by omega)) rest
  · exact units?_three bound (toNat_ofNat_of_lt (by omega)) (toNat_ofNat_of_lt (by omega))
      (toNat_ofNat_of_lt (by omega)) rest

theorem units?_flatMap_encodeUnit
    {units : List Nat} (bound : ∀ unit ∈ units, unit < 0x10000) :
    units? (units.flatMap encodeUnit) = some units := by
  induction units with
  | nil => rfl
  | cons unit rest inductive_hypothesis =>
      rw [List.forall_mem_cons] at bound
      rw [List.flatMap_cons, units?_encodeUnit_append bound.1, inductive_hypothesis bound.2]
      rfl

/-! ## Characters -/

theorem toUnits_lt
    {character : Char} {unit : Nat} (member : unit ∈ toUnits character) :
    unit < 0x10000 := by
  have bounds := toNat_bounds character
  unfold toUnits at member
  split at member
  · simp only [List.mem_singleton] at member
    omega
  · simp only [List.mem_cons, List.not_mem_nil, or_false] at member
    omega

theorem fromUnits?_cons
    {character : Char} (single : character.toNat < 0x10000) (rest : List Nat) :
    fromUnits? (character.toNat :: rest) = (fromUnits? rest).map (character :: ·) := by
  have bounds := toNat_bounds character
  have notHigh : ¬isHigh character.toNat = true := by
    simp only [isHigh, Bool.and_eq_true, decide_eq_true_eq]
    omega
  have notLow : ¬isLow character.toNat = true := by
    simp only [isLow, Bool.and_eq_true, decide_eq_true_eq]
    omega
  rw [fromUnits?.eq_def]
  simp only [if_neg notHigh, if_neg notLow, Char.ofNat_toNat]

theorem fromUnits?_toUnits_append
    (character : Char) (rest : List Nat) :
    fromUnits? (toUnits character ++ rest) = (fromUnits? rest).map (character :: ·) := by
  unfold toUnits
  split
  · rename_i single
    exact fromUnits?_cons single rest
  · have bounds := toNat_bounds character
    have high : isHigh (0xD800 + (character.toNat - 0x10000) / 0x400) = true := by
      simp only [isHigh, Bool.and_eq_true, decide_eq_true_eq]
      omega
    have low : isLow (0xDC00 + (character.toNat - 0x10000) % 0x400) = true := by
      simp only [isLow, Bool.and_eq_true, decide_eq_true_eq]
      omega
    rw [List.cons_append, List.cons_append, List.nil_append, fromUnits?.eq_def]
    simp only [high, low, if_true]
    rw [Nat.add_sub_cancel_left, Nat.add_sub_cancel_left,
      show 0x10000 + (character.toNat - 0x10000) / 0x400 * 0x400 +
        (character.toNat - 0x10000) % 0x400 = character.toNat by omega, Char.ofNat_toNat]

theorem fromUnits?_flatMap_toUnits
    (text : List Char) :
    fromUnits? (text.flatMap toUnits) = some text := by
  induction text with
  | nil => rfl
  | cons character rest inductive_hypothesis =>
      rw [List.flatMap_cons, fromUnits?_toUnits_append, inductive_hypothesis]
      rfl

/-! ## Whole texts -/

theorem decodeUnits?_encode
    (text : List Char) :
    decodeUnits? (encode text) = some text := by
  have bound : ∀ unit ∈ text.flatMap toUnits, unit < 0x10000 := by
    intro unit member
    rcases List.mem_flatMap.mp member with ⟨character, _, inside⟩
    exact toUnits_lt inside
  rw [decodeUnits?, encode, units?_flatMap_encodeUnit bound]
  exact fromUnits?_flatMap_toUnits text

/-- Unit by unit, the UTF-8 form of a character is that character or not readable. -/
theorem units?_utf8EncodeChar_append
    (character : Char) (rest : List UInt8) :
    units? (String.utf8EncodeChar character ++ rest) =
      if character.toNat < 0x10000 then (units? rest).map (character.toNat :: ·) else none := by
  have spells := Utf8.spells_utf8EncodeChar character
  generalize String.utf8EncodeChar character = chunk at spells
  cases spells with
  | one bound isFirst =>
      rw [if_pos (by omega)]
      exact units?_one bound isFirst rest
  | two lower bound isFirst isSecond =>
      rw [if_pos (by omega)]
      exact units?_two bound isFirst isSecond rest
  | three lower bound whole isFirst isSecond isThird =>
      rw [if_pos bound]
      exact units?_three bound isFirst isSecond isThird rest
  | four lower bound isFirst isSecond isThird isFourth =>
      rw [if_neg (by omega), List.cons_append, units?.eq_def]
      simp only [Bool.and_eq_true, decide_eq_true_eq]
      rw [if_neg (by omega), if_neg (by omega), if_neg (by omega)]

theorem decodeUnits?_utf8EncodeChar_append
    (character : Char) (rest : List UInt8) :
    decodeUnits? (String.utf8EncodeChar character ++ rest) =
      if character.toNat < 0x10000 then (decodeUnits? rest).map (character :: ·) else none := by
  rw [decodeUnits?, units?_utf8EncodeChar_append]
  split
  · rename_i single
    rw [decodeUnits?, Option.bind_map, Option.map_bind]
    exact congrArg _ (funext fun units => fromUnits?_cons single units)
  · rfl

/-- UTF-8 can be read unit by unit where no character takes two units, as what it is. -/
theorem decodeUnits?_utf8
    (text : List Char) :
    decodeUnits? (Utf8.encode text) =
      if text.all (fun character => character.toNat < 0x10000) then some text else none := by
  induction text with
  | nil => rfl
  | cons character rest inductive_hypothesis =>
      have step := decodeUnits?_utf8EncodeChar_append character (Utf8.encode rest)
      rw [inductive_hypothesis] at step
      refine step.trans ?_
      rw [List.all_cons]
      by_cases single : character.toNat < 0x10000
      · cases rest.all fun other => other.toNat < 0x10000 <;> simp [single]
      · simp [single]

/-- Where UTF-8 can also be read unit by unit, the reading is the same. -/
theorem eq_of_decodeUnits?_encode
    {text other : List Char} (decoded : decodeUnits? (Utf8.encode text) = some other) :
    other = text := by
  rw [decodeUnits?_utf8] at decoded
  split at decoded
  · exact (Option.some.inj decoded).symm
  · cases decoded

theorem decode?_encode
    (text : List Char) :
    decode? (encode text) = some text := by
  unfold decode?
  cases decoded : Utf8.decode? (encode text) with
  | none => exact decodeUnits?_encode text
  | some other =>
      have plain := Utf8.decode?_eq_some_iff.mp decoded
      have units := decodeUnits?_encode text
      rw [plain] at units
      rw [eq_of_decodeUnits?_encode units]

theorem decode?_utf8
    (text : List Char) :
    decode? (Utf8.encode text) = some text := by
  rw [decode?, Utf8.decode?_encode]

end ModifiedUtf8

end TypeReach.Text
