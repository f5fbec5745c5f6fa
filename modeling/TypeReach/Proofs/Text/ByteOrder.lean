import TypeReach.Proofs.Text.Coding
import TypeReach.Text.Split

/-!
# The order of texts

Texts are compared by the code points of their characters.  UTF-8 keeps that
order: of two characters the smaller one has the smaller bytes, and no character
has bytes that begin those of another one.  So texts are in the same order as
their bytes.

Putting a character in the place of the next higher one also keeps the order, on
texts in which it does not occur itself.
-/

namespace TypeReach.Text

/-! ## Bytes in order -/

namespace Utf8

theorem cons_lt_cons_of_toNat
    {first other : UInt8} {rest otherRest : List UInt8}
    (atMost : first.toNat ≤ other.toNat)
    (following : first.toNat = other.toNat → rest < otherRest) :
    first :: rest < other :: otherRest := by
  rw [List.cons_lt_cons_iff, UInt8.lt_iff_toNat_lt, ← UInt8.toNat_inj]
  rcases Nat.lt_or_eq_of_le atMost with less | same
  · exact Or.inl less
  · exact Or.inr ⟨same, following same⟩

theorem Spells.nil_lt_append
    {chunk : List UInt8} {code : Nat}
    (spells : Spells chunk code)
    (rest : List UInt8) :
    [] < chunk ++ rest := by
  cases spells <;> exact List.nil_lt_cons _ _

/--
The smaller of two code points has the smaller bytes, whatever follows them.
Forms of different lengths differ in their first bytes; within one form the
bytes are the digits of the code point.
-/
theorem Spells.append_lt_append
    {chunk other : List UInt8} {code otherCode : Nat}
    (spells : Spells chunk code)
    (otherSpells : Spells other otherCode)
    (smaller : code < otherCode)
    (rest otherRest : List UInt8) :
    chunk ++ rest < other ++ otherRest := by
  cases spells with
  | one =>
      cases otherSpells <;>
        exact cons_lt_cons_of_toNat (by omega) fun same => by omega
  | two =>
      cases otherSpells with
      | one => omega
      | two =>
          refine cons_lt_cons_of_toNat (by omega) fun sameFirst => ?_
          exact cons_lt_cons_of_toNat (by omega) fun sameSecond => by omega
      | three => exact cons_lt_cons_of_toNat (by omega) fun same => by omega
      | four => exact cons_lt_cons_of_toNat (by omega) fun same => by omega
  | three =>
      cases otherSpells with
      | one => omega
      | two => omega
      | three =>
          refine cons_lt_cons_of_toNat (by omega) fun sameFirst => ?_
          refine cons_lt_cons_of_toNat (by omega) fun sameSecond => ?_
          exact cons_lt_cons_of_toNat (by omega) fun sameThird => by omega
      | four => exact cons_lt_cons_of_toNat (by omega) fun same => by omega
  | four =>
      cases otherSpells with
      | one => omega
      | two => omega
      | three => omega
      | four =>
          refine cons_lt_cons_of_toNat (by omega) fun sameFirst => ?_
          refine cons_lt_cons_of_toNat (by omega) fun sameSecond => ?_
          refine cons_lt_cons_of_toNat (by omega) fun sameThird => ?_
          exact cons_lt_cons_of_toNat (by omega) fun sameFourth => by omega

theorem encode_lt_encode
    {left right : List Char}
    (before : left < right) :
    encode left < encode right := by
  induction left generalizing right with
  | nil =>
      cases right with
      | nil => exact absurd before (List.lt_irrefl _)
      | cons first rest => exact (spells_utf8EncodeChar first).nil_lt_append (encode rest)
  | cons first rest inductive_hypothesis =>
      cases right with
      | nil => exact absurd before (List.not_lt_nil _)
      | cons other otherRest =>
          rcases List.cons_lt_cons_iff.mp before with smaller | ⟨rfl, following⟩
          · exact (spells_utf8EncodeChar first).append_lt_append
              (spells_utf8EncodeChar other) smaller (encode rest) (encode otherRest)
          · exact List.append_left_lt (inductive_hypothesis following)

/-- Texts are in the same order as their bytes. -/
theorem encode_lt_encode_iff
    {left right : List Char} :
    encode left < encode right ↔ left < right := by
  refine ⟨fun bytes => ?_, encode_lt_encode⟩
  by_cases before : left < right
  · exact before
  · by_cases after : right < left
    · exact absurd (encode_lt_encode after) (List.lt_asymm bytes)
    · rw [List.le_antisymm after before] at bytes
      exact absurd bytes (List.lt_irrefl _)

end Utf8

/-! ## Characters that are replaced -/

theorem replaced_lt_replaced
    {old new : Char}
    (adjacent : new.toNat + 1 = old.toNat)
    {left right : Char}
    (leftOther : new ≠ left)
    (rightOther : new ≠ right)
    (smaller : left < right) :
    (if left = old then new else left) < (if right = old then new else right) := by
  have leftCode : new.toNat ≠ left.toNat := fun same => leftOther (Char.toNat_inj.mp same)
  have rightCode : new.toNat ≠ right.toNat := fun same => rightOther (Char.toNat_inj.mp same)
  change left.toNat < right.toNat at smaller
  split <;> split <;> rename_i isLeft isRight
  · rw [isLeft, isRight] at smaller
    exact absurd smaller (Nat.lt_irrefl _)
  · subst isLeft
    change new.toNat < right.toNat
    omega
  · subst isRight
    change left.toNat < new.toNat
    omega
  · exact smaller

/-- A character in the place of the next higher one keeps the order of texts without it. -/
theorem replaceChar_lt_replaceChar
    {old new : Char}
    (adjacent : new.toNat + 1 = old.toNat)
    {left right : List Char}
    (inLeft : new ∉ left)
    (inRight : new ∉ right)
    (before : left < right) :
    replaceChar old new left < replaceChar old new right := by
  induction left generalizing right with
  | nil =>
      cases right with
      | nil => exact absurd before (List.lt_irrefl _)
      | cons first rest => exact List.nil_lt_cons _ _
  | cons first rest inductive_hypothesis =>
      cases right with
      | nil => exact absurd before (List.not_lt_nil _)
      | cons other otherRest =>
          rw [List.mem_cons, not_or] at inLeft inRight
          apply List.cons_lt_cons_iff.mpr
          rcases List.cons_lt_cons_iff.mp before with smaller | ⟨rfl, following⟩
          · exact Or.inl (replaced_lt_replaced adjacent inLeft.1 inRight.1 smaller)
          · exact Or.inr ⟨rfl, inductive_hypothesis inLeft.2 inRight.2 following⟩

end TypeReach.Text
