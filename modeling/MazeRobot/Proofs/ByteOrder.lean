import Mathlib.Data.Char
import Mathlib.Data.List.Lex
import Mathlib.Tactic.SplitIfs
import MazeRobot.Proofs.Scanning

/-! # The order of bytes

Texts are sorted by their characters. Sorting them by their bytes would give the same order: of two
different characters the one with the greater code has the greater bytes, and they differ before
either is at its end.

* `utf8EncodeChar_append_lt`: the bytes of two different characters, whatever follows.
* `utf8_le_utf8_iff`: texts are in the order of their bytes. -/

namespace MazeRobot.Text

/-- Two sequences of bytes compare by their first bytes, and by the others where these are the
same. -/
theorem ofNat_cons_lt_iff {n m : Nat} (byte : n < 256) (byte' : m < 256)
    {bytes bytes' : List UInt8} :
    UInt8.ofNat n :: bytes < UInt8.ofNat m :: bytes' ↔ n < m ∨ n = m ∧ bytes < bytes' := by
  rw [List.cons_lt_cons_iff, UInt8.lt_iff_toNat_lt, ← UInt8.toNat_inj,
    UInt8.toNat_ofNat_of_lt' byte, UInt8.toNat_ofNat_of_lt' byte']

/-- Numbers compare by what stands above their last digit, and by that digit. -/
theorem lt_digit {n m : Nat} (less : n < m) :
    n / 64 < m / 64 ∨ n / 64 = m / 64 ∧ n % 64 < m % 64 := by
  omega

/-- Numbers compare by their digits, the highest one first. -/
theorem lt_digits {n m : Nat} (less : n < m) (bound : m < 2097152) :
    n / 262144 % 8 < m / 262144 % 8 ∨ n / 262144 % 8 = m / 262144 % 8 ∧
      (n / 4096 % 64 < m / 4096 % 64 ∨ n / 4096 % 64 = m / 4096 % 64 ∧
        (n / 64 % 64 < m / 64 % 64 ∨ n / 64 % 64 = m / 64 % 64 ∧ n % 64 < m % 64)) := by
  have second (k : Nat) : k / 64 / 64 = k / 4096 := Nat.div_div_eq_div_mul k 64 64
  have third (k : Nat) : k / 4096 / 64 = k / 262144 := Nat.div_div_eq_div_mul k 4096 64
  have highest {k : Nat} (small : k < 2097152) : k / 262144 % 8 = k / 262144 := by omega
  rw [highest bound, highest (Nat.lt_trans less bound)]
  rcases lt_digit less with above | ⟨same, last⟩
  · have upper := lt_digit above
    rw [second, second] at upper
    rcases upper with above | ⟨same, last⟩
    · have top := lt_digit above
      rw [third, third] at top
      rcases top with above | ⟨same, last⟩
      · exact .inl above
      · exact .inr ⟨same, .inl last⟩
    · rw [← third, ← third, same]
      exact .inr ⟨rfl, .inr ⟨rfl, .inl last⟩⟩
  · rw [← third, ← third, ← second, ← second, same]
    exact .inr ⟨rfl, .inr ⟨rfl, .inr ⟨rfl, last⟩⟩⟩

/-- **Of two characters, the greater one has greater bytes** in `String.utf8EncodeChar`, and what
follows does not matter. -/
theorem utf8EncodeChar_append_lt {c d : Char} (less : c < d) (after after' : List UInt8) :
    String.utf8EncodeChar c ++ after < String.utf8EncodeChar d ++ after' := by
  have codes : c.val.toNat < d.val.toNat := less
  have bound : d.val.toNat < 1114112 := by
    rcases d.valid with low | high <;> omega
  dsimp only [String.utf8EncodeChar]
  generalize c.val.toNat = n at codes
  generalize d.val.toNat = m at codes bound
  -- A greater code takes no fewer bytes; codes with as many bytes differ in one of their digits.
  by_cases four : 65536 ≤ n
  · have digits := lt_digits codes (by omega)
    rw [if_neg (by omega), if_neg (by omega), if_neg (by omega), if_neg (by omega),
      if_neg (by omega), if_neg (by omega)]
    simp (disch := omega) only [List.cons_append, List.nil_append, ofNat_cons_lt_iff,
      Nat.add_lt_add_iff_right, Nat.add_right_cancel_iff]
    grind
  · split_ifs <;>
      simp (disch := omega) only [List.cons_append, List.nil_append, ofNat_cons_lt_iff] <;>
      omega

/-- Sequences of characters are in the order of their bytes in `String.utf8EncodeChar`. -/
theorem flatMap_utf8EncodeChar_lt {s t : List Char} (less : s < t) :
    s.flatMap String.utf8EncodeChar < t.flatMap String.utf8EncodeChar := by
  induction less with
  | @nil d t =>
    obtain ⟨first, rest, bytes⟩ := List.exists_cons_of_ne_nil (String.utf8EncodeChar_ne_nil (c := d))
    rw [List.flatMap_nil, List.flatMap_cons, bytes]
    exact List.nil_lt_cons first _
  | @rel c s d t first => exact utf8EncodeChar_append_lt first _ _
  | @cons c s t _ ih => exact List.append_left_lt ih

/-- **Texts are in the order of their `utf8` bytes.** -/
theorem utf8_le_utf8_iff {s t : String} : utf8 s ≤ utf8 t ↔ s ≤ t := by
  have bytes (s : String) : utf8 s = s.toList.flatMap String.utf8EncodeChar := by
    rw [← utf8_ofList, String.ofList_toList]
  rw [bytes, bytes]
  constructor
  · intro ordered less
    exact ordered (flatMap_utf8EncodeChar_lt less)
  · intro ordered
    rcases lt_trichotomy s.toList t.toList with less | same | greater
    · exact List.le_of_lt (flatMap_utf8EncodeChar_lt less)
    · exact same ▸ List.le_refl _
    · exact absurd greater ordered

end MazeRobot.Text
