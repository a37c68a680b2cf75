/-
Numbers, written and read.

Main statement:
- `readWord?_eq_some_iff`: what is read as a word is a number of 64 bits in decimal digits, with a plus sign before them or not.
-/
import XmlStore.Proofs.Outcomes
import XmlStore.Text.Digits

namespace XmlStore.Text

theorem digitValue_ten (c : Char) : digitValue 10 c = if c.isDigit then some (c.toNat - '0'.toNat) else none := by
  unfold digitValue
  by_cases digit : c.isDigit = true
  · have small : c.toNat - 48 < 10 := by
      simp only [Char.isDigit, Bool.and_eq_true, decide_eq_true_eq, ge_iff_le, UInt32.le_iff_toNat_le] at digit
      change 48 ≤ c.toNat ∧ c.toNat ≤ 57 at digit
      omega
    simpa [digit] using small
  · -- the letters stand for 10 and more
    simp only [digit, Bool.false_eq_true, if_false]
    split
    · simp
    · split
      · simp
      · rfl

/-- more digits never make less of a number -/
theorem le_ofDigitChars (s : List Char) (sum : Nat) : sum ≤ Nat.ofDigitChars 10 s sum := by
  induction s generalizing sum with
  | nil => exact Nat.le_refl sum
  | cons c rest ih =>
    have more : sum ≤ 10 * sum + (c.toNat - '0'.toNat) := by omega
    exact Nat.le_trans more (ih _)

/-- digits are read as what they stand for, if that is within the bound -/
theorem foldlM_digitStep_eq_ok {bound : Nat} {s : List Char} {sum n : Nat} (hs : sum ≤ bound) :
    s.foldlM (digitStep 10 bound) sum = .ok n ↔
      (∀ c ∈ s, c.isDigit = true) ∧ Nat.ofDigitChars 10 s sum = n ∧ n ≤ bound := by
  induction s generalizing sum with
  | nil =>
    simp only [List.foldlM_nil, pure_ok, Except.ok.injEq, Nat.ofDigitChars_nil, List.not_mem_nil, false_implies, implies_true,
      true_and]
    exact ⟨fun h => ⟨h, h ▸ hs⟩, And.left⟩
  | cons c rest ih =>
    have next : sum * 10 + (c.toNat - '0'.toNat) = 10 * sum + (c.toNat - '0'.toNat) := by rw [Nat.mul_comm]
    rw [foldlM_cons_eq_ok, List.forall_mem_cons, Nat.ofDigitChars_cons, ← next]
    constructor
    · rintro ⟨m, hm, hr⟩
      unfold digitStep at hm
      rw [digitValue_ten] at hm
      by_cases digit : c.isDigit = true
      · simp only [digit, if_true] at hm
        split at hm
        · rename_i fits
          obtain rfl := Except.ok.inj hm
          obtain ⟨all, value, within⟩ := (ih fits).1 hr
          exact ⟨⟨digit, all⟩, value, within⟩
        · cases hm
      · simp only [digit, Bool.false_eq_true, if_false] at hm
        cases hm
    · rintro ⟨⟨digit, all⟩, value, within⟩
      -- what has been read so far is never more than the whole
      have fits := Nat.le_trans (value ▸ le_ofDigitChars rest _) within
      refine ⟨_, ?_, (ih fits).2 ⟨all, value, within⟩⟩
      simp only [digitStep, digitValue_ten, digit, if_true, if_pos fits]

theorem readDigits_eq_ok {bound n : Nat} {s : List Char} :
    readDigits 10 bound s = .ok n ↔ s ≠ [] ∧ (∀ c ∈ s, c.isDigit = true) ∧ Nat.ofDigitChars 10 s 0 = n ∧ n ≤ bound := by
  rw [readDigits, ← foldlM_digitStep_eq_ok (Nat.zero_le bound)]
  cases s <;> simp

/-- **What is read as a word**: decimal digits, with a plus sign before them or not. -/
theorem readWord?_eq_some_iff {s : List Char} {n : Nat} :
    readWord? s = some n ↔ ∃ sign digits, s = sign ++ digits ∧ (sign = [] ∨ sign = ['+']) ∧ digits ≠ [] ∧
      (∀ c ∈ digits, c.isDigit = true) ∧ Nat.ofDigitChars 10 digits 0 = n ∧ n ≤ maxWord := by
  unfold readWord?
  dsimp only
  rw [toOption_eq_some, readDigits_eq_ok]
  constructor
  · intro h
    split at h
    · rename_i rest
      exact ⟨['+'], rest, rfl, Or.inr rfl, h⟩
    · exact ⟨[], s, rfl, Or.inl rfl, h⟩
  · rintro ⟨sign, digits, rfl, rfl | rfl, h⟩
    · rw [List.nil_append]
      split
      · exact absurd (h.2.1 '+' List.mem_cons_self) (by decide)
      · exact h
    · exact h

end XmlStore.Text
