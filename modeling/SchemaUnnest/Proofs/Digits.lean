import Mathlib.Data.List.Induction
import Mathlib.Tactic.Ring
import SchemaUnnest.Text

namespace SchemaUnnest

namespace CodePoint

theorem isDigit_iff {c : CodePoint} : c.isDigit ↔ 0x30 ≤ c.value ∧ c.value ≤ 0x39 := by
  unfold isDigit digit?
  split
  · rename_i h
    simpa using h
  · rename_i h
    simpa using h

end CodePoint

namespace Text

open CodePoint

theorem digitsOnto_append (places n : Nat) (tail : Text) :
    digitsOnto places n tail = digitsOnto places n [] ++ tail := by
  induction places generalizing n tail with
  | zero => rfl
  | succ places ih =>
    rw [digitsOnto, digitsOnto]
    split
    · rfl
    · rw [ih (n / 10) (_ :: tail), ih (n / 10) [_]]
      simp

/-- As long as there are places enough, it does not matter how many there are. -/
theorem digitsOnto_of_lt {places n : Nat} (h : n < places) : digitsOnto places n [] = ofNat n := by
  induction n using Nat.strong_induction_on generalizing places with
  | _ n ih =>
    obtain ⟨places, rfl⟩ := Nat.exists_eq_add_of_lt h
    rw [ofNat, digitsOnto, digitsOnto]
    split
    · rfl
    · rename_i more
      have less : n / 10 < n := by omega
      have enough : n / 10 < n + places := by omega
      rw [digitsOnto_append, digitsOnto_append n, ih (n / 10) less enough, ih (n / 10) less less]

theorem ofNat_of_lt {n : Nat} (h : n < 10) : ofNat n = [ofDigit n] := by
  rw [ofNat, digitsOnto, if_pos h, Nat.mod_eq_of_lt h]

theorem ofNat_of_ge {n : Nat} (h : 10 ≤ n) : ofNat n = ofNat (n / 10) ++ [ofDigit (n % 10)] := by
  have less : n / 10 < n := by omega
  rw [ofNat, digitsOnto, if_neg (by omega), digitsOnto_append, digitsOnto_of_lt less]

/-- Digits are taken off a number from behind. -/
theorem ofNat_induction {motive : Nat → Prop} (one : ∀ n, n < 10 → motive n)
    (more : ∀ n, 10 ≤ n → motive (n / 10) → motive n) (n : Nat) : motive n := by
  induction n using Nat.strong_induction_on with
  | _ n ih =>
    by_cases small : n < 10
    · exact one n small
    · exact more n (by omega) (ih (n / 10) (by omega))

theorem ofNat_ne_nil (n : Nat) : ofNat n ≠ [] := by
  by_cases small : n < 10
  · simp [ofNat_of_lt small]
  · simp [ofNat_of_ge (Nat.not_lt.1 small)]

theorem toNat_append_one (digits : Text) (c : CodePoint) :
    toNat (digits ++ [c]) = 10 * toNat digits + (c.value - 0x30) := by
  rw [toNat, List.foldl_append]
  rfl

theorem toNat_lt {digits : Text} (each : ∀ c ∈ digits, c.isDigit) : toNat digits < 10 ^ digits.length := by
  induction digits using List.reverseRecOn with
  | nil => simp [toNat]
  | append_singleton digits c ih =>
    have front := ih fun d member => each d (List.mem_append_left _ member)
    have last := isDigit_iff.1 (each c (by simp))
    rw [toNat_append_one, List.length_append, List.length_singleton, Nat.pow_succ]
    omega

theorem pow_le_ofNat {n : Nat} (h : n ≠ 0) : 10 ^ ((ofNat n).length - 1) ≤ n := by
  induction n using ofNat_induction with
  | one n small =>
    simp [ofNat_of_lt small]
    omega
  | more n large ih =>
    have front := ih (by omega)
    have some := List.length_pos_iff.2 (ofNat_ne_nil (n / 10))
    have shift : (ofNat n).length - 1 = (ofNat (n / 10)).length - 1 + 1 := by
      rw [ofNat_of_ge large, List.length_append, List.length_singleton]
      omega
    rw [shift, Nat.pow_succ]
    omega

theorem length_ofNat_le {n k : Nat} (small : n < 10 ^ k) (some : 0 < k) : (ofNat n).length ≤ k := by
  by_cases zero : n = 0
  · subst zero
    exact some
  · by_contra long
    have wide := pow_le_ofNat zero
    have more : 10 ^ k ≤ 10 ^ ((ofNat n).length - 1) := Nat.pow_le_pow_right (by decide) (by omega)
    omega

theorem length_ofNat_toNat_le {digits : Text} (each : ∀ c ∈ digits, c.isDigit) (some : digits ≠ []) :
    (ofNat (toNat digits)).length ≤ digits.length :=
  length_ofNat_le (toNat_lt each) (List.length_pos_iff.2 some)

end Text
end SchemaUnnest
