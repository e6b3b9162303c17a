import Mathlib.Data.Nat.ModEq
import Mathlib.Tactic.Ring

/-!
# Numbers in continued groups

A number written in base `b`, least significant digit first, with `b` added to every digit but the last: the mark says that
another digit follows. `encode` writes the shortest such form and `value` reads any. With `b = 128` and one byte a digit this is
the variable-length integer of many wire formats.
-/

namespace Groups

/-- The shortest continued form of `n` in base `b`. -/
def encode (b n : Nat) : List Nat :=
  if _h : n < b ∨ b < 2 then [n] else (n % b + b) :: encode b (n / b)
termination_by n
decreasing_by exact Nat.div_lt_self (by omega) (by omega)

/-- The number a continued form stands for; the marks are dropped. -/
def value (b : Nat) (ds : List Nat) : Nat := ds.foldr (fun d v => d % b + b * v) 0

variable {b : Nat}

@[simp] theorem value_nil : value b [] = 0 := rfl

@[simp] theorem value_cons (d : Nat) (ds : List Nat) : value b (d :: ds) = d % b + b * value b ds := rfl

/-- A continued form of `k` digits stands for a number below `b ^ k`. -/
theorem value_lt (hb : 0 < b) (ds : List Nat) : value b ds < b ^ ds.length := by
  induction ds with
  | nil => simp
  | cons d ds ih =>
    have h1 : d % b < b := Nat.mod_lt _ hb
    have h2 : b * (value b ds + 1) ≤ b * b ^ ds.length := Nat.mul_le_mul_left b ih
    rw [value_cons, List.length_cons, Nat.pow_succ, Nat.mul_comm (b ^ _)]
    rw [Nat.mul_add, Nat.mul_one] at h2
    omega

theorem encode_lt {n : Nat} (h : n < b) : encode b n = [n] := by
  rw [encode, dif_pos (Or.inl h)]

theorem encode_ge {n : Nat} (hb : 2 ≤ b) (h : b ≤ n) : encode b n = (n % b + b) :: encode b (n / b) := by
  rw [encode, dif_neg (by omega)]

/-- Reading what was written gives the number back. -/
theorem value_encode (hb : 2 ≤ b) (n : Nat) : value b (encode b n) = n := by
  induction n using Nat.strongRecOn with
  | ind n ih =>
    by_cases h : n < b
    · rw [encode_lt h, value_cons, value_nil, Nat.mul_zero, Nat.add_zero, Nat.mod_eq_of_lt h]
    · have hd : n / b < n := Nat.div_lt_self (by omega) (by omega)
      rw [encode_ge hb (by omega), value_cons, ih _ hd, Nat.add_mod_right, Nat.mod_mod, Nat.mod_add_div]

/-- Every digit but the last carries the mark, the last does not. -/
theorem encode_shape (hb : 2 ≤ b) (n : Nat) :
    ∃ ds d, encode b n = ds ++ [d] ∧ (∀ e ∈ ds, b ≤ e ∧ e < 2 * b) ∧ d < b := by
  induction n using Nat.strongRecOn with
  | ind n ih =>
    by_cases h : n < b
    · exact ⟨[], n, by rw [encode_lt h]; rfl, by simp, h⟩
    · have hd : n / b < n := Nat.div_lt_self (by omega) (by omega)
      have hm : n % b < b := Nat.mod_lt _ (by omega)
      obtain ⟨ds, d, e, hds, hlt⟩ := ih _ hd
      refine ⟨(n % b + b) :: ds, d, by rw [encode_ge hb (by omega), e]; rfl, ?_, hlt⟩
      intro x hx
      rcases List.mem_cons.mp hx with rfl | hx
      · omega
      · exact hds x hx

theorem encode_ne_nil (b n : Nat) : encode b n ≠ [] := by
  rw [encode]
  split <;> simp

/-- A number below `b ^ k` takes at most `k` digits. -/
theorem length_encode_le (hb : 2 ≤ b) {k n : Nat} (hk : 0 < k) (h : n < b ^ k) : (encode b n).length ≤ k := by
  induction k generalizing n with
  | zero => omega
  | succ k ih =>
    by_cases hn : n < b
    · rw [encode_lt hn]; simp
    · have hd : n / b < b ^ k := by
        rw [Nat.div_lt_iff_lt_mul (by omega), ← Nat.pow_succ]
        exact h
      have hk' : 0 < k := by
        rcases Nat.eq_zero_or_pos k with rfl | hk'
        · rw [Nat.zero_add, Nat.pow_one] at h; omega
        · exact hk'
      rw [encode_ge hb (by omega), List.length_cons]
      have := ih hk' hd
      omega

/-- A number from `b ^ k` on takes more than `k` digits. -/
theorem lt_length_encode (hb : 2 ≤ b) {k n : Nat} (h : b ^ k ≤ n) : k < (encode b n).length := by
  induction k generalizing n with
  | zero => exact List.length_pos_iff.mpr (encode_ne_nil b n)
  | succ k ih =>
    have hpos : b ≤ b ^ (k + 1) := by
      rw [Nat.pow_succ]
      exact Nat.le_mul_of_pos_left b (Nat.pow_pos (by omega))
    have hd : b ^ k ≤ n / b := by
      rw [Nat.le_div_iff_mul_le (by omega), ← Nat.pow_succ]
      exact h
    rw [encode_ge hb (by omega), List.length_cons]
    have := ih hd
    omega

/-- Within a given number of digits, how many the shortest form takes is decided by the size of the number. -/
theorem length_encode_le_iff (hb : 2 ≤ b) {k n : Nat} (hk : 0 < k) : (encode b n).length ≤ k ↔ n < b ^ k := by
  constructor
  · intro h
    by_contra hn
    have := lt_length_encode hb (Nat.le_of_not_lt hn)
    omega
  · exact length_encode_le hb hk

end Groups
