/-!
# Bijective numeration

Over a base of at least one digit, every natural number is written by exactly one string of digits,
the least significant first, and every string writes a number.  Zero is the empty string: a digit
`d` at place `k` counts for `(d + 1) * base ^ k`.

* `digits` - the string of a number; `value` - the number of a string;
* `value_digits`, `digits_value` - the two are inverse to each other;
* `digits_eq_nil_iff` - only zero has the empty string.
-/

set_option autoImplicit false

namespace FreshNames.Numeral

/-- The digits of a number, the least significant first. -/
def digits (base : Nat) (pos : 0 < base) : Nat → List (Fin base)
  | 0 => []
  | n + 1 => ⟨n % base, Nat.mod_lt n pos⟩ :: digits base pos (n / base)
termination_by n => n
decreasing_by exact Nat.lt_succ_of_le (Nat.div_le_self n base)

/-- The number that a string of digits writes. -/
def value (base : Nat) : List (Fin base) → Nat
  | [] => 0
  | d :: rest => d.val + 1 + base * value base rest

variable {base : Nat} (pos : 0 < base)

theorem digits_zero : digits base pos 0 = [] := by simp [digits]

theorem digits_succ (n : Nat) :
    digits base pos (n + 1) = ⟨n % base, Nat.mod_lt n pos⟩ :: digits base pos (n / base) := by
  rw [digits]

theorem value_digits (n : Nat) : value base (digits base pos n) = n := by
  induction n using Nat.strongRecOn with
  | _ n ih =>
    cases n with
    | zero => simp [digits_zero, value]
    | succ n =>
      rw [digits_succ, value, ih _ (Nat.lt_succ_of_le (Nat.div_le_self n base))]
      have := Nat.mod_add_div n base
      simp only
      omega

theorem digits_value (ds : List (Fin base)) : digits base pos (value base ds) = ds := by
  induction ds with
  | nil => simp [value, digits_zero]
  | cons d rest ih =>
    have h : value base (d :: rest) = (d.val + base * value base rest) + 1 := by
      simp only [value]; omega
    rw [h, digits_succ]
    have hd := d.isLt
    congr 1
    · apply Fin.ext
      simp [Nat.add_mul_mod_self_left, Nat.mod_eq_of_lt hd]
    · rw [Nat.add_mul_div_left _ _ pos, Nat.div_eq_of_lt hd, Nat.zero_add, ih]

theorem digits_eq_nil_iff {n : Nat} : digits base pos n = [] ↔ n = 0 := by
  cases n with
  | zero => simp [digits_zero]
  | succ n => simp [digits_succ]

end FreshNames.Numeral
