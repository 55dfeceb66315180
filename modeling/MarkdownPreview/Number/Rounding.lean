/-!
# Rounding a quotient

`roundDiv n d` is the whole number nearest to `n / d`; of two equally near ones it is the even one.

* `roundDiv_near`: it is within half a unit of the quotient.
* `roundDiv_even_of_tie`: a tie goes to the even side.
* `roundDiv_mul`: a whole quotient is kept.
-/
namespace MarkdownPreview.Number

/-- The whole number nearest to `n / d`, a half going to the even neighbour. -/
def roundDiv (n d : Nat) : Nat :=
  let q := n / d
  let r := n % d
  if 2 * r < d ∨ (2 * r = d ∧ q % 2 = 0) then q else q + 1

/-- Twice the distance to the quotient is at most one, in units of `1 / d`. -/
theorem roundDiv_near (n d : Nat) (hd : 0 < d) :
    2 * n ≤ 2 * d * roundDiv n d + d ∧ 2 * d * roundDiv n d ≤ 2 * n + d := by
  have h := Nat.div_add_mod n d
  have hr := Nat.mod_lt n hd
  unfold roundDiv
  extract_lets q r
  change d * q + r = n at h
  change r < d at hr
  have e : 2 * d * (q + 1) = 2 * (d * q) + 2 * d := by rw [Nat.mul_add, Nat.mul_assoc]; omega
  have e' : 2 * d * q = 2 * (d * q) := Nat.mul_assoc ..
  split <;> omega

theorem roundDiv_even_of_tie (n d : Nat) (h : 2 * (n % d) = d) : roundDiv n d % 2 = 0 := by
  unfold roundDiv
  extract_lets q r
  split
  · omega
  · rename_i hc
    have : 2 * r = d := h
    omega

theorem roundDiv_mul (k d : Nat) (hd : 0 < d) : roundDiv (k * d) d = k := by
  simp [roundDiv, Nat.mul_div_cancel _ hd, hd]

end MarkdownPreview.Number
