/-!
# Rounding a quotient to an integer

`roundDiv` is the integer nearest to a quotient of natural numbers. `roundDiv_le` and `le_roundDiv`
bound it by half a unit on either side, and `roundDiv_tie` says which neighbour a tie takes.
-/

namespace Turnery.Number

/-- Where a value halfway between two neighbours goes. -/
inductive Tie where
  /-- To the neighbour that is even. -/
  | toEven
  /-- To the neighbour of larger magnitude. -/
  | away
  deriving DecidableEq, Repr

/-- The tie is resolved to the larger neighbour of `lower`. -/
def Tie.goesUp (tie : Tie) (lower : Nat) : Bool :=
  match tie with
  | .toEven => lower % 2 == 1
  | .away => true

/-- The integer nearest to `num / den`. -/
def roundDiv (tie : Tie) (num den : Nat) : Nat :=
  let lower := num / den
  let rest := 2 * (num % den)
  if den < rest || (rest == den && tie.goesUp lower) then lower + 1 else lower

theorem roundDiv_le (tie : Tie) (num den : Nat) (h : 0 < den) :
    2 * (roundDiv tie num den * den) ≤ 2 * num + den := by
  have hd := Nat.div_add_mod num den
  have hc := Nat.mul_comm den (num / den)
  unfold roundDiv
  simp only
  split <;> rename_i hr
  · simp only [Bool.or_eq_true, decide_eq_true_eq, Bool.and_eq_true, beq_iff_eq] at hr
    rw [Nat.add_mul, Nat.one_mul]
    omega
  · omega

theorem le_roundDiv (tie : Tie) (num den : Nat) (h : 0 < den) :
    2 * num ≤ 2 * (roundDiv tie num den * den) + den := by
  have hd := Nat.div_add_mod num den
  have hc := Nat.mul_comm den (num / den)
  have hm := Nat.mod_lt num h
  unfold roundDiv
  simp only
  split <;> rename_i hr
  · rw [Nat.add_mul, Nat.one_mul]
    omega
  · simp only [Bool.or_eq_true, decide_eq_true_eq, Bool.and_eq_true, beq_iff_eq, not_or] at hr
    omega

/-- Halfway between `lower` and its successor, the rule decides. -/
theorem roundDiv_tie (tie : Tie) (lower half : Nat) (h : 0 < half) :
    roundDiv tie (lower * (2 * half) + half) (2 * half) =
      if tie.goesUp lower then lower + 1 else lower := by
  have hdiv : (lower * (2 * half) + half) / (2 * half) = lower := by
    rw [Nat.add_comm, Nat.add_mul_div_right _ _ (by omega), Nat.div_eq_of_lt (by omega),
      Nat.zero_add]
  have hmod : (lower * (2 * half) + half) % (2 * half) = half := by
    rw [Nat.add_comm, Nat.add_mul_mod_self_right, Nat.mod_eq_of_lt (by omega)]
  simp [roundDiv, hdiv, hmod]

theorem roundDiv_zero (tie : Tie) (den : Nat) (h : 0 < den) : roundDiv tie 0 den = 0 := by
  simp [roundDiv, Nat.ne_of_lt h]

end Turnery.Number
