import Turnery.Job.Basic
import Mathlib.Data.List.Induction
import Mathlib.Data.List.Nodup

/-!
# Where a tool number becomes suspicious

Zero is suspicious as soon as it stands in a list, any other number when it stands there for the
second time. The census goes through the numbers once and remembers two lists; `Census.Describes`
says what the two have to do with the numbers so far, and `Census.Describes.flags_iff` that the test
of the census finds exactly the places at which a number becomes suspicious. The order of the
flagged numbers is the order of these places.
-/

namespace Turnery.Job

/-- How often a number may stand in a list before it is suspicious. -/
def allowance (number : Nat) : Nat :=
  if number = 0 then 0 else 1

/-- A number that stands at a place of the list becomes suspicious there. -/
def becomesSuspicious (numbers : List Nat) (place number : Nat) : Bool :=
  (numbers.take place).count number == allowance number

theorem allowance_le_count_iff {numbers : List Nat} {n : Nat} :
    allowance n ≤ numbers.count n ↔ n = 0 ∨ n ∈ numbers := by
  unfold allowance
  split
  next h => simp [h]
  next h => simp [h, Nat.one_le_iff_ne_zero, List.count_eq_zero]

theorem allowance_lt_count_iff {numbers : List Nat} {n : Nat} :
    allowance n < numbers.count n ↔ (n = 0 ∧ 0 ∈ numbers) ∨ 2 ≤ numbers.count n := by
  unfold allowance
  split
  next h =>
    subst h
    have hmem : 0 < numbers.count 0 ↔ 0 ∈ numbers := List.count_pos_iff
    constructor
    · intro hpos
      exact .inl ⟨rfl, hmem.1 hpos⟩
    · rintro (⟨-, h0⟩ | htwice)
      · exact hmem.2 h0
      · omega
  next h => simp [h, Nat.succ_le_iff]

def census (numbers : List Nat) : Census :=
  numbers.foldl Census.add ⟨[], []⟩

theorem census_concat (numbers : List Nat) (n : Nat) :
    census (numbers ++ [n]) = (census numbers).add n := by
  simp [census]

/-- What the lists of a census hold after some numbers. -/
structure Census.Describes (census : Census) (numbers : List Nat) : Prop where
  seen : ∀ n, n ∈ census.seen ↔ n ∈ numbers
  flagged : ∀ n, n ∈ census.flagged ↔ allowance n < numbers.count n

namespace Census

variable {census : Census} {numbers : List Nat}

/-- A number is flagged where it stands once more than it may. -/
theorem Describes.flags_iff (h : census.Describes numbers) (n : Nat) :
    ((n == 0 || census.seen.contains n) && !census.flagged.contains n) = true ↔
      numbers.count n = allowance n := by
  have hseen : (n = 0 ∨ n ∈ census.seen) ↔ allowance n ≤ numbers.count n := by
    rw [h.seen, allowance_le_count_iff]
  have hflagged : n ∉ census.flagged ↔ numbers.count n ≤ allowance n := by
    rw [h.flagged, Nat.not_lt]
  simp only [Bool.and_eq_true, Bool.or_eq_true, beq_iff_eq, List.contains_iff_mem,
    Bool.not_eq_true', ← Bool.not_eq_true, hseen, hflagged]
  omega

theorem Describes.flagged_add (h : census.Describes numbers) (n : Nat) :
    (census.add n).flagged =
      if numbers.count n = allowance n then census.flagged ++ [n] else census.flagged := by
  simp only [add, h.flags_iff]

theorem Describes.add (h : census.Describes numbers) (n : Nat) :
    (census.add n).Describes (numbers ++ [n]) where
  seen m := by simp [Census.add, h.seen, or_comm]
  flagged m := by
    rw [h.flagged_add, List.count_append, List.count_singleton]
    by_cases hm : n = m
    · subst hm
      have hflagged := h.flagged n
      by_cases hcount : numbers.count n = allowance n
      · simp [hcount]
      · simp only [if_neg hcount, hflagged, beq_self_eq_true, if_true]
        omega
    · have hother : m ∈ [n] ↔ False := by simp [Ne.symm hm]
      have hbeq : (n == m) = false := by simpa using hm
      split <;> simp [h.flagged, hother, hbeq]

end Census

theorem describes_census (numbers : List Nat) : (census numbers).Describes numbers := by
  induction numbers using List.reverseRecOn with
  | nil => exact ⟨by simp [census], by simp [census]⟩
  | append_singleton numbers n ih =>
    rw [census_concat]
    exact ih.add n

theorem mem_suspiciousNumbers {numbers : List Nat} {n : Nat} :
    n ∈ suspiciousNumbers numbers ↔ allowance n < numbers.count n :=
  (describes_census numbers).flagged n

/-- The last number joins the suspicious ones where it becomes suspicious. -/
theorem suspiciousNumbers_concat (numbers : List Nat) (n : Nat) :
    suspiciousNumbers (numbers ++ [n]) =
      if numbers.count n = allowance n then suspiciousNumbers numbers ++ [n]
      else suspiciousNumbers numbers := by
  have hstep := (describes_census numbers).flagged_add n
  rw [← census_concat] at hstep
  exact hstep

theorem nodup_suspiciousNumbers (numbers : List Nat) : (suspiciousNumbers numbers).Nodup := by
  induction numbers using List.reverseRecOn with
  | nil => exact List.nodup_nil
  | append_singleton numbers n ih =>
    rw [suspiciousNumbers_concat]
    split
    next hcount =>
      have hnew : n ∉ suspiciousNumbers numbers := by
        rw [mem_suspiciousNumbers]
        omega
      refine List.nodup_append.2 ⟨ih, List.nodup_singleton n, ?_⟩
      intro m hm k hk hmk
      rw [List.mem_singleton] at hk
      rw [hmk, hk] at hm
      exact hnew hm
    next => exact ih

/-- The places of a list at which a number becomes suspicious, with the number. -/
def suspiciousPlaces (numbers : List Nat) : List (Nat × Nat) :=
  numbers.zipIdx.filter fun entry => becomesSuspicious numbers entry.2 entry.1

/-- What stands behind a place has no influence on it. -/
theorem suspiciousPlaces_concat (numbers : List Nat) (n : Nat) :
    suspiciousPlaces (numbers ++ [n]) =
      suspiciousPlaces numbers ++ if numbers.count n = allowance n then [(n, numbers.length)]
        else [] := by
  have hearlier : ∀ entry ∈ numbers.zipIdx,
      becomesSuspicious (numbers ++ [n]) entry.2 entry.1 =
          becomesSuspicious numbers entry.2 entry.1 := by
    intro entry hentry
    have hplace : entry.2 ≤ numbers.length := Nat.le_of_lt (List.snd_lt_of_mem_zipIdx hentry)
    rw [becomesSuspicious, becomesSuspicious, List.take_append_of_le_length hplace]
  have hlast : becomesSuspicious (numbers ++ [n]) numbers.length n =
      decide (numbers.count n = allowance n) := by
    rw [becomesSuspicious, List.take_left]
    rfl
  rw [suspiciousPlaces, List.zipIdx_append, List.filter_append, List.filter_congr hearlier,
    List.zipIdx_singleton, Nat.zero_add, List.filter_singleton, hlast, Bool.cond_decide]
  rfl

theorem suspiciousNumbers_eq_map (numbers : List Nat) :
    suspiciousNumbers numbers = (suspiciousPlaces numbers).map Prod.fst := by
  induction numbers using List.reverseRecOn with
  | nil => rfl
  | append_singleton numbers n ih =>
    rw [suspiciousNumbers_concat, suspiciousPlaces_concat, List.map_append, ← ih]
    split
    next => rfl
    next => rw [List.map_nil, List.append_nil]

theorem suspiciousNumbers_eq_nil_iff {numbers : List Nat} :
    suspiciousNumbers numbers = [] ↔ (∀ n ∈ numbers, n ≠ 0) ∧ numbers.Nodup := by
  have hnone : suspiciousNumbers numbers = [] ↔ ∀ n, numbers.count n ≤ allowance n := by
    simp [List.eq_nil_iff_forall_not_mem, mem_suspiciousNumbers]
  rw [hnone, List.nodup_iff_count_le_one]
  constructor
  · intro h
    constructor
    · rintro n hn rfl
      have hzero : numbers.count 0 ≤ 0 := h 0
      exact List.count_eq_zero.1 (Nat.le_zero.1 hzero) hn
    · intro n
      have hallowed : allowance n ≤ 1 := by
        unfold allowance
        split <;> omega
      exact Nat.le_trans (h n) hallowed
  · rintro ⟨hzero, hone⟩ n
    unfold allowance
    split
    next h =>
      subst h
      exact Nat.le_of_eq (List.count_eq_zero.2 fun hmem => hzero 0 hmem rfl)
    next => exact hone n

/-- The suspicious numbers are the ones that are zero or stand in the list twice, each once and in
the order of the places at which they become suspicious. There are none if the numbers are different
and not zero. -/
theorem suspiciousToolNumbers_in_order (job : Job) :
    let numbers := job.tools.map Tool.number
    job.suspiciousToolNumbers.Nodup ∧
      (∀ n, n ∈ job.suspiciousToolNumbers ↔ (n = 0 ∧ 0 ∈ numbers) ∨ 2 ≤ numbers.count n) ∧
      job.suspiciousToolNumbers = (suspiciousPlaces numbers).map Prod.fst ∧
      (job.suspiciousToolNumbers = [] ↔ (∀ n ∈ numbers, n ≠ 0) ∧ numbers.Nodup) := by
  intro numbers
  refine ⟨nodup_suspiciousNumbers numbers, ?_, suspiciousNumbers_eq_map numbers,
    suspiciousNumbers_eq_nil_iff⟩
  intro n
  exact mem_suspiciousNumbers.trans allowance_lt_count_iff

example : suspiciousNumbers [3, 1, 0, 1, 3, 0, 1] = [0, 1, 3] := by decide

end Turnery.Job
