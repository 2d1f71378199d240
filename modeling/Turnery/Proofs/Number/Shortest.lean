import Turnery.Number.Shortest
import Turnery.Proofs.Number.Reread

/-!
# The shortest decimal reads back

A stored double is what every real is rounded to that `Shortest.Admits` says belongs to it:
`rounded_of_admits`. The search for the shortest such decimal ends at the seventeenth digit at the
latest, where the grid of decimals is finer than the gap between two doubles. So the shortest
decimal of a double is read back as this double: `toFloat_of_value_eq`.
-/

namespace Turnery.Number

open Binary64 (magnitude)

/-- The nearest natural number to a rational; halfway between two it is the even one. -/
theorem nearestNat_toEven_eq {n : ℕ} {q : ℚ} (hq : 0 ≤ q) (h : |(n : ℚ) - q| ≤ 1 / 2)
    (even : |(n : ℚ) - q| = 1 / 2 → n % 2 = 0) : nearestNat .toEven q = n := by
  rcases h.lt_or_eq with hlt | htie
  · exact nearestNat_eq_of_abs_sub_lt .toEven hq hlt
  have heven := even htie
  rcases (abs_eq (by norm_num)).1 htie with hbelow | habove
  · obtain ⟨k, rfl⟩ : ∃ k, n = k + 1 := by
      refine Nat.exists_eq_succ_of_ne_zero ?_
      rintro rfl
      norm_num at hbelow
      linarith
    have hvalue : q = (k : ℚ) + 1 / 2 := by
      push_cast at hbelow
      linarith
    have hodd : k % 2 = 1 := by omega
    rw [hvalue, nearestNat_tie]
    simp [Tie.goesUp, hodd]
  · have hvalue : q = (n : ℚ) + 1 / 2 := by linarith
    rw [hvalue, nearestNat_tie]
    simp [Tie.goesUp, heven]

/-- A multiple of the spacing that is no farther than half of it is what the number is rounded to,
if it is even where two are equally near. -/
theorem rounded_eq_of_abs_sub_le {n : ℕ} {q : ℚ} (hq : 0 ≤ q)
    (h : |magnitude n (spacing q) - q| ≤ 2 ^ spacing q / 2)
    (even : |magnitude n (spacing q) - q| = 2 ^ spacing q / 2 → n % 2 = 0) :
    rounded q = magnitude n (spacing q) := by
  have hstep : (0 : ℚ) < 2 ^ spacing q := by positivity
  have hscaled : |magnitude n (spacing q) - q| = |(n : ℚ) - q / 2 ^ spacing q| * 2 ^ spacing q := by
    rw [← abs_of_pos hstep, ← abs_mul, abs_of_pos hstep, sub_mul, div_mul_cancel₀ _ hstep.ne',
      magnitude]
  have hhalf : (2 : ℚ) ^ spacing q / 2 = 1 / 2 * 2 ^ spacing q := by ring
  rw [hscaled, hhalf] at h even
  rw [rounded, nearestMultiple, nearestNat_toEven_eq (div_nonneg hq hstep.le)]
  · exact le_of_mul_le_mul_right h hstep
  · intro htie
    exact even (by rw [htie])

def Decimal.value (d : Decimal) : ℚ :=
  d.digits * 10 ^ d.exponent

namespace Shortest

/-- The real lies between the bounds of a double; the bounds themselves belong to it if its mantissa
is even. -/
def Admits (mantissa : ℕ) (exponent : ℤ) (q : ℚ) : Prop :=
  if mantissa % 2 = 0 then
    (bounds mantissa exponent).1 * 2 ^ (exponent - 2) ≤ q ∧
      q ≤ (bounds mantissa exponent).2 * 2 ^ (exponent - 2)
  else (bounds mantissa exponent).1 * 2 ^ (exponent - 2) < q ∧
    q < (bounds mantissa exponent).2 * 2 ^ (exponent - 2)

variable {mantissa : ℕ} {exponent : ℤ} {q : ℚ}

theorem Admits.low (h : Admits mantissa exponent q) :
    (bounds mantissa exponent).1 * 2 ^ (exponent - 2) ≤ q := by
  unfold Admits at h
  split at h
  · exact h.1
  · exact h.1.le

theorem Admits.high (h : Admits mantissa exponent q) :
    q ≤ (bounds mantissa exponent).2 * 2 ^ (exponent - 2) := by
  unfold Admits at h
  split at h
  · exact h.2
  · exact h.2.le

/-- Only a double of even mantissa has a bound for its own. -/
theorem Admits.even (h : Admits mantissa exponent q)
    (bound : q = (bounds mantissa exponent).1 * 2 ^ (exponent - 2) ∨
      q = (bounds mantissa exponent).2 * 2 ^ (exponent - 2)) : mantissa % 2 = 0 := by
  unfold Admits at h
  split at h
  · assumption
  · rcases bound with hlow | hhigh
    · exact absurd hlow h.1.ne'
    · exact absurd hhigh h.2.ne

/-- Four times the mantissa less the lower bound: the gap below a power of two is half as wide. -/
theorem bounds_fst (h : IsStored mantissa exponent) :
    ((bounds mantissa exponent).1 : ℚ) = 4 * mantissa - if mantissa = 2 ^ 52 ∧ -1074 < exponent
      then 1 else 2 := by
  have hpos := h.pos
  simp only [bounds, Bool.and_eq_true, beq_iff_eq, decide_eq_true_eq, gt_iff_lt]
  have hpow : Nat.pow 2 52 = 2 ^ 52 := rfl
  rw [hpow]
  split
  · rw [Nat.cast_sub (by omega)]
    push_cast
    ring
  · rw [Nat.cast_sub (by omega)]
    push_cast
    ring

theorem bounds_snd (mantissa : ℕ) (exponent : ℤ) :
    ((bounds mantissa exponent).2 : ℚ) = 4 * mantissa + 2 := by
  simp [bounds]

/-- The bounds are half a spacing away at most. -/
theorem Admits.abs_sub_le (h : IsStored mantissa exponent) (hq : Admits mantissa exponent q) :
    |magnitude mantissa exponent - q| ≤ 2 ^ exponent / 2 := by
  have hlow := hq.low
  have hhigh := hq.high
  rw [bounds_fst h] at hlow
  rw [bounds_snd] at hhigh
  have hstep : (2 : ℚ) ^ exponent = 2 ^ (exponent - 2) * 4 := by
    rw [zpow_sub₀ two_ne_zero]
    norm_num
  have hpos : (0 : ℚ) < 2 ^ (exponent - 2) := by positivity
  rw [magnitude, hstep, abs_le]
  generalize (2 : ℚ) ^ (exponent - 2) = t at *
  split at hlow
  · constructor <;> nlinarith
  · constructor <;> nlinarith

theorem Admits.pos (h : IsStored mantissa exponent) (hq : Admits mantissa exponent q) : 0 < q := by
  have hlow := (abs_le.1 (hq.abs_sub_le h)).2
  have hone : (1 : ℚ) ≤ mantissa := by exact_mod_cast h.pos
  have hstep : (0 : ℚ) < 2 ^ exponent := by positivity
  rw [magnitude] at hlow
  nlinarith

/-- A real that is half a spacing away belongs to a double of even mantissa. -/
theorem Admits.even_of_tie (h : IsStored mantissa exponent) (hq : Admits mantissa exponent q)
    (tie : |magnitude mantissa exponent - q| = 2 ^ exponent / 2) : mantissa % 2 = 0 := by
  have hstep : (2 : ℚ) ^ exponent = 2 ^ (exponent - 2) * 4 := by
    rw [zpow_sub₀ two_ne_zero]
    norm_num
  by_cases hpower : mantissa = 2 ^ 52 ∧ -1074 < exponent
  · rw [hpower.1]
    norm_num
  refine hq.even ?_
  rw [bounds_fst h, bounds_snd, if_neg hpower]
  rw [magnitude, hstep] at tie
  rcases (abs_eq (by positivity)).1 tie with hbelow | habove
  · left
    linarith
  · right
    linarith

/-- Where the spacing of a real is that of the double, the real is rounded to the double. -/
theorem rounded_of_spacing_eq (h : IsStored mantissa exponent) (hq : Admits mantissa exponent q)
    (hspacing : spacing q = exponent) : rounded q = magnitude mantissa exponent := by
  have hnear := hq.abs_sub_le h
  have heven := hq.even_of_tie h
  rw [← hspacing] at hnear heven ⊢
  exact rounded_eq_of_abs_sub_le (hq.pos (hspacing ▸ h)).le hnear heven

/-- A real below a power of two has half the spacing, and the double is twice as many multiples of
it. -/
theorem rounded_of_lt_power (h : IsStored (2 ^ 52) exponent) (hleast : -1074 < exponent)
    (hq : Admits (2 ^ 52) exponent q) (hlt : q < 2 ^ (52 + exponent)) :
    rounded q = magnitude (2 ^ 52) exponent := by
  have hlow := hq.low
  rw [bounds_fst h, if_pos ⟨rfl, hleast⟩] at hlow
  have hquarter : (0 : ℚ) < 2 ^ (exponent - 2) := by positivity
  have hpower : ∀ k : ℤ, (2 : ℚ) ^ (k + exponent) = 2 ^ (k + 2) * 2 ^ (exponent - 2) := by
    intro k
    rw [← zpow_add₀ two_ne_zero]
    congr 1
    omega
  have hspacing : spacing q = exponent - 1 := by
    have hstart : (2 : ℚ) ^ (51 + exponent) ≤ q := by
      rw [hpower]
      norm_num at hlow ⊢
      nlinarith
    rw [spacing_eq hstart (by rwa [show 51 + exponent + 1 = 52 + exponent by omega])]
    omega
  have hhalf : (2 : ℚ) ^ (exponent - 1) = 2 * 2 ^ (exponent - 2) := by
    rw [show exponent - 1 = exponent - 2 + 1 by omega, zpow_add_one₀ two_ne_zero, mul_comm]
  have hstep : (2 : ℚ) ^ exponent = 4 * 2 ^ (exponent - 2) := by
    rw [zpow_sub₀ two_ne_zero]
    norm_num
    ring
  have hsame : magnitude (2 ^ 52) exponent = magnitude (2 ^ 53) (spacing q) := by
    rw [hspacing, magnitude, magnitude, hhalf, hstep]
    push_cast
    ring
  rw [hsame]
  refine rounded_eq_of_abs_sub_le (hq.pos h).le ?_ (fun _ => by norm_num)
  rw [hpower] at hlt
  rw [hspacing, magnitude, hhalf, abs_le]
  push_cast
  norm_num at hlow hlt ⊢
  constructor <;> nlinarith

/-- Every real that belongs to a double is rounded to it. -/
theorem rounded_of_admits (h : IsStored mantissa exponent) (hq : Admits mantissa exponent q) :
    rounded q = magnitude mantissa exponent := by
  have hpos := hq.pos h
  have hnear := abs_le.1 (hq.abs_sub_le h)
  have hstep : (0 : ℚ) < 2 ^ exponent := by positivity
  have hbelow : q < 2 ^ (53 + exponent) := by
    have hbound := h.magnitude_le
    rw [zpow_add₀ two_ne_zero]
    norm_num at hbound ⊢
    nlinarith
  by_cases hleast : exponent = -1074
  · refine rounded_of_spacing_eq h hq ?_
    have hle := spacing_le hpos hbelow
    have hge : -1074 ≤ spacing q := le_max_right _ _
    omega
  have hgreater : -1074 < exponent := lt_of_le_of_ne h.least (Ne.symm hleast)
  by_cases hlow : 2 ^ (52 + exponent) ≤ q
  · refine rounded_of_spacing_eq h hq ?_
    rw [spacing_eq hlow (by rwa [show 52 + exponent + 1 = 53 + exponent by omega])]
    omega
  -- Only the least mantissa of a spacing has reals of the next finer one.
  have hmantissa : mantissa = 2 ^ 52 := by
    have hfull : 2 ^ 52 ≤ mantissa := h.full.resolve_right hleast
    by_contra hne
    have hmore : ((2 : ℚ) ^ 52 + 1) * 2 ^ exponent ≤ magnitude mantissa exponent := by
      have hsucc : 2 ^ 52 + 1 ≤ mantissa := by omega
      exact mul_le_mul_of_nonneg_right (by exact_mod_cast hsucc) hstep.le
    refine hlow ?_
    rw [zpow_add₀ two_ne_zero]
    norm_num at hmore ⊢
    linarith
  subst hmantissa
  exact rounded_of_lt_power h hgreater hq (lt_of_not_ge hlow)

theorem zpow_mul_toNat {b : ℚ} (hb : b ≠ 0) (k : ℤ) : b ^ k * b ^ (-k).toNat = b ^ k.toNat := by
  rw [← zpow_natCast, ← zpow_natCast, ← zpow_add₀ hb]
  congr 1
  omega

/-- The factor that makes the bounds of a window and its grid integral. -/
def scale (exponent place : ℤ) : ℕ :=
  2 ^ (exponent - 2).toNat * 10 ^ (-place).toNat

/-- The spacing of the grid of a window. -/
def unit (exponent place : ℤ) : ℕ :=
  2 ^ (2 - exponent).toNat * 10 ^ place.toNat

theorem windowAt_eq (mantissa : ℕ) (exponent place : ℤ) :
    windowAt mantissa exponent place =
      (⟨(bounds mantissa exponent).1 * scale exponent place, 4 * mantissa * scale exponent place,
        (bounds mantissa exponent).2 * scale exponent place, mantissa % 2 == 0⟩,
          unit exponent place) :=
  rfl

theorem scale_pos (exponent place : ℤ) : 0 < scale exponent place := by
  unfold scale
  positivity

theorem unit_pos (exponent place : ℤ) : 0 < unit exponent place := by
  unfold unit
  positivity

/-- The factor does not change the proportions. -/
theorem unit_mul_quarter (exponent place : ℤ) :
    (unit exponent place : ℚ) * 2 ^ (exponent - 2) = scale exponent place * 10 ^ place := by
  have htwo := zpow_mul_toNat (show (2 : ℚ) ≠ 0 by norm_num) (exponent - 2)
  have hten := zpow_mul_toNat (show (10 : ℚ) ≠ 0 by norm_num) place
  rw [neg_sub] at htwo
  unfold unit scale
  push_cast
  rw [← htwo, ← hten]
  ring

/-- Decimals in quarters of the spacing of the double, times the factor. -/
theorem mul_unit_eq (exponent place : ℤ) (n : ℕ) :
    ((n * unit exponent place : ℕ) : ℚ) = n * 10 ^ place / 2 ^ (exponent - 2) *
      scale exponent place := by
  have hquarter : (2 : ℚ) ^ (exponent - 2) ≠ 0 := by positivity
  have hunit := unit_mul_quarter exponent place
  field_simp
  push_cast
  linear_combination (n : ℚ) * hunit

theorem mul_scale_le_iff (exponent place : ℤ) (bound n : ℕ) :
    bound * scale exponent place ≤ n * unit exponent place ↔
      (bound : ℚ) * 2 ^ (exponent - 2) ≤ n * 10 ^ place := by
  have hscale : (0 : ℚ) < scale exponent place := by exact_mod_cast scale_pos exponent place
  rw [← @Nat.cast_le ℚ, mul_unit_eq, Nat.cast_mul, mul_le_mul_iff_left₀ hscale,
    le_div_iff₀ (by positivity)]

theorem mul_unit_le_iff (exponent place : ℤ) (bound n : ℕ) :
    n * unit exponent place ≤ bound * scale exponent place ↔
      (n : ℚ) * 10 ^ place ≤ bound * 2 ^ (exponent - 2) := by
  have hscale : (0 : ℚ) < scale exponent place := by exact_mod_cast scale_pos exponent place
  rw [← @Nat.cast_le ℚ, mul_unit_eq, Nat.cast_mul, mul_le_mul_iff_left₀ hscale,
    div_le_iff₀ (by positivity)]

/-- A window holds the decimals that belong to the double. -/
theorem holds_iff (mantissa : ℕ) (exponent place : ℤ) (n : ℕ) :
    (windowAt mantissa exponent place).1.holds (windowAt mantissa exponent place).2 n = true ↔
      Admits mantissa exponent (n * 10 ^ place) := by
  simp only [windowAt_eq, Window.holds, Admits, beq_iff_eq, ← Nat.not_le]
  split
  · simp [mul_scale_le_iff, mul_unit_le_iff]
  · simp [mul_scale_le_iff, mul_unit_le_iff]

/-- What is found in a window is held by it. -/
theorem holds_of_nearest? {w : Window} {tie : Tie} {unit n : ℕ} (h : w.nearest? tie unit = some n) :
    w.holds unit n = true := by
  unfold Window.nearest? at h
  dsimp only at h
  split at h
  · cases h
  · rename_i hbelow _
    obtain rfl := Option.some.inj h
    exact hbelow
  · rename_i _ habove
    obtain rfl := Option.some.inj h
    exact habove
  · rename_i hbelow habove
    obtain rfl := Option.some.inj h
    unfold roundDiv
    dsimp only
    split
    · exact habove
    · exact hbelow

theorem not_holds_of_nearest?_eq_none {w : Window} {tie : Tie} {unit : ℕ}
    (h : w.nearest? tie unit = none) :
    w.holds unit (w.value / unit) = false ∧ w.holds unit (w.value / unit + 1) = false := by
  unfold Window.nearest? at h
  dsimp only at h
  split at h
  · rename_i hbelow habove
    exact ⟨hbelow, habove⟩
  all_goals cases h

/-- A decimal between a double and one of its bounds belongs to the double. -/
theorem admits_of_between (hlow : (bounds mantissa exponent).1 * 2 ^ (exponent - 2) < q)
    (hhigh : q < (bounds mantissa exponent).2 * 2 ^ (exponent - 2)) :
    Admits mantissa exponent q := by
  unfold Admits
  split
  · exact ⟨hlow.le, hhigh.le⟩
  · exact ⟨hlow, hhigh⟩

theorem quarters_eq (mantissa : ℕ) (exponent : ℤ) :
    4 * (mantissa : ℚ) * 2 ^ (exponent - 2) = magnitude mantissa exponent := by
  rw [magnitude, zpow_sub₀ two_ne_zero]
  ring

/-- A double lies between two neighbours of a grid. -/
theorem magnitude_between_neighbours (mantissa : ℕ) (exponent place : ℤ) :
    ((4 * mantissa * scale exponent place / unit exponent place : ℕ) : ℚ) * 10 ^ place ≤
      magnitude mantissa exponent ∧
      magnitude mantissa exponent <
        ((4 * mantissa * scale exponent place / unit exponent place + 1 : ℕ) : ℚ) * 10 ^ place := by
  constructor
  · have hle := (mul_unit_le_iff exponent place (4 * mantissa) _).1 (Nat.div_mul_le_self _ _)
    push_cast at hle
    rwa [quarters_eq] at hle
  · have hlt :=
      Nat.lt_mul_of_div_lt
        (Nat.lt_succ_self (4 * mantissa * scale exponent place / unit exponent place))
      (unit_pos exponent place)
    rw [← Nat.not_le, mul_unit_le_iff, not_le] at hlt
    push_cast at hlt
    rw [quarters_eq] at hlt
    exact_mod_cast hlt

/-- A double lies between its bounds. -/
theorem magnitude_between_bounds (h : IsStored mantissa exponent) :
    ((bounds mantissa exponent).1 : ℚ) * 2 ^ (exponent - 2) < magnitude mantissa exponent ∧
      magnitude mantissa exponent < (bounds mantissa exponent).2 * 2 ^ (exponent - 2) := by
  have hquarter : (0 : ℚ) < 2 ^ (exponent - 2) := by positivity
  rw [← quarters_eq, bounds_fst h, bounds_snd]
  constructor
  · refine mul_lt_mul_of_pos_right ?_ hquarter
    split <;> linarith
  · exact mul_lt_mul_of_pos_right (by linarith) hquarter

/-- A grid that is fine enough has a decimal in the window. -/
theorem nearest?_ne_none (h : IsStored mantissa exponent) {place : ℤ}
    (hfine : 10 ^ place * 10 ^ 16 ≤ magnitude mantissa exponent) (tie : Tie) :
    (windowAt mantissa exponent place).1.nearest? tie (windowAt mantissa exponent place).2 ≠
      none := by
  intro hnone
  obtain ⟨hbelow, habove⟩ := not_holds_of_nearest?_eq_none hnone
  rw [← Bool.not_eq_true, holds_iff] at hbelow habove
  rw [windowAt_eq] at hbelow habove
  dsimp only at hbelow habove
  obtain ⟨hunder, hover⟩ := magnitude_between_neighbours mantissa exponent place
  generalize 4 * mantissa * scale exponent place / unit exponent place = below at *
  obtain ⟨hleast, hgreatest⟩ := magnitude_between_bounds h
  -- Neither neighbour on the grid is held, so the grid is wider than the window.
  have hlow : (below : ℚ) * 10 ^ place ≤ (bounds mantissa exponent).1 * 2 ^ (exponent - 2) := by
    refine le_of_not_gt fun hlt => hbelow ?_
    exact admits_of_between hlt (hunder.trans_lt hgreatest)
  have hhigh : (bounds mantissa exponent).2 * 2 ^ (exponent - 2) ≤
      ((below + 1 : ℕ) : ℚ) * 10 ^ place := by
    refine le_of_not_gt fun hlt => habove ?_
    exact admits_of_between (hleast.trans hover) hlt
  rw [bounds_fst h] at hlow
  rw [bounds_snd] at hhigh
  push_cast at hhigh
  rw [← quarters_eq] at hfine
  have hquarter : (0 : ℚ) < 2 ^ (exponent - 2) := by positivity
  generalize (2 : ℚ) ^ (exponent - 2) = t at *
  generalize (10 : ℚ) ^ place = step at *
  have hlt : (mantissa : ℚ) < 2 ^ 53 := by exact_mod_cast h.lt
  split at hlow
  · rename_i hpower
    rw [hpower.1] at hfine
    norm_num at hfine
    nlinarith
  · have hmantissa : (mantissa : ℚ) * t ≤ 2 ^ 53 * t :=
      mul_le_mul_of_nonneg_right hlt.le hquarter.le
    norm_num at hfine hmantissa
    nlinarith

theorem admits_of_search {tie : Tie} {lead : ℤ} {more count : ℕ} {d : Decimal}
    (h : search tie mantissa exponent lead more count = some d) :
    Admits mantissa exponent d.value := by
  induction more generalizing count with
  | zero => cases h
  | succ more ih =>
    unfold search at h
    dsimp only at h
    split at h
    · rename_i n hn
      obtain rfl := Option.some.inj h
      exact (holds_iff _ _ _ _).1 (holds_of_nearest? hn)
    · exact ih h

/-- The search succeeds if its last grid is fine enough. -/
theorem search_ne_none (h : IsStored mantissa exponent) (tie : Tie) {lead : ℤ} {more count : ℕ}
    (hfine : 10 ^ (lead - (count + more : ℕ)) * 10 ^ 16 ≤ magnitude mantissa exponent) :
    search tie mantissa exponent lead (more + 1) count ≠ none := by
  induction more generalizing count with
  | zero =>
    have hhit := nearest?_ne_none h hfine tie
    unfold search
    dsimp only
    split
    · exact Option.some_ne_none _
    · rename_i hnone
      exact absurd hnone hhit
  | succ more ih =>
    unfold search
    dsimp only
    split
    · exact Option.some_ne_none _
    · refine ih ?_
      rwa [Nat.add_right_comm, Nat.add_assoc]

/-- A quotient is at least as large as its first digit says. -/
theorem ten_zpow_leadingPlace_le {num den : ℕ} (hnum : 0 < num) (hden : 0 < den) :
    (10 : ℚ) ^ (leadingPlace num den - 1) ≤ num / den := by
  have hnum' : (0 : ℚ) < num := by exact_mod_cast hnum
  have hden' : (0 : ℚ) < den := by exact_mod_cast hden
  unfold leadingPlace
  split
  · rename_i hle
    obtain ⟨k, hk⟩ : ∃ k, (digits (num / den)).length = k + 1 :=
      Nat.exists_eq_succ_of_ne_zero (List.length_pos_of_ne_nil (isDigits_digits _).ne_nil).ne'
    have hpow : 10 ^ k ≤ num / den := by
      rcases Nat.eq_zero_or_pos k with rfl | hpos
      · exact Nat.div_pos hle hden
      · refine Nat.le_of_not_lt fun hlt => ?_
        have hshort := (Nat.length_toDigits_le_iff (by decide : 1 < 10) hpos).2 hlt
        have hlength : (Nat.toDigits 10 (num / den)).length = k + 1 := hk
        omega
    rw [hk, Nat.cast_succ, add_sub_cancel_right, zpow_natCast, le_div_iff₀ hden']
    have := (Nat.le_div_iff_mul_le hden).1 hpow
    exact_mod_cast this
  · generalize hk : (digits (den / num)).length = k
    have hpos : 0 < k := hk ▸ List.length_pos_of_ne_nil (isDigits_digits _).ne_nil
    have hlt : den / num < 10 ^ k :=
      (Nat.length_toDigits_le_iff (by decide : 1 < 10) hpos).1 (le_of_eq hk)
    have hmul : den < 10 ^ k * num := (Nat.div_lt_iff_lt_mul hnum).1 hlt
    rw [sub_sub_cancel_left, zpow_neg, zpow_natCast, inv_le_iff_one_le_mul₀ (by positivity),
      div_mul_eq_mul_div, le_div_iff₀ hden', one_mul, mul_comm]
    exact_mod_cast hmul.le

end Shortest

/-- Zeros at the end of the digits are no matter. -/
theorem value_strip (d : Decimal) : d.strip.value = d.value := by
  obtain ⟨zeros, hzeros⟩ := exists_dropTrailingZeros_append (digits d.digits)
  have hlength : (digits d.digits).length - (dropTrailingZeros (digits d.digits)).length =
      zeros := by
    have hsame := congrArg List.length hzeros
    rw [List.length_append, List.length_replicate] at hsame
    omega
  have hdigits : 10 ^ zeros * natOfDigits (dropTrailingZeros (digits d.digits)) = d.digits := by
    conv_rhs => rw [← natOfDigits_digits d.digits, ← hzeros]
    rw [natOfDigits_append, appendDigits_eq, Nat.ofDigitChars_replicate_zero]
  have hcast : (10 : ℚ) ^ zeros * natOfDigits (dropTrailingZeros (digits d.digits)) = d.digits := by
    exact_mod_cast hdigits
  simp only [Decimal.value, Decimal.strip, hlength]
  rw [← hcast, zpow_add₀ (by norm_num), zpow_natCast]
  ring

variable {mantissa : ℕ} {exponent : ℤ}

/-- The shortest decimal of a double is rounded to the double. -/
theorem rounded_shortest (tie : Tie)
    (h : (mantissa = 0 ∧ exponent = 0) ∨ IsStored mantissa exponent) :
    rounded (shortest tie mantissa exponent).value = magnitude mantissa exponent := by
  rcases h with ⟨rfl, rfl⟩ | h
  · simp [shortest, Decimal.value, magnitude]
  have hne : ¬(mantissa == 0) = true := by
    have := h.pos
    simp only [beq_iff_eq]
    omega
  rw [shortest, if_neg hne, value_strip]
  have hnum : 0 < Binary64.numerator mantissa exponent := Nat.mul_pos h.pos (Nat.two_pow_pos _)
  have hlead := Shortest.ten_zpow_leadingPlace_le hnum (Binary64.denominator_pos exponent)
  rw [Binary64.numerator_div_denominator] at hlead
  generalize Shortest.leadingPlace _ _ = lead at *
  have hfine : (10 : ℚ) ^ (lead - (1 + 16 : ℕ)) * 10 ^ 16 ≤ magnitude mantissa exponent := by
    refine le_trans (le_of_eq ?_) hlead
    rw [← zpow_natCast, ← zpow_add₀ (by norm_num)]
    congr 1
    push_cast
    ring
  have hfound := Shortest.search_ne_none h tie hfine
  obtain ⟨d, hd⟩ := Option.ne_none_iff_exists'.1 hfound
  rw [hd, Option.getD_some]
  exact Shortest.rounded_of_admits h (Shortest.admits_of_search hd)

/-- Stored doubles of the same value are the same. -/
theorem IsStored.eq_of_magnitude_eq {mantissa' : ℕ} {exponent' : ℤ} (h : IsStored mantissa exponent)
    (h' : IsStored mantissa' exponent')
    (hsame : magnitude mantissa exponent = magnitude mantissa' exponent') :
    mantissa = mantissa' ∧ exponent = exponent' := by
  have hexponent : exponent = exponent' := by
    rcases lt_trichotomy exponent exponent' with hlt | heq | hgt
    · exact absurd hsame (h.magnitude_lt_of_lt h' hlt).ne
    · exact heq
    · exact absurd hsame (h'.magnitude_lt_of_lt h hgt).ne'
  subst hexponent
  refine ⟨?_, rfl⟩
  have hstep : (2 : ℚ) ^ exponent ≠ 0 := by positivity
  exact_mod_cast mul_right_cancel₀ hstep hsame

theorem IsStored.magnitude_pos (h : IsStored mantissa exponent) :
    0 < magnitude mantissa exponent := by
  have hpos : (0 : ℚ) < mantissa := by exact_mod_cast h.pos
  exact mul_pos hpos (by positivity)

/-- The mantissa and the exponent of a double are determined by its value. -/
theorem eq_of_magnitude_eq {mantissa' : ℕ} {exponent' : ℤ}
    (h : (mantissa = 0 ∧ exponent = 0) ∨ IsStored mantissa exponent)
    (h' : (mantissa' = 0 ∧ exponent' = 0) ∨ IsStored mantissa' exponent')
    (hsame : magnitude mantissa exponent = magnitude mantissa' exponent') :
    mantissa = mantissa' ∧ exponent = exponent' := by
  have hzero : magnitude 0 0 = 0 := by simp [magnitude]
  rcases h with ⟨rfl, rfl⟩ | h <;> rcases h' with ⟨rfl, rfl⟩ | h'
  · exact ⟨rfl, rfl⟩
  · exact absurd (hsame.symm.trans hzero) h'.magnitude_pos.ne'
  · exact absurd (hsame.trans hzero) h.magnitude_pos.ne'
  · exact h.eq_of_magnitude_eq h' hsame

/-- A numeral of the value of the shortest decimal of a finite double, with its sign, denotes the
double. -/
theorem toFloat_of_value_eq {tie : Tie} {x : Float} {negative : Bool}
    (hx : Binary64.ofFloat x = .finite negative mantissa exponent) {ds : ℕ} {e : ℤ}
    (hvalue : (ds : ℚ) * 10 ^ e = (shortest tie mantissa exponent).value) :
    Numeral.toFloat ⟨negative, ds, e⟩ = x := by
  have hstored := Binary64.isStored_of_ofFloat hx
  have hrounded : rounded (ds * 10 ^ e) = magnitude mantissa exponent :=
    hvalue ▸ rounded_shortest tie hstored
  have hfits : rounded (ds * 10 ^ e) < 2 ^ 1024 := by
    rw [hrounded]
    rcases hstored with ⟨rfl, rfl⟩ | hstored
    · simp [magnitude]
    · exact hstored.magnitude_lt
  obtain ⟨mantissa', exponent', hread, hmagnitude⟩ := @ofFloat_toFloat negative ds e hfits
  have hsame : magnitude mantissa' exponent' = magnitude mantissa exponent :=
    hmagnitude.trans hrounded
  have hfinite : x.isFinite = true := Binary64.isFinite_iff.2 ⟨_, _, _, hx⟩
  obtain ⟨rfl, rfl⟩ := eq_of_magnitude_eq (Binary64.isStored_of_ofFloat hread) hstored hsame
  exact (Binary64.ofFloat_inj hfinite (hx.trans hread.symm)).symm

end Turnery.Number
