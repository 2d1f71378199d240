import Turnery.Proofs.Curve.Lookup
import Turnery.Proofs.Fault

/-!
# Evaluation in machine words

A b-spline is evaluated in place where positions are machine words: one work list holds the points
of all levels, each level goes down it from the end, sums of positions must not exceed the largest
word, differences must not fall below zero, and every position must lie in its list.
`InWords.curve_eq` says that none of this ever happens, for any degree, any knots and any parameter,
and that the result is the curve. The order of the scalars plays no part in it, so that it holds of
parameters and knots that are no numbers too.

That twice the number of control points is a word is no restriction: words address the places of a
memory, and a point takes more than two of them.

What makes the positions safe is that the numbers of knots and control points are compared with the
degree before anything is added to it (`InWords.domain_eq`), and that the search for a span ends
between the degree and the last control point (`InWords.span_eq`).
-/

namespace Turnery

namespace Spline.InWords

open Word

variable {α : Type}

section Evaluation

/-- The checks of a curve, in the order that keeps the sum within a word. -/
def domain [LT α] [DecidableLT α] (bits : ℕ) (s : Spline α) : Except Fault (Option (α × α)) := do
  if s.degree == 0 || s.control.length ≤ s.degree then
    return none
  let expected ← sum bits (← sum bits s.control.length s.degree) 1
  if s.knots.length != expected || decreases s.knots then
    return none
  let first ← entry s.knots s.degree
  let last ← entry s.knots s.control.length
  return if first < last then some (first, last) else none

/-- The search for a span, from one position up to the last. -/
def search [LE α] [DecidableLE α] (bits : ℕ) (knots : List α) (t : α) (last k : ℕ) :
    Except Fault ℕ :=
  if k < last then do
    let knot ← entry knots (← sum bits k 1)
    if knot ≤ t then search bits knots t last (k + 1) else .ok k
  else .ok k
termination_by last - k

def span [LE α] [DecidableLE α] (bits : ℕ) (s : Spline α) (t : α) : Except Fault ℕ := do
  let last ← difference s.control.length 1
  search bits s.knots t last s.degree

/-- The work list before the first level. -/
def support (bits : ℕ) (s : Spline α) (k : ℕ) : Except Fault (List (Point α)) :=
  (List.range (s.degree + 1)).mapM fun j => do
    entry s.control (← difference (← sum bits j k) s.degree)

variable [Add α] [Sub α] [Mul α] [Div α] [Neg α] [Zero α] [One α] [LT α] [DecidableLT α] [Scalar α]

def weight (bits : ℕ) (s : Spline α) (t : α) (k level j : ℕ) : Except Fault α := do
  let i ← difference (← sum bits j k) s.degree
  let right ← entry s.knots (← difference (← sum bits (← sum bits i s.degree) 1) level)
  let left ← entry s.knots i
  return weightBetween t left right

/-- The entry of the work list at a position becomes a blend of the one before it and itself. -/
def blendAt (bits : ℕ) (s : Spline α) (t : α) (k level : ℕ) (work : List (Point α)) (j : ℕ) :
    Except Fault (List (Point α)) := do
  let w ← weight bits s t k level j
  let p ← entry work (← difference j 1)
  let q ← entry work j
  store work j (blend w p q)

/-- One level: the entries from the last down to the position of the level. -/
def sweep (bits : ℕ) (s : Spline α) (t : α) (k : ℕ) (work : List (Point α)) (level : ℕ) :
    Except Fault (List (Point α)) :=
  (List.range' level (s.degree + 1 - level)).reverse.foldlM (blendAt bits s t k level) work

def point [LE α] [DecidableLE α] (bits : ℕ) (s : Spline α) (t : α) : Except Fault (Point α) := do
  let k ← span bits s t
  let work ← support bits s k
  let work ← (List.range' 1 s.degree).foldlM (sweep bits s t k) work
  entry work s.degree

def curve [LE α] [DecidableLE α] (bits : ℕ) (s : Spline α) (tess : Tessellation) :
    Except Fault (Option (Polyline α)) := do
  match ← domain bits s with
  | none => return none
  | some (first, last) =>
    let points ← (tess.parameters first (last - first) (tess.segments + 1)).mapM (point bits s)
    return some ⟨points⟩

end Evaluation

variable {bits : ℕ} {s : Spline α}

/-- The degree is compared before it is added to anything. -/
theorem domain_eq [LT α] [DecidableLT α] (hroom : 2 * s.control.length < 2 ^ bits) :
    domain bits s = .ok s.domain? := by
  unfold domain domain?
  by_cases hsmall : (s.degree == 0 || decide (s.control.length ≤ s.degree)) = true
  · rw [if_pos hsmall, hsmall]
    rfl
  have hdegree : s.degree < s.control.length := by
    simp only [Bool.or_eq_true, decide_eq_true_eq, not_or, Nat.not_le] at hsmall
    exact hsmall.2
  have hsum : sum bits s.control.length s.degree = .ok _ := sum_eq_ok (by omega)
  have hexpected : sum bits (s.control.length + s.degree) 1 = .ok _ := sum_eq_ok (by omega)
  rw [if_neg hsmall, Bool.eq_false_iff.2 hsmall]
  simp only [hsum, hexpected, bind, Except.bind, Bool.false_or]
  split
  · rfl
  · rename_i hcounts
    have hlength : s.knots.length = s.control.length + s.degree + 1 := by
      simp only [Bool.or_eq_true, bne_iff_ne, not_or, Decidable.not_not] at hcounts
      exact hcounts.1
    have hfirst : s.knots[s.degree]? = some s.knots[s.degree] := List.getElem?_eq_getElem (by omega)
    have hlast : s.knots[s.control.length]? = some s.knots[s.control.length] :=
      List.getElem?_eq_getElem (by omega)
    rw [entry_eq_ok hfirst, entry_eq_ok hlast, hfirst, hlast]
    rfl

section Span

variable [LE α] [DecidableLE α] {t : α} {k last : ℕ}

/-- The search goes as the one that counts the spans which are left. -/
theorem search_eq {knots : List α} (hlast : last < knots.length) (hword : last < 2 ^ bits)
    {remaining : ℕ} (hremaining : k + remaining = last) {found : ℕ}
    (h : spanFrom? knots t remaining k = some found) :
    search bits knots t last k = .ok found := by
  induction remaining generalizing k with
  | zero =>
    rw [search, if_neg (by omega)]
    exact congrArg Except.ok (Option.some.inj h)
  | succ remaining ih =>
    have hnext : knots[k + 1]? = some knots[k + 1] := List.getElem?_eq_getElem (by omega)
    have hsum : sum bits k 1 = .ok _ := sum_eq_ok (by omega)
    rw [spanFrom?, hnext, Option.bind_eq_bind, Option.bind_some] at h
    rw [search, if_pos (by omega)]
    simp only [hsum, entry_eq_ok hnext, bind, Except.bind]
    split
    · rename_i hpassed
      rw [if_pos hpassed] at h
      exact ih (by omega) h
    · rename_i hends
      rw [if_neg hends] at h
      exact congrArg Except.ok (Option.some.inj h)

/-- The span is found between the degree and the last control point. -/
theorem span_eq (hfits : s.Fits) (hroom : 2 * s.control.length < 2 ^ bits) (t : α) :
    ∃ k, span bits s t = .ok k ∧ s.span? t = some k ∧ s.degree ≤ k ∧ k ≤ s.control.length - 1 := by
  have hdegree := hfits.degree_lt
  have hlength := hfits.length_knots
  obtain ⟨k, hk, hspan⟩ := hfits.exists_span? t
  refine ⟨k, ?_, hk, hspan.start_le, hspan.le_stop⟩
  have hone : 1 ≤ s.control.length := by omega
  have hspans : s.degree ≤ s.control.length - 1 := by omega
  simp only [span?, position?_of_le hone, position?_of_le hspans, Option.bind_eq_bind,
    Option.bind_some] at hk
  simp only [span, difference_eq_ok hone, bind, Except.bind]
  exact search_eq (by omega) (by omega) (by omega) hk

end Span

/-- A span of a curve between the degree and the last control point, where words are long enough for
twice the number of control points. -/
structure IsSafe (bits : ℕ) (s : Spline α) (k : ℕ) : Prop extends s.Fits where
  room : 2 * s.control.length < 2 ^ bits
  degree_le : s.degree ≤ k
  lt_length : k < s.control.length

namespace IsSafe

variable {k : ℕ}

theorem support_eq (h : IsSafe bits s k) : support bits s k = .ok (s.neighbours k) := by
  obtain ⟨-, hroom, hdegree, hk⟩ := h
  refine mapM_eq_ok (fun j hj p hp => ?_) (support?_eq_neighbours hdegree hk)
  have hj := List.mem_range.1 hj
  have hsum : sum bits j k = .ok _ := sum_eq_ok (by omega)
  have hle : s.degree ≤ j + k := by omega
  rw [position?_of_le hle, Option.bind_eq_bind, Option.bind_some] at hp
  simp only [hsum, difference_eq_ok hle, entry_eq_ok hp, bind, Except.bind]

variable {t : α} {level j : ℕ} {work : List (Point α)}

section Weights

variable [Sub α] [Div α] [Neg α] [Zero α] [LT α] [DecidableLT α] [Scalar α]

theorem exists_weight (h : IsSafe bits s k) (t : α) (hlevel : 0 < level) (hj : level ≤ j)
    (hj' : j ≤ s.degree) :
    ∃ w, s.weight? t k level j = some w ∧ weight bits s t k level j = .ok w := by
  obtain ⟨hfits, hroom, hdegree, hk⟩ := h
  obtain ⟨left, right, hleft, hright, hweight⟩ := hfits.exists_weight?_eq hdegree hk t hlevel hj hj'
  have hsum : sum bits j k = .ok _ := sum_eq_ok (by omega)
  have hlower : s.degree ≤ j + k := by omega
  have hupper : sum bits (j + k - s.degree) s.degree = .ok _ := sum_eq_ok (by omega)
  have hnext : sum bits (j + k - s.degree + s.degree) 1 = .ok _ := sum_eq_ok (by omega)
  have hback : level ≤ j + k - s.degree + s.degree + 1 := by omega
  refine ⟨_, hweight, ?_⟩
  simp only [weight, hsum, difference_eq_ok hlower, hupper, hnext, difference_eq_ok hback,
    entry_eq_ok hleft, entry_eq_ok hright, bind, Except.bind]
  rfl

end Weights

variable [Add α] [Sub α] [Mul α] [Div α] [Neg α] [Zero α] [One α] [LT α] [DecidableLT α] [Scalar α]

theorem exists_blendAt (h : IsSafe bits s k) (t : α) (hlevel : 0 < level) (hj : level ≤ j)
    (hj' : j ≤ s.degree) (hwork : work.length = s.degree + 1) :
    ∃ w p q, s.weight? t k level j = some w ∧ work[j - 1]? = some p ∧ work[j]? = some q ∧
      blendAt bits s t k level work j = .ok (work.set j (blend w p q)) := by
  obtain ⟨w, hw, hweight⟩ := h.exists_weight t hlevel hj hj'
  have hone : 1 ≤ j := by omega
  have hbefore : work[j - 1]? = some work[j - 1] := List.getElem?_eq_getElem (by omega)
  have hentry : work[j]? = some work[j] := List.getElem?_eq_getElem (by omega)
  have hstore : j < work.length := by omega
  refine ⟨w, _, _, hw, hbefore, hentry, ?_⟩
  simp only [blendAt, hweight, difference_eq_ok hone, entry_eq_ok hbefore, entry_eq_ok hentry, bind,
    Except.bind]
  exact store_eq_ok hstore _

/-- Going down from the end, a level finds the entries before the one that it changes as they
were. -/
theorem exists_foldlM_blendAt (h : IsSafe bits s k) (t : α) (hlevel : 0 < level) {count : ℕ}
    (hcount : level + count ≤ s.degree + 1) (hwork : work.length = s.degree + 1) :
    ∃ next, (List.range' level count).reverse.foldlM (blendAt bits s t k level) work = .ok next ∧
      next.length = s.degree + 1 ∧ (∀ j, level + count ≤ j → next[j]? = work[j]?) ∧
      ∀ j, level ≤ j → j < level + count → ∀ w p q, s.weight? t k level j = some w →
        work[j - 1]? = some p → work[j]? = some q → next[j]? = some (blend w p q) := by
  -- The last of the positions is blended first, and the others are a shorter run on the list that
  -- this leaves.
  induction count generalizing work with
  | zero => exact ⟨work, rfl, hwork, fun _ _ => rfl, by omega⟩
  | succ count ih =>
    obtain ⟨w, p, q, hw, hp, hq, hblend⟩ :=
      h.exists_blendAt t hlevel (j := level + count) (by omega) (by omega) hwork
    obtain ⟨next, hnext, hlength, hkept, hblended⟩ :=
      @ih (work.set (level + count) (blend w p q)) (by omega) (by rw [List.length_set, hwork])
    refine ⟨next, ?_, hlength, ?_, ?_⟩
    · rw [List.range'_1_concat, List.reverse_append, List.reverse_singleton, List.singleton_append,
        List.foldlM_cons, hblend]
      exact hnext
    · intro j hj
      rw [hkept j (by omega), List.getElem?_set_ne (by omega)]
    · intro j hj hlt w' p' q' hw' hp' hq'
      rcases Nat.lt_succ_iff_lt_or_eq.1 (show j < level + count + 1 from hlt) with hbelow | rfl
      · exact hblended j hj hbelow w' p' q' hw' (by rwa [List.getElem?_set_ne (by omega)])
          (by rwa [List.getElem?_set_ne (by omega)])
      · rw [hw] at hw'
        rw [hp] at hp'
        rw [hq] at hq'
        cases hw'
        cases hp'
        cases hq'
        rw [hkept _ (by omega), List.getElem?_set_self (by omega)]

/-- A level makes each entry from its own position on the blend that the triangle of levels has
there. -/
theorem exists_sweep (h : IsSafe bits s k) (t : α) (hlevel : 0 < level) (hle : level ≤ s.degree)
    (hwork : work.length = s.degree + 1) :
    ∃ next, sweep bits s t k work level = .ok next ∧ next.length = s.degree + 1 ∧
      ∀ j, level ≤ j → j ≤ s.degree → ∀ w p q, s.weight? t k level j = some w →
        work[j - 1]? = some p → work[j]? = some q → next[j]? = some (blend w p q) := by
  have hcount : level + (s.degree + 1 - level) ≤ s.degree + 1 := by omega
  obtain ⟨next, hnext, hlength, -, hblended⟩ := h.exists_foldlM_blendAt t hlevel hcount hwork
  exact ⟨next, hnext, hlength, fun j hj hj' => hblended j hj (by omega)⟩

end IsSafe

variable [Add α] [Sub α] [Mul α] [Div α] [Neg α] [Zero α] [One α] [LT α] [LE α] [DecidableLT α]
  [DecidableLE α] [Scalar α]

/-- After some levels the work list has an entry at a position. -/
def HasEntry (bits : ℕ) (s : Spline α) (t : α) (k levels i : ℕ) (p : Point α) : Prop :=
  ∃ work, (List.range' 1 levels).foldlM (sweep bits s t k) (s.neighbours k) = .ok work ∧
    work.length = s.degree + 1 ∧ work[i]? = some p

/-- At every parameter a point is found, and it is that of the curve. -/
theorem point_eq (hfits : s.Fits) (hroom : 2 * s.control.length < 2 ^ bits) (t : α) :
    ∃ p, point bits s t = .ok p ∧ s.point? t = some p := by
  have hlength := hfits.degree_lt
  obtain ⟨k, hk, hspan, hdegree, hlast⟩ := span_eq hfits hroom t
  have hlt : k < s.control.length := by omega
  have hsafe : IsSafe bits s k := ⟨hfits, hroom, hdegree, hlt⟩
  have hground : HoldFrom (HasEntry bits s t k 0) 0 (s.neighbours k) := by
    intro i p hp
    rw [Nat.zero_add]
    exact ⟨_, rfl, length_neighbours hdegree hlt, hp⟩
  -- Level by level, entry `i + r` of the work list is entry `i` of the triangle, which is the
  -- shorter by `r`.
  obtain ⟨p, hp, work, hwork, -, hentry⟩ :=
      exists_point? hspan hdegree hlt hground fun r i hr hi => by
    obtain ⟨w, hw, -⟩ :=
      hsafe.exists_weight t (Nat.succ_pos r) (Nat.succ_le_succ hr) (Nat.succ_le_of_lt hi)
    refine ⟨w, hw, ?_⟩
    rintro p q ⟨work, hwork, hcount, hp⟩ ⟨other, hother, -, hq⟩
    obtain rfl : work = other := Except.ok.inj (hwork.symm.trans hother)
    obtain ⟨next, hnext, hcount', hblended⟩ :=
      hsafe.exists_sweep t (Nat.succ_pos r) (by omega) hcount
    refine ⟨next, ?_, hcount', hblended (i + 1) (by omega) (by omega) w p q hw hp hq⟩
    rw [List.range'_1_concat, List.foldlM_append, hwork, Nat.add_comm 1 r]
    simp only [bind, Except.bind, List.foldlM_cons, hnext]
    rfl
  refine ⟨p, ?_, hp⟩
  simp only [point, hk, hsafe.support_eq, hwork, bind, Except.bind]
  exact entry_eq_ok hentry

theorem curve_eq (hroom : 2 * s.control.length < 2 ^ bits) (tess : Tessellation) :
    curve bits s tess = .ok (s.curve? tess) := by
  cases hdomain : s.domain? with
  | none => simp [curve, curve?, domain_eq hroom, hdomain, bind, Except.bind, pure, Except.pure]
  | some ends =>
    obtain ⟨first, last⟩ := ends
    have hfits := (isDomain_of_domain? hdomain).toFits
    obtain ⟨points, hpoints, -⟩ := exists_mapM_eq_some (r := fun _ _ => True)
      (l := tess.parameters first (last - first) (tess.segments + 1)) fun t _ => by
        obtain ⟨p, -, hp⟩ := point_eq hfits hroom t
        exact ⟨p, hp, trivial⟩
    have hwords := mapM_eq_ok (fun t _ p hp => by
      obtain ⟨q, hq, hq'⟩ := point_eq hfits hroom t
      rw [hp] at hq'
      rwa [Option.some.inj hq']) hpoints
    simp only [curve, curve?, domain_eq hroom, hdomain, hpoints, hwords, bind, Except.bind,
      Option.bind]
    rfl

/-- Evaluation in words meets no fault, whatever the degree, the knots and the number of steps are,
and finds the curve. Behind the checks this holds at every parameter, also at one that compares with
nothing: the search for the span ends between the degree and the last control point, and the point
found is that of the curve. -/
theorem curve_without_fault (s : Spline α) (hroom : 2 * s.control.length < 2 ^ bits) :
    (∀ tess : Tessellation, curve bits s tess = .ok (s.curve? tess)) ∧
      ∀ first last, domain bits s = .ok (some (first, last)) → ∀ t : α, ∃ k p,
        (span bits s t = .ok k ∧ s.span? t = some k ∧ s.degree ≤ k ∧ k ≤ s.control.length - 1) ∧
          point bits s t = .ok p ∧ s.point? t = some p := by
  refine ⟨curve_eq hroom, fun first last hchecked t => ?_⟩
  have hdomain : s.domain? = some (first, last) :=
    Except.ok.inj ((domain_eq hroom).symm.trans hchecked)
  have hfits := (isDomain_of_domain? hdomain).toFits
  obtain ⟨k, hspan⟩ := span_eq hfits hroom t
  obtain ⟨p, hp⟩ := point_eq hfits hroom t
  exact ⟨k, p, hspan, hp⟩

/-- One curve has a knot that is no number and a parameter that is none, the other has the largest
degree. -/
theorem curve_without_fault_no_number :
    let s : Spline Float := ⟨1, [0, 0, 0 / 0, 1, 1], [⟨0, 0⟩, ⟨1, 2⟩, ⟨3, 4⟩]⟩
    let steep : Spline Float := ⟨2 ^ 64 - 1, s.knots, s.control⟩
    2 * s.control.length < 2 ^ 64 ∧ domain 64 s = .ok (some (0, 1)) ∧
      (∃ k p, (span 64 s (0 / 0) = .ok k ∧ 1 ≤ k ∧ k ≤ 2) ∧ point 64 s (0 / 0) = .ok p) ∧
      (∃ line, curve 64 s (.ofNat 4) = .ok (some line)) ∧ curve 64 steep (.ofNat 4) = .ok none := by
  intro s steep
  have hroom : 2 * s.control.length < 2 ^ 64 := by decide
  have hdomain : domain 64 s = .ok (some (0, 1)) := by decide +kernel
  obtain ⟨hcurve, hevery⟩ := curve_without_fault s hroom
  obtain ⟨k, p, ⟨hk, -, hdegree, hlast⟩, hp, -⟩ := hevery 0 1 hdomain (0 / 0)
  have hdrawn : ∃ line, s.curve? (.ofNat 4) = some line :=
    Option.isSome_iff_exists.1 (by decide +kernel)
  obtain ⟨line, hline⟩ := hdrawn
  refine ⟨hroom, hdomain, ⟨k, p, ⟨hk, hdegree, hlast⟩, hp⟩, ⟨line, ?_⟩, ?_⟩
  · rw [hcurve, hline]
  · have hsteep : steep.curve? (.ofNat 4) = none := by decide +kernel
    exact ((curve_without_fault steep hroom).1 _).trans (congrArg Except.ok hsteep)

end Spline.InWords

end Turnery
