import Turnery.Proofs.Geometry.Populated
import Turnery.Proofs.Number.Arithmetic

/-!
# The smallest box

The box of linework is that of its first point, enlarged by one point after the other.
`Bounds.IsAround` says what a box is of a set of points, in whatever order they were taken in: its
sides are the least and the greatest coordinates. Enlarging a box keeps this
(`Bounds.IsAround.enlarge`), and so does a whole run of points (`Bounds.IsAround.foldl_enlarge`).
Boxes around the same points differ in the signs of zeros at most (`Bounds.IsAround.same`).

Which of two equal coordinates is kept depends on the order of the points, but not on how they are
grouped: a box that is enlarged by points is joined to the box of these
(`Bounds.foldl_enlarge_join`).
-/

namespace Turnery

open Number (toRat)

section Lesser

variable {key : Float → ℚ} {s : Set Float} {x y : Float}

/-- Of two doubles the one with the smaller key, the second if the keys are equal. -/
def lesser (key : Float → ℚ) (x y : Float) : Float :=
  if key x < key y then x else y

/-- A double among some whose key is the least. -/
def IsLeastBy (key : Float → ℚ) (s : Set Float) (x : Float) : Prop :=
  x ∈ s ∧ ∀ z ∈ s, key x ≤ key z

theorem lesser_assoc (key : Float → ℚ) (x y z : Float) :
    lesser key (lesser key x y) z = lesser key x (lesser key y z) := by
  unfold lesser
  grind

theorem isFinite_lesser (key : Float → ℚ) (hx : x.isFinite = true) (hy : y.isFinite = true) :
    (lesser key x y).isFinite = true := by
  unfold lesser
  split
  · exact hx
  · exact hy

theorem IsLeastBy.insert (h : IsLeastBy key s x) (y : Float) :
    IsLeastBy key (insert y s) (lesser key x y) := by
  unfold lesser
  split
  · rename_i hlt
    refine ⟨.inr h.1, ?_⟩
    rintro z (rfl | hz)
    · exact hlt.le
    · exact h.2 z hz
  · rename_i hle
    refine ⟨.inl rfl, ?_⟩
    rintro z (rfl | hz)
    · exact le_rfl
    · exact (not_lt.1 hle).trans (h.2 z hz)

theorem isLeastBy_singleton (key : Float → ℚ) (x : Float) : IsLeastBy key {x} x :=
  ⟨rfl, fun _ hz => (congrArg key hz).ge⟩

theorem beq_self_of_isFinite (hx : x.isFinite = true) : (x == x) = true :=
  (Number.beq_iff_toRat_eq hx hx).2 rfl

theorem smaller_eq (hx : x.isFinite = true) (hy : y.isFinite = true) :
    smaller x y = lesser toRat x y := by
  rw [smaller, if_pos (beq_self_of_isFinite hy), lesser]
  simp only [Number.lt_iff_toRat_lt hx hy]

theorem larger_eq (hx : x.isFinite = true) (hy : y.isFinite = true) :
    larger x y = lesser (-toRat) x y := by
  rw [larger, if_pos (beq_self_of_isFinite hy), lesser]
  simp only [Number.lt_iff_toRat_lt hy hx, Pi.neg_apply, neg_lt_neg_iff]

theorem isLeast_iff (hs : ∀ z ∈ s, z.isFinite = true) : IsLeast s x ↔ IsLeastBy toRat s x :=
  and_congr_right fun hx => forall₂_congr fun z hz => Number.le_iff_toRat_le (hs x hx) (hs z hz)

theorem isGreatest_iff (hs : ∀ z ∈ s, z.isFinite = true) :
    IsGreatest s x ↔ IsLeastBy (-toRat) s x := by
  refine and_congr_right fun hx => forall₂_congr fun z hz => ?_
  rw [Number.le_iff_toRat_le (hs z hz) (hs x hx), Pi.neg_apply, Pi.neg_apply, neg_le_neg_iff]

/-- Two least ones are equal as numbers. -/
theorem beq_of_isLeastBy {z : Float} (hkey : ∀ a b, key a = key b → toRat a = toRat b)
    (hs : ∀ z ∈ s, z.isFinite = true) (hx : IsLeastBy key s x) (hz : IsLeastBy key s z) :
    (x == z) = true :=
  (Number.beq_iff_toRat_eq (hs x hx.1) (hs z hz.1)).2
    (hkey x z (le_antisymm (hx.2 z hz.1) (hz.2 x hx.1)))

/-- A difference of doubles in order is not negative, even where it is beyond the largest double. -/
theorem sub_nonneg_of_le (hx : x.isFinite = true) (hy : y.isFinite = true) (h : x ≤ y) :
    0 ≤ y - x := by
  have hnone := Number.isNearest_toRat Number.toRat_zero.1
  rw [Number.toRat_zero.2] at hnone
  exact hnone.le (Number.isNearest_sub hy hx) (sub_nonneg.2 ((Number.le_iff_toRat_le hx hy).1 h))

end Lesser

namespace Bounds

/-- A point lies within a box, its sides included. -/
def Holds (b : Bounds Float) (p : Point Float) : Prop :=
  b.min.x ≤ p.x ∧ p.x ≤ b.max.x ∧ b.min.y ≤ p.y ∧ p.y ≤ b.max.y

/-- Boxes with the same numbers as sides; zeros of either sign are the same number. -/
def Same (b c : Bounds Float) : Prop :=
  b.min.x == c.min.x ∧ b.min.y == c.min.y ∧ b.max.x == c.max.x ∧ b.max.y == c.max.y

/-- The box of two boxes: the smaller ones of the least coordinates, the larger ones of the
greatest. -/
def join (b c : Bounds Float) : Bounds Float where
  min := ⟨smaller b.min.x c.min.x, smaller b.min.y c.min.y⟩
  max := ⟨larger b.max.x c.max.x, larger b.max.y c.max.y⟩

/-- Both corners are finite. -/
structure IsFinite (b : Bounds Float) : Prop where
  min : b.min.isFinite = true
  max : b.max.isFinite = true

/-- The sides of a box are the least and the greatest coordinates of some points. -/
structure IsAround (b : Bounds Float) (points : Set (Point Float)) : Prop where
  left : IsLeast (Point.x '' points) b.min.x
  bottom : IsLeast (Point.y '' points) b.min.y
  right : IsGreatest (Point.x '' points) b.max.x
  top : IsGreatest (Point.y '' points) b.max.y

variable {b c : Bounds Float} {p : Point Float} {points : Set (Point Float)}

theorem enlarge_eq_join (b : Bounds Float) (p : Point Float) : b.enlarge p = b.join ⟨p, p⟩ := rfl

/-- A box of finite corners, joined to another: each side is decided by a key of the coordinates. -/
theorem IsFinite.join_eq (hb : b.IsFinite) (hc : c.IsFinite) : b.join c =
    ⟨⟨lesser toRat b.min.x c.min.x, lesser toRat b.min.y c.min.y⟩,
      ⟨lesser (-toRat) b.max.x c.max.x, lesser (-toRat) b.max.y c.max.y⟩⟩ := by
  obtain ⟨hleft, hbottom⟩ := Point.isFinite_iff.1 hb.min
  obtain ⟨hright, htop⟩ := Point.isFinite_iff.1 hb.max
  obtain ⟨hleft', hbottom'⟩ := Point.isFinite_iff.1 hc.min
  obtain ⟨hright', htop'⟩ := Point.isFinite_iff.1 hc.max
  rw [join, smaller_eq hleft hleft', smaller_eq hbottom hbottom', larger_eq hright hright',
    larger_eq htop htop']

theorem IsFinite.join (hb : b.IsFinite) (hc : c.IsFinite) : (b.join c).IsFinite := by
  obtain ⟨hleft, hbottom⟩ := Point.isFinite_iff.1 hb.min
  obtain ⟨hright, htop⟩ := Point.isFinite_iff.1 hb.max
  obtain ⟨hleft', hbottom'⟩ := Point.isFinite_iff.1 hc.min
  obtain ⟨hright', htop'⟩ := Point.isFinite_iff.1 hc.max
  rw [hb.join_eq hc]
  exact ⟨Point.isFinite_iff.2 ⟨isFinite_lesser _ hleft hleft', isFinite_lesser _ hbottom hbottom'⟩,
    Point.isFinite_iff.2 ⟨isFinite_lesser _ hright hright', isFinite_lesser _ htop htop'⟩⟩

theorem join_assoc {d : Bounds Float} (hb : b.IsFinite) (hc : c.IsFinite) (hd : d.IsFinite) :
    (b.join c).join d = b.join (c.join d) := by
  rw [(hb.join hc).join_eq hd, hb.join_eq (hc.join hd), hb.join_eq hc, hc.join_eq hd]
  simp only [lesser_assoc]

theorem forall_isFinite_x (h : ∀ p ∈ points, p.isFinite = true) :
    ∀ x ∈ Point.x '' points, x.isFinite = true := by
  rintro _ ⟨p, hp, rfl⟩
  exact (Point.isFinite_iff.1 (h p hp)).1

theorem forall_isFinite_y (h : ∀ p ∈ points, p.isFinite = true) :
    ∀ y ∈ Point.y '' points, y.isFinite = true := by
  rintro _ ⟨p, hp, rfl⟩
  exact (Point.isFinite_iff.1 (h p hp)).2

theorem forall_isFinite_insert (h : ∀ p ∈ points, p.isFinite = true) (hp : p.isFinite = true) :
    ∀ q ∈ insert p points, q.isFinite = true := by
  rintro q (rfl | hq)
  · exact hp
  · exact h q hq

/-- The sides of a box around finite points in terms of keys. -/
theorem isAround_iff (h : ∀ p ∈ points, p.isFinite = true) : b.IsAround points ↔
    (IsLeastBy toRat (Point.x '' points) b.min.x ∧ IsLeastBy toRat (Point.y '' points) b.min.y) ∧
      IsLeastBy (-toRat) (Point.x '' points) b.max.x ∧
        IsLeastBy (-toRat) (Point.y '' points) b.max.y := by
  have hx := forall_isFinite_x h
  have hy := forall_isFinite_y h
  rw [← isLeast_iff hx, ← isLeast_iff hy, ← isGreatest_iff hx, ← isGreatest_iff hy]
  exact ⟨fun h => ⟨⟨h.left, h.bottom⟩, h.right, h.top⟩, fun ⟨⟨hl, hb⟩, hr, ht⟩ => ⟨hl, hb, hr, ht⟩⟩

theorem IsAround.isFinite (h : b.IsAround points) (hpoints : ∀ p ∈ points, p.isFinite = true) :
    b.IsFinite :=
  ⟨Point.isFinite_iff.2 ⟨forall_isFinite_x hpoints _ h.left.1,
    forall_isFinite_y hpoints _ h.bottom.1⟩,
    Point.isFinite_iff.2 ⟨forall_isFinite_x hpoints _ h.right.1,
      forall_isFinite_y hpoints _ h.top.1⟩⟩

theorem isAround_singleton (hp : p.isFinite = true) : IsAround ⟨p, p⟩ {p} := by
  rw [isAround_iff (by rintro q rfl; exact hp), Set.image_singleton, Set.image_singleton]
  exact ⟨⟨isLeastBy_singleton _ _, isLeastBy_singleton _ _⟩, isLeastBy_singleton _ _,
    isLeastBy_singleton _ _⟩

/-- One more point. -/
theorem IsAround.enlarge (h : b.IsAround points) (hpoints : ∀ p ∈ points, p.isFinite = true)
    (hp : p.isFinite = true) : (b.enlarge p).IsAround (insert p points) := by
  have hpoint : IsFinite ⟨p, p⟩ := ⟨hp, hp⟩
  obtain ⟨⟨hleft, hbottom⟩, hright, htop⟩ := (isAround_iff hpoints).1 h
  rw [isAround_iff (forall_isFinite_insert hpoints hp), enlarge_eq_join,
    (h.isFinite hpoints).join_eq hpoint, Set.image_insert_eq, Set.image_insert_eq]
  exact ⟨⟨hleft.insert p.x, hbottom.insert p.y⟩, hright.insert p.x, htop.insert p.y⟩

/-- A run of points. -/
theorem IsAround.foldl_enlarge (h : b.IsAround points) (hpoints : ∀ p ∈ points, p.isFinite = true)
    {ps : List (Point Float)} (hps : ∀ p ∈ ps, p.isFinite = true) :
    (ps.foldl Bounds.enlarge b).IsAround ({p | p ∈ ps} ∪ points) := by
  induction ps generalizing b points with
  | nil => simpa using h
  | cons p ps ih =>
    obtain ⟨hp, hps⟩ := List.forall_mem_cons.1 hps
    rw [List.foldl_cons, List.setOfPred_mem_cons, Set.insert_union, ← Set.union_insert]
    exact ih (h.enlarge hpoints hp) (forall_isFinite_insert hpoints hp) hps

/-- The box of a list of points is the one around them. -/
theorem isAround_of_ofPoints {ps : List (Point Float)} (hps : ∀ p ∈ ps, p.isFinite = true)
    (h : ofPoints ps = some b) : b.IsAround {p | p ∈ ps} := by
  cases ps with
  | nil => cases h
  | cons p ps =>
    obtain ⟨hp, hps⟩ := List.forall_mem_cons.1 hps
    have hrun := (isAround_singleton hp).foldl_enlarge (by rintro q rfl; exact hp) hps
    rw [List.setOfPred_mem_cons, ← Set.union_singleton, ← Option.some.inj h]
    exact hrun

theorem IsAround.holds (h : b.IsAround points) (hp : p ∈ points) : b.Holds p :=
  ⟨h.left.2 (Set.mem_image_of_mem _ hp), h.right.2 (Set.mem_image_of_mem _ hp),
    h.bottom.2 (Set.mem_image_of_mem _ hp), h.top.2 (Set.mem_image_of_mem _ hp)⟩

/-- No smaller box holds all the points. -/
theorem IsAround.holds_corners (h : b.IsAround points) (hc : ∀ p ∈ points, c.Holds p) :
    c.Holds b.min ∧ c.Holds b.max := by
  obtain ⟨left, hleft, hx⟩ := h.left.1
  obtain ⟨bottom, hbottom, hy⟩ := h.bottom.1
  obtain ⟨right, hright, hx'⟩ := h.right.1
  obtain ⟨top, htop, hy'⟩ := h.top.1
  have hl := hc left hleft
  have hb := hc bottom hbottom
  have hr := hc right hright
  have ht := hc top htop
  rw [Holds, hx] at hl
  rw [Holds, hy] at hb
  rw [Holds, hx'] at hr
  rw [Holds, hy'] at ht
  exact ⟨⟨hl.1, hl.2.1, hb.2.2⟩, hr.1, hr.2.1, ht.2.2⟩

theorem IsAround.nonneg (h : b.IsAround points) (hpoints : ∀ p ∈ points, p.isFinite = true) :
    0 ≤ b.width ∧ 0 ≤ b.height := by
  have hfinite := h.isFinite hpoints
  obtain ⟨hleft, hbottom⟩ := Point.isFinite_iff.1 hfinite.min
  obtain ⟨hright, htop⟩ := Point.isFinite_iff.1 hfinite.max
  exact ⟨sub_nonneg_of_le hleft hright (h.left.2 h.right.1),
    sub_nonneg_of_le hbottom htop (h.bottom.2 h.top.1)⟩

/-- There is one box around points. -/
theorem IsAround.same (h : b.IsAround points) (h' : c.IsAround points)
    (hpoints : ∀ p ∈ points, p.isFinite = true) :
    b.Same c := by
  obtain ⟨⟨hleft, hbottom⟩, hright, htop⟩ := (isAround_iff hpoints).1 h
  obtain ⟨⟨hleft', hbottom'⟩, hright', htop'⟩ := (isAround_iff hpoints).1 h'
  have hx := forall_isFinite_x hpoints
  have hy := forall_isFinite_y hpoints
  have hneg : ∀ a b : Float, (-toRat) a = (-toRat) b → toRat a = toRat b := fun _ _ => neg_inj.1
  exact ⟨beq_of_isLeastBy (fun _ _ => id) hx hleft hleft',
    beq_of_isLeastBy (fun _ _ => id) hy hbottom hbottom', beq_of_isLeastBy hneg hx hright hright',
      beq_of_isLeastBy hneg hy htop htop'⟩

/-- The order of points, and how often each of them occurs, plays no part. -/
theorem rel_same_ofPoints {ps qs : List (Point Float)} (hps : ∀ p ∈ ps, p.isFinite = true)
    (hsame : ∀ p, p ∈ qs ↔ p ∈ ps) : Option.Rel Same (ofPoints qs) (ofPoints ps) := by
  cases ps with
  | nil =>
    obtain rfl : qs = [] :=
      List.eq_nil_iff_forall_not_mem.2 fun p hp => List.not_mem_nil ((hsame p).1 hp)
    exact .none
  | cons p ps =>
    cases qs with
    | nil => exact absurd ((hsame p).2 List.mem_cons_self) List.not_mem_nil
    | cons q qs =>
      have hqs : ∀ r ∈ q :: qs, r.isFinite = true := fun r hr => hps r ((hsame r).1 hr)
      have hset : {r | r ∈ q :: qs} = {r | r ∈ p :: ps} := Set.ext hsame
      have haround := isAround_of_ofPoints hps rfl
      have haround' := isAround_of_ofPoints hqs rfl
      rw [hset] at haround'
      exact .some (haround'.same haround hps)

theorem foldl_enlarge_join {ps : List (Point Float)} (hb : b.IsFinite) (hc : c.IsFinite)
    (hps : ∀ p ∈ ps, p.isFinite = true) :
    ps.foldl enlarge (b.join c) = b.join (ps.foldl enlarge c) := by
  induction ps generalizing c with
  | nil => rfl
  | cons p ps ih =>
    obtain ⟨hp, hps⟩ := List.forall_mem_cons.1 hps
    have hpoint : IsFinite ⟨p, p⟩ := ⟨hp, hp⟩
    rw [List.foldl_cons, List.foldl_cons, enlarge_eq_join, join_assoc hb hc hpoint]
    exact ih (hc.join hpoint) hps

/-- The box of points and others is joined from the boxes of both. -/
theorem ofPoints_append {ps qs : List (Point Float)} (hps : ∀ p ∈ ps, p.isFinite = true)
    (hqs : ∀ q ∈ qs, q.isFinite = true) :
    ofPoints (ps ++ qs) = Option.merge join (ofPoints ps) (ofPoints qs) := by
  cases ps with
  | nil => rw [List.nil_append, ofPoints, Option.merge_none_left]
  | cons p ps =>
    cases qs with
    | nil =>
      rw [List.append_nil, show ofPoints ([] : List (Point Float)) = none from rfl,
        Option.merge_none_right]
    | cons q qs =>
      obtain ⟨hq, hqs⟩ := List.forall_mem_cons.1 hqs
      have hfirst := (isAround_of_ofPoints hps rfl).isFinite hps
      have hpoint : IsFinite ⟨q, q⟩ := ⟨hq, hq⟩
      rw [List.cons_append, ofPoints, List.foldl_append, List.foldl_cons, enlarge_eq_join,
        foldl_enlarge_join hfirst hpoint hqs]
      rfl

end Bounds

/-- The box of linework whose points are finite is missing exactly if there is no point, and is
otherwise the smallest that holds all of them; it does not depend on their order, and that of
linework extended by other linework is joined from the boxes of both. -/
theorem Linework.bounds_smallest (work : Linework Float)
    (hfinite : ∀ p ∈ work.points, p.isFinite = true) :
    (work.bounds = none ↔ work.points = []) ∧
      (∀ b, work.bounds = some b →
        b.IsAround {p | p ∈ work.points} ∧ (∀ p ∈ work.points, b.Holds p) ∧
          (∀ c : Bounds Float, (∀ p ∈ work.points, c.Holds p) → c.Holds b.min ∧ c.Holds b.max) ∧
          0 ≤ b.width ∧ 0 ≤ b.height) ∧
      (∀ other : Linework Float, (∀ p, p ∈ other.points ↔ p ∈ work.points) →
        Option.Rel Bounds.Same other.bounds work.bounds) ∧
      ∀ other : Linework Float, (∀ p ∈ other.points, p.isFinite = true) →
        (work.extend other).bounds = Option.merge Bounds.join work.bounds other.bounds := by
  refine ⟨bounds_eq_none_iff, ?smallest, fun other => Bounds.rel_same_ofPoints hfinite, ?extended⟩
  case smallest =>
    intro b hb
    have haround := Bounds.isAround_of_ofPoints hfinite hb
    exact ⟨haround, fun p hp => haround.holds hp, fun c hc => haround.holds_corners hc,
      haround.nonneg hfinite⟩
  case extended =>
    intro other hother
    rw [bounds, points_extend, Bounds.ofPoints_append hfinite hother]
    rfl

/-- Empty polylines stand before, between and behind the points, and the box is the same in another
order. -/
theorem Linework.bounds_smallest_with_gaps :
    let work : Linework Float := ⟨[⟨[]⟩, ⟨[⟨3, -2⟩, ⟨-1, 4⟩]⟩, ⟨[]⟩, ⟨[⟨0.5, -6⟩]⟩]⟩
    let other : Linework Float := ⟨[⟨[⟨0.5, -6⟩]⟩, ⟨[⟨-1, 4⟩, ⟨3, -2⟩]⟩, ⟨[]⟩]⟩
    let box : Bounds Float := ⟨⟨-1, -6⟩, ⟨3, 4⟩⟩
    (∀ p ∈ work.points, p.isFinite = true) ∧ work.bounds = some box ∧
      box.IsAround {p | p ∈ work.points} ∧
      Option.Rel Bounds.Same other.bounds work.bounds ∧
      (work.extend other).bounds = Option.merge Bounds.join work.bounds other.bounds := by
  intro work other box
  have hfinite : ∀ p ∈ work.points, p.isFinite = true := by decide +kernel
  have hbox : work.bounds = some box := by decide +kernel
  have hreordered : other.points.Perm work.points := by decide +kernel
  have hsame : ∀ p, p ∈ other.points ↔ p ∈ work.points := fun _ => hreordered.mem_iff
  obtain ⟨-, hsmallest, horder, hextended⟩ := bounds_smallest work hfinite
  exact ⟨hfinite, hbox, (hsmallest box hbox).1, horder other hsame,
    hextended other fun p hp => hfinite p ((hsame p).1 hp)⟩

end Turnery
