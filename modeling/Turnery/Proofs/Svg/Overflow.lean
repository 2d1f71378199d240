import Turnery.Proofs.Svg.Strokes

/-!
# Overflow of path data

Path data is read into doubles without a look at their size. As long as its numbers are finite and
no relative command adds up to more than a double can hold, the pen stays among the finite points;
`isFinite_of_mem_points` says so of the points that it draws.
-/

namespace Turnery.Svg.PathData

/-- A number of the path data is too large for a double. -/
def HasHugeNumber (text : List Char) : Prop :=
  ∃ value, .number value ∈ tokens text ∧ value.isFinite = false

/-- A relative command adds finite numbers to a finite point and gets a sum that is too large for a
double. -/
def HasHugeSum (text : List Char) : Prop :=
  ∃ stroke ∈ strokes text, stroke.command.relative = true ∧ stroke.source.isFinite = true ∧
    (∀ a ∈ stroke.args, a.isFinite = true) ∧ stroke.target.isFinite = false

namespace Pen

/-- The end of an absolute command consists of its numbers and of coordinates of the place where it
starts. -/
theorem isFinite_target {command : Command} {args : List Float} {position target : Point Float}
    (reached : target? command args position = some target) (absolute : command.relative = false)
    (hargs : ∀ a ∈ args, a.isFinite = true) (hposition : position.isFinite = true) :
    target.isFinite = true := by
  obtain ⟨hx, hy⟩ := Point.isFinite_iff.1 hposition
  have hreverse : ∀ a ∈ args.reverse, a.isFinite = true :=
    fun a ha => hargs a (List.mem_reverse.1 ha)
  simp only [target?, absolute, Bool.false_eq_true, if_false] at reached
  rw [Point.isFinite_iff]
  split at reached
  · rename_i hlast
    rw [hlast] at hreverse
    obtain rfl := Option.some.inj reached
    exact ⟨hreverse _ List.mem_cons_self, hy⟩
  · rename_i hlast
    rw [hlast] at hreverse
    obtain rfl := Option.some.inj reached
    exact ⟨hx, hreverse _ List.mem_cons_self⟩
  · nomatch reached
  · nomatch reached
  · rename_i hlast _ _
    rw [hlast] at hreverse
    obtain rfl := Option.some.inj reached
    exact ⟨hreverse _ (List.mem_cons_of_mem _ List.mem_cons_self), hreverse _ List.mem_cons_self⟩
  · nomatch reached

/-- The numbers that wait come from the tokens. -/
theorem mem_args_step {pen : Pen} {token : Token} {a : Float} (h : a ∈ (pen.step token).args) :
    a ∈ pen.args ∨ token = .number a := by
  cases token with
  | command taken =>
    obtain ⟨verb, relative⟩ := taken
    cases verb <;> nomatch h
  | number value =>
    simp only [step, takeNumber] at h
    split at h
    · exact .inl h
    · rename_i command hcommand
      split at h
      · rcases List.mem_append.1 h with h | h
        · exact .inl h
        · exact .inr (congrArg Token.number (List.mem_singleton.1 h).symm)
      · split at h
        · obtain ⟨verb, relative⟩ := command
          cases verb <;> nomatch h
        · nomatch h

theorem mem_args_stroke? {pen : Pen} {token : Token} {stroke : Stroke}
    (h : pen.stroke? token = some stroke) {a : Float} (ha : a ∈ stroke.args) :
    a ∈ pen.args ∨ token = .number a := by
  cases token with
  | command taken =>
    rw [stroke?, Option.ite_none_right_eq_some] at h
    obtain rfl := Option.some.inj h.2
    nomatch ha
  | number value =>
    obtain ⟨command, -, h⟩ := Option.bind_eq_some_iff.1 h
    rw [Option.ite_none_left_eq_some] at h
    obtain ⟨target, -, rfl⟩ := Option.map_eq_some_iff.1 h.2
    rcases List.mem_append.1 ha with ha | ha
    · exact .inl ha
    · exact .inr (congrArg Token.number (List.mem_singleton.1 ha).symm)

/-- The pen is at a finite point, goes back to one, and holds finite numbers. -/
structure IsFinite (pen : Pen) : Prop where
  position : pen.position.isFinite = true
  subpathStart : pen.subpathStart.isFinite = true
  args : ∀ a ∈ pen.args, a.isFinite = true

variable {pen : Pen} {token : Token}

/-- A finite pen carries a command out to a finite point if relative commands do not overflow. -/
theorem IsFinite.target (h : pen.IsFinite)
    (hnumber : ∀ value, token = .number value → value.isFinite = true) {stroke : Stroke}
    (hstroke : pen.stroke? token = some stroke)
    (hrelative : stroke.command.relative = true → (∀ a ∈ stroke.args, a.isFinite = true) →
      stroke.target.isFinite = true) :
    stroke.target.isFinite = true := by
  have hargs : ∀ a ∈ stroke.args, a.isFinite = true := by
    intro a ha
    rcases mem_args_stroke? hstroke ha with hold | hnew
    · exact h.args a hold
    · exact hnumber a hnew
  have hfollows := follows_step pen token
  rw [hstroke] at hfollows
  cases hfollows with
  | closed => exact h.subpathStart
  | @moved command args target reached =>
    cases hcommand : command.relative with
    | false => exact isFinite_target reached hcommand hargs h.position
    | true => exact hrelative hcommand hargs

theorem IsFinite.step (h : pen.IsFinite)
    (hnumber : ∀ value, token = .number value → value.isFinite = true)
    (htarget : ∀ stroke, pen.stroke? token = some stroke → stroke.target.isFinite = true) :
    (pen.step token).IsFinite where
  position := by
    rw [(follows_step pen token).position_eq]
    cases hstroke : pen.stroke? token with
    | none => exact h.position
    | some stroke => exact htarget stroke hstroke
  subpathStart := by
    have hfollows := follows_step pen token
    cases hstroke : pen.stroke? token with
    | none =>
      rw [hstroke] at hfollows
      cases hfollows with
      | idle _ _ subpathStart => exact subpathStart ▸ h.subpathStart
    | some stroke =>
      have hfinite := htarget stroke hstroke
      rw [hstroke] at hfollows
      cases hfollows with
      | closed _ _ _ _ subpathStart => exact subpathStart ▸ h.subpathStart
      | moved _ _ _ subpathStart =>
        rw [subpathStart]
        split
        · exact hfinite
        · exact h.subpathStart
  args := by
    intro a ha
    rcases mem_args_step ha with hold | hnew
    · exact h.args a hold
    · exact hnumber a hnew

/-- Over a whole run, all strokes of a finite pen end at finite points if nothing overflows. -/
theorem IsFinite.strokes {read : List Token} (h : pen.IsFinite)
    (hnumber : ∀ value, .number value ∈ read → value.isFinite = true)
    (hrelative : ∀ stroke ∈ pen.strokes read, stroke.command.relative = true →
      stroke.source.isFinite = true → (∀ a ∈ stroke.args, a.isFinite = true) →
      stroke.target.isFinite = true) :
    ∀ stroke ∈ pen.strokes read, stroke.target.isFinite = true := by
  induction read generalizing pen with
  | nil => exact List.forall_mem_nil _
  | cons token rest ih =>
    rw [Pen.strokes, List.forall_mem_append] at hrelative ⊢
    have hvalue : ∀ value, token = .number value → value.isFinite = true := by
      rintro value rfl
      exact hnumber value List.mem_cons_self
    have htarget : ∀ stroke, pen.stroke? token = some stroke → stroke.target.isFinite = true := by
      intro stroke hstroke
      have hsource : stroke.source = pen.position :=
        Follows.source_eq (hstroke ▸ follows_step pen token)
      refine h.target hvalue hstroke fun hcommand => ?_
      exact hrelative.1 stroke (Option.mem_toList.2 hstroke) hcommand (hsource ▸ h.position)
    refine ⟨fun stroke hstroke => htarget stroke (Option.mem_toList.1 hstroke), ?_⟩
    exact ih (h.step hvalue htarget) (fun value hmem => hnumber value (List.mem_cons_of_mem _ hmem))
      hrelative.2

theorem isFinite_start : Pen.start.IsFinite where
  position := by decide +kernel
  subpathStart := by decide +kernel
  args := List.forall_mem_nil _

end Pen

/-- A point of path data is finite unless a number or a relative sum of the path data is too
large. -/
theorem isFinite_of_mem_points {text : List Char} (hnumber : ¬HasHugeNumber text)
    (hsum : ¬HasHugeSum text) {p : Point Float} (hp : p ∈ (linework text).points) :
    p.isFinite = true := by
  rw [points_linework] at hp
  obtain ⟨stroke, hstroke, rfl⟩ := List.mem_map.1 hp
  refine Pen.isFinite_start.strokes (fun value hvalue => ?_)
    (fun other hother hrelative hsource hargs => ?_) stroke
    (List.mem_filter.1 hstroke).1
  · cases hfinite : value.isFinite with
    | false => exact absurd ⟨value, hvalue, hfinite⟩ hnumber
    | true => rfl
  · cases hfinite : other.target.isFinite with
    | false => exact absurd ⟨other, hother, hrelative, hsource, hargs, hfinite⟩ hsum
    | true => rfl

end Turnery.Svg.PathData
