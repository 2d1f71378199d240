import Mathlib.Data.List.Chain
import Mathlib.Data.List.Induction
import Turnery.Proofs.Svg.Strokes

/-!
# Segments of path data

Two points that follow each other in a polyline bound a segment that a tool is going to cut. In path
data of moves, lines and closes the second point is always the end of a line. That line starts at
the first point unless the pen was taken away from it in between: `segments_linework` says that only
closes can do so. They do (`linework_relative_line_behind_close`): a close takes the pen back, but
the polyline goes on from where it was left.
-/

namespace Turnery.Svg.PathData

def isStraightVerb : Verb → Bool
  | .moveTo | .lineTo | .close => true
  | _ => false

/-- The token is such a command, or a number. -/
def isStraightToken : Token → Bool
  | .command command => isStraightVerb command.verb
  | .number _ => true

/-- The path data has no commands but moves, lines and closes. -/
def IsStraight (text : List Char) : Prop :=
  ∀ token ∈ tokens text, isStraightToken token = true

instance (text : List Char) : Decidable (IsStraight text) :=
  List.decidableBAll _ (tokens text)

/-- The last stroke that draws ends at the point. -/
def LeftAt (past : List Stroke) (p : Point Float) : Prop :=
  ∃ before last skips, past = before ++ last :: skips ∧ last.draws = true ∧ last.target = p ∧
    ∀ skip ∈ skips, skip.draws = false

/-- A line ends at the second point, and the strokes before it have left the drawing at the
first. -/
def Joined (past : List Stroke) (p q : Point Float) : Prop :=
  ∃ before line after, past = before ++ line :: after ∧ LeftAt before p ∧
    line.command.verb = .lineTo ∧ line.target = q

section Canvas

variable {past : List Stroke} {stroke : Stroke} {p q : Point Float}

theorem leftAt_concat (h : stroke.draws = true) : LeftAt (past ++ [stroke]) stroke.target :=
  ⟨past, stroke, [], rfl, h, rfl, List.forall_mem_nil _⟩

theorem LeftAt.skip (h : LeftAt past p) (hskip : stroke.draws = false) :
    LeftAt (past ++ [stroke]) p := by
  obtain ⟨before, last, skips, rfl, hlast, htarget, hskips⟩ := h
  refine ⟨before, last, skips ++ [stroke], by simp, hlast, htarget, ?_⟩
  rw [List.forall_mem_append, List.forall_mem_singleton]
  exact ⟨hskips, hskip⟩

theorem LeftAt.joined (h : LeftAt past p) (hline : stroke.command.verb = .lineTo) :
    Joined (past ++ [stroke]) p stroke.target :=
  ⟨past, stroke, [], rfl, h, hline, rfl⟩

theorem Joined.concat (h : Joined past p q) : Joined (past ++ [stroke]) p q := by
  obtain ⟨before, line, after, rfl, hleft, hline, htarget⟩ := h
  exact ⟨before, line, after ++ [stroke], by simp, hleft, hline, htarget⟩

/-- What holds of a canvas and the strokes on it. -/
structure Canvas.IsJoined (past : List Stroke) (canvas : Canvas) : Prop where
  drawn : ∀ line ∈ canvas.drawn.polylines, line.points.IsChain (Joined past)
  current : canvas.current.IsChain (Joined past)
  leftAt : ∀ p, canvas.current.getLast? = some p → LeftAt past p

/-- One more stroke joins its end to the point at which the drawing was left, if it joins
anything. -/
theorem Canvas.IsJoined.add {canvas : Canvas} (h : canvas.IsJoined past) :
    (canvas.add stroke).IsJoined (past ++ [stroke]) := by
  have hdrawn : ∀ line ∈ canvas.drawn.polylines, line.points.IsChain (Joined (past ++ [stroke])) :=
    fun line hline => (h.drawn line hline).imp fun _ _ => Joined.concat
  have hcurrent : canvas.current.IsChain (Joined (past ++ [stroke])) :=
    h.current.imp fun _ _ => Joined.concat
  obtain ⟨hverb, hadd⟩ | ⟨hverb, hadd⟩ | ⟨hskip, hadd⟩ := canvas.add_cases stroke
  · rw [hadd]
    refine ⟨fun line hline => ?_, List.isChain_singleton _, fun p hp => ?_⟩
    · rw [Linework.polylines_push, List.mem_append, List.mem_filter, List.mem_singleton] at hline
      obtain hold | ⟨rfl, -⟩ := hline
      · exact hdrawn line hold
      · exact hcurrent
    · obtain rfl : stroke.target = p := Option.some.inj hp
      exact leftAt_concat (draws_of_moveTo hverb)
  · rw [hadd]
    refine ⟨hdrawn, ?_, fun p hp => ?_⟩
    · refine List.isChain_append.2 ⟨hcurrent, List.isChain_singleton _, fun p hp q hq => ?_⟩
      obtain rfl : stroke.target = q := Option.some.inj hq
      exact (h.leftAt p hp).joined hverb
    · obtain rfl : stroke.target = p := Option.some.inj (List.getLast?_concat.symm.trans hp)
      exact leftAt_concat (draws_of_lineTo hverb)
  · rw [hadd]
    exact ⟨hdrawn, hcurrent, fun p hp => (h.leftAt p hp).skip hskip⟩

/-- What is joined stays joined, whatever the strokes are. -/
theorem isJoined_ofStrokes (past : List Stroke) : (Canvas.ofStrokes past).IsJoined past := by
  induction past using List.reverseRecOn with
  | nil => exact ⟨by simp [Canvas.ofStrokes], List.isChain_nil, fun p hp => nomatch hp⟩
  | append_singleton past stroke ih =>
    rw [Canvas.ofStrokes_concat]
    exact ih.add

/-- The points of a polyline are joined by lines. -/
theorem Canvas.IsJoined.finish {canvas : Canvas} (h : canvas.IsJoined past) {line : Polyline Float}
    (hline : line ∈ canvas.finish.polylines) : line.points.IsChain (Joined past) := by
  rw [Canvas.finish, Linework.polylines_push, List.mem_append, List.mem_filter, List.mem_singleton]
    at hline
  obtain hdrawn | ⟨rfl, -⟩ := hline
  · exact h.drawn line hdrawn
  · exact h.current

end Canvas

section Verbs

variable {V : Verb → Prop}

/-- A token leaves the pen with its command, the command it had, or lines. -/
theorem Pen.verb_command_step (hline : V .lineTo) {pen : Pen}
    (hpen : ∀ command, pen.command = some command → V command.verb) {token : Token}
    (htoken : ∀ command, token = .command command → V command.verb) :
    ∀ command, (pen.step token).command = some command → V command.verb := by
  intro command h
  cases token with
  | command taken =>
    obtain ⟨verb, relative⟩ := taken
    cases verb with
    | close => nomatch h
    | _ =>
      obtain rfl := Option.some.inj h
      exact htoken _ rfl
  | number value =>
    simp only [step, takeNumber] at h
    split at h
    · rename_i hnone
      rw [hnone] at h
      nomatch h
    · rename_i waiting hwaiting
      have hkept : V waiting.verb := hpen waiting hwaiting
      split at h
      · obtain rfl := Option.some.inj (hwaiting.symm.trans h)
        exact hkept
      · split at h
        -- Only a move that is carried out changes the command.
        · obtain ⟨verb, relative⟩ := waiting
          cases verb with
          | moveTo =>
            obtain rfl := Option.some.inj h
            exact hline
          | _ =>
            obtain rfl := Option.some.inj (hwaiting.symm.trans h)
            exact hkept
        · obtain rfl := Option.some.inj (hwaiting.symm.trans h)
          exact hkept

theorem Pen.verb_stroke? {pen : Pen} (hpen : ∀ command, pen.command = some command → V command.verb)
    {token : Token} (htoken : ∀ command, token = .command command → V command.verb)
    {stroke : Stroke} (h : pen.stroke? token = some stroke) : V stroke.command.verb := by
  cases token with
  | command taken =>
    rw [stroke?, Option.ite_none_right_eq_some] at h
    obtain ⟨-, h⟩ := h
    obtain rfl := Option.some.inj h
    exact htoken taken rfl
  | number value =>
    obtain ⟨command, hcommand, h⟩ := Option.bind_eq_some_iff.1 h
    rw [Option.ite_none_left_eq_some] at h
    obtain ⟨target, -, rfl⟩ := Option.map_eq_some_iff.1 h.2
    exact hpen command hcommand

/-- Strokes are lines, or have the commands of the tokens. -/
theorem Pen.verb_of_mem_strokes (hline : V .lineTo) {pen : Pen} {read : List Token}
    (hpen : ∀ command, pen.command = some command → V command.verb)
    (hread : ∀ command, .command command ∈ read → V command.verb) :
    ∀ stroke ∈ pen.strokes read, V stroke.command.verb := by
  induction read generalizing pen with
  | nil => exact List.forall_mem_nil _
  | cons token rest ih =>
    have htoken : ∀ command, token = .command command → V command.verb := by
      rintro command rfl
      exact hread command List.mem_cons_self
    intro stroke hstroke
    rw [strokes, List.mem_append, Option.mem_toList] at hstroke
    obtain hfirst | hrest := hstroke
    · exact verb_stroke? hpen htoken hfirst
    · exact ih (verb_command_step hline hpen htoken)
        (fun command hmem => hread command (List.mem_cons_of_mem _ hmem)) stroke hrest

end Verbs

theorem eq_close_of_isStraightVerb {stroke : Stroke}
    (hverb : isStraightVerb stroke.command.verb = true) (hskip : stroke.draws = false) :
    stroke.command.verb = .close := by
  unfold Stroke.draws at hskip
  revert hverb hskip
  cases stroke.command.verb <;> simp [isStraightVerb]

/-- In path data of moves, lines and closes, the second of two neighbouring points is the end of a
line. The pen has come to the first point by a move or a line, and nothing but closes has moved it
before it starts the line. -/
theorem segments_linework {text : List Char} (straight : IsStraight text)
    {polyline : Polyline Float} (hpolyline : polyline ∈ (linework text).polylines)
    {front back : List (Point Float)} {p q : Point Float}
    (hpoints : polyline.points = front ++ p :: q :: back) :
    ∃ before last closes line after,
      strokes text = before ++ last :: (closes ++ line :: after) ∧
      last.draws = true ∧ last.target = p ∧ (∀ close ∈ closes, close.command.verb = .close) ∧
      line.command.verb = .lineTo ∧ line.target = q ∧ line.source = placeAfter p closes := by
  rw [linework_eq_finish] at hpolyline
  have hchain := (isJoined_ofStrokes (strokes text)).finish hpolyline
  rw [hpoints, List.isChain_append_cons_cons] at hchain
  obtain ⟨_, line, after, hstrokes, hleft, hline, htarget⟩ := hchain.2.1
  obtain ⟨before, last, closes, rfl, hdraws, hlast, hskips⟩ := hleft
  have hsource := Pen.source_eq_placeAfter hstrokes
  rw [placeAfter_append, placeAfter_cons, hlast] at hsource
  rw [List.append_assoc, List.cons_append] at hstrokes
  refine ⟨before, last, closes, line, after, hstrokes, hdraws, hlast, fun close hclose => ?_, hline,
    htarget, hsource⟩
  have hmem : close ∈ strokes text := by simp [hstrokes, hclose]
  -- A stroke that does not draw has a straight verb too, and only a close is such a verb.
  have hverb : isStraightVerb close.command.verb = true :=
    Pen.verb_of_mem_strokes (V := fun verb => isStraightVerb verb = true) rfl
      (fun _ h => by cases h)
      (fun command h => straight (.command command) h) close hmem
  exact eq_close_of_isStraightVerb hverb (hskips close hclose)

/-- A line behind a close is drawn from the last point of the polyline and carried out from the
subpath start. -/
theorem segments_linework_line_behind_close :
    let text := "M0 0L10 0ZL5 5".toList
    let polyline : Polyline Float := ⟨[⟨0, 0⟩, ⟨10, 0⟩, ⟨5, 5⟩]⟩
    (IsStraight text ∧ polyline ∈ (linework text).polylines ∧
        polyline.points = [⟨0, 0⟩] ++ ⟨10, 0⟩ :: ⟨5, 5⟩ :: []) ∧
      ∃ before last closes line after,
        strokes text = before ++ last :: (closes ++ line :: after) ∧
        last.draws = true ∧ last.target = ⟨10, 0⟩ ∧
          (∀ close ∈ closes, close.command.verb = .close) ∧
        line.command.verb = .lineTo ∧ line.target = ⟨5, 5⟩ ∧
            line.source = placeAfter ⟨10, 0⟩ closes := by
  intro text polyline
  have straight : IsStraight text := by decide +kernel
  have hpolyline : polyline ∈ (linework text).polylines := by decide +kernel
  have hpoints : polyline.points = [⟨0, 0⟩] ++ ⟨10, 0⟩ :: ⟨5, 5⟩ :: [] := rfl
  exact ⟨⟨straight, hpolyline, hpoints⟩, segments_linework straight hpolyline hpoints⟩

/-- The numbers of a relative line behind a close count from the subpath start, but its polyline
does not come from there: no line is carried out between the second point and the third. -/
theorem linework_relative_line_behind_close :
    let text := "M0 0L10 0Zl5 5".toList
    IsStraight text ∧ (linework text).polylines = [⟨[⟨0, 0⟩, ⟨10, 0⟩, ⟨5, 5⟩]⟩] ∧
      ¬ ∃ stroke ∈ strokes text,
        stroke.command.verb = .lineTo ∧ stroke.source = ⟨10, 0⟩ ∧ stroke.target = ⟨5, 5⟩ := by
  decide +kernel

end Turnery.Svg.PathData
