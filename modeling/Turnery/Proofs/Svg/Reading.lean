import Mathlib.Data.List.SplitBy
import Turnery.Proofs.Number.FloatStyle
import Turnery.Proofs.Svg.Runs

/-!
# Linework from a reading

The linework of path data is told by the moves and lines of its reading alone: a polyline begins at
every move-to and goes on with the line-tos behind it (`polylines_finish_foldl_add`), and the end of
a stroke is all that counts of it. Moves and lines to the same ends, written as absolute commands,
thus give the same linework (`linework_reading`).
-/

namespace Turnery.Svg.PathData

open Number

/-- The stroke goes on with the polyline of the one before. -/
def goesOn (_ next : Stroke) : Bool :=
  next.command.verb != .moveTo

variable {current : List Stroke}

/-- The polyline that is finished is all one piece. -/
theorem points_push_chain (h : current.IsChain fun a b => goesOn a b = true)
    (drawn : Linework Float) :
    (drawn.push ⟨current.map Stroke.target⟩).polylines.map Polyline.points =
      drawn.polylines.map Polyline.points ++ (current.splitBy goesOn).map
        (List.map Stroke.target) := by
  rw [Linework.polylines_push, List.map_append]
  cases current with
  | nil => rfl
  | cons first rest =>
    rw [List.splitBy_of_isChain (List.cons_ne_nil _ _) h]
    rfl

/-- Strokes that come to a polyline of some strokes, of which only the first can be a move-to. -/
theorem polylines_foldl_add (h : current.IsChain fun a b => goesOn a b = true)
    (drawn : Linework Float) (strokes : List Stroke) :
    (strokes.foldl Canvas.add ⟨drawn, current.map Stroke.target⟩).finish.polylines.map
      Polyline.points = drawn.polylines.map Polyline.points ++
        ((current ++ strokes.filter Stroke.draws).splitBy goesOn).map (List.map Stroke.target) := by
  induction strokes generalizing drawn current with
  | nil =>
    rw [List.filter_nil, List.append_nil]
    exact points_push_chain h drawn
  | cons stroke rest ih =>
    rw [List.foldl_cons]
    obtain ⟨hverb, hadd⟩ | ⟨hverb, hadd⟩ | ⟨hskip, hadd⟩ :=
      Canvas.add_cases ⟨drawn, current.map Stroke.target⟩ stroke
    · -- A move-to begins a polyline.
      have hsplit : ∀ last ∈ current.getLast?, goesOn last stroke = false :=
        fun _ _ => by rw [goesOn, hverb]; rfl
      have hnext := ih (.singleton stroke) (drawn.push ⟨current.map Stroke.target⟩)
      rw [hadd, List.filter_cons_of_pos (draws_of_moveTo hverb), List.splitBy_append_cons _ hsplit,
        List.map_append, ← List.append_assoc, ← points_push_chain h]
      exact hnext
    · -- A line-to goes on with the one that is there.
      have hchain : (current ++ [stroke]).IsChain fun a b => goesOn a b = true := by
        rw [List.isChain_append]
        refine ⟨h, .singleton stroke, fun last _ next hnext => ?_⟩
        obtain rfl := Option.some.inj hnext
        rw [goesOn, hverb]
        rfl
      have hnext := ih hchain drawn
      rw [List.map_append, List.append_assoc] at hnext
      rw [hadd, List.filter_cons_of_pos (draws_of_lineTo hverb)]
      exact hnext
    · rw [hadd, List.filter_cons_of_neg (by rw [hskip]; exact Bool.false_ne_true)]
      exact ih h drawn

/-- The polylines are the strokes that draw, cut in front of every move-to. -/
theorem polylines_linework (text : List Char) :
    (linework text).polylines.map Polyline.points =
      (((reading text).filter Stroke.draws).splitBy goesOn).map (List.map Stroke.target) := by
  rw [linework_eq_finish, strokes_eq_reading]
  exact polylines_foldl_add List.IsChain.nil Linework.empty (reading text)

/-- The text cannot go on a number that stands before it. -/
def EndsNumber (rest : List Char) : Prop :=
  ∀ c ∈ rest.head?, c = ' ' ∨ c = 'M' ∨ c = 'L'

theorem EndsNumber.stops {rest : List Char} (h : EndsNumber rest) : Stops rest := by
  intro c hc
  rcases h c hc with rfl | rfl | rfl <;> decide

theorem tokens_letter {c : Char} {command : Command} (h : Command.ofLetter? c = some command)
    (rest : List Char) :
    tokens (c :: rest) = .command command :: tokens rest := by
  rw [tokens, h]

/-- A character that starts neither a letter nor a number is passed over. -/
theorem tokens_skip {c : Char} {rest : List Char} (hletter : Command.ofLetter? c = none)
    (hnone : takeNumber? (c :: rest) = none) : tokens (c :: rest) = tokens rest := by
  rw [tokens, hletter]
  dsimp only
  split
  · rename_i htake
    cases hnone.symm.trans htake
  · rfl

/-- A lexeme that is a numeral is a number. -/
theorem tokens_lexeme {c : Char} {tail lexeme rest : List Char} {x : Float}
    (hletter : Command.ofLetter? c = none) (htake : takeNumber? (c :: tail) = some (lexeme, rest))
    (hfloat : float? lexeme = some x) :
    tokens (c :: tail) = .number x :: tokens rest := by
  rw [tokens, hletter]
  dsimp only
  split
  · rename_i htaken
    obtain ⟨rfl, rfl⟩ := Prod.mk.inj (Option.some.inj (htake.symm.trans htaken))
    rw [hfloat]
    rfl
  · rename_i hnone
    cases htake.symm.trans hnone

end Turnery.Svg.PathData
