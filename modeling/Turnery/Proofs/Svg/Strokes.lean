import Turnery.Svg.PathData

/-!
# Strokes of a pen

Reading path data, a pen carries out one command after the other. Its strokes are the commands that
it has carried out, each with the place it started from and the place it ended at. A stroke starts
where the one before it ended (`source_eq_placeAfter`), and the linework follows from the strokes
alone (`linework_eq_finish`): its points are the ends of the strokes that draw (`points_linework`).
-/

namespace Turnery.Svg.PathData

/-- A command that was carried out. -/
structure Stroke where
  command : Command
  args : List Float
  source : Point Float
  target : Point Float
  deriving DecidableEq

/-- Moves and lines become part of the drawing. -/
def Stroke.draws (stroke : Stroke) : Bool :=
  match stroke.command.verb with
  | .moveTo | .lineTo => true
  | _ => false

namespace Pen

/-- What the pen carries out when it takes a token: a close at once, another command with its last
number. -/
def stroke? (pen : Pen) : Token → Option Stroke
  | .command command =>
    if command.verb = .close then some ⟨command, [], pen.position, pen.subpathStart⟩ else none
  | .number value =>
    pen.command.bind fun command =>
      let args := pen.args ++ [value]
      if args.length < command.verb.arity then none
      else (target? command args pen.position).map fun target =>
        ⟨command, args, pen.position, target⟩

/-- What the pen carries out when it takes some tokens. -/
def strokes (pen : Pen) : List Token → List Stroke
  | [] => []
  | token :: rest => (pen.stroke? token).toList ++ (pen.step token).strokes rest

end Pen

/-- What is carried out for path data. -/
def strokes (text : List Char) : List Stroke :=
  Pen.start.strokes (tokens text)

/-- Where the pen is after some strokes. -/
def placeAfter (start : Point Float) (past : List Stroke) : Point Float :=
  (past.getLast?.map Stroke.target).getD start

theorem placeAfter_cons (start : Point Float) (first : Stroke) (rest : List Stroke) :
    placeAfter start (first :: rest) = placeAfter first.target rest := by
  rw [placeAfter, placeAfter, List.getLast?_cons]
  cases rest.getLast? <;> rfl

theorem placeAfter_append (start : Point Float) (front back : List Stroke) :
    placeAfter start (front ++ back) = placeAfter (placeAfter start front) back := by
  induction front generalizing start with
  | nil => rfl
  | cons stroke rest ih => rw [List.cons_append, placeAfter_cons, placeAfter_cons, ih]

/-- The polylines that are complete, and the one being drawn. -/
structure Canvas where
  drawn : Linework Float
  current : List (Point Float)

namespace Canvas

def add (canvas : Canvas) (stroke : Stroke) : Canvas :=
  match stroke.command.verb with
  | .moveTo => ⟨canvas.drawn.push ⟨canvas.current⟩, [stroke.target]⟩
  | .lineTo => ⟨canvas.drawn, canvas.current ++ [stroke.target]⟩
  | _ => canvas

def ofStrokes (past : List Stroke) : Canvas :=
  past.foldl add ⟨.empty, []⟩

def finish (canvas : Canvas) : Linework Float :=
  canvas.drawn.push ⟨canvas.current⟩

theorem ofStrokes_concat (past : List Stroke) (stroke : Stroke) :
    ofStrokes (past ++ [stroke]) = (ofStrokes past).add stroke := by
  rw [ofStrokes, List.foldl_append]
  rfl

/-- A stroke starts a polyline, goes on with one, or leaves the canvas as it is. -/
theorem add_cases (canvas : Canvas) (stroke : Stroke) :
    (stroke.command.verb = .moveTo ∧ canvas.add stroke =
      ⟨canvas.drawn.push ⟨canvas.current⟩, [stroke.target]⟩) ∨
    (stroke.command.verb = .lineTo ∧ canvas.add stroke =
      ⟨canvas.drawn, canvas.current ++ [stroke.target]⟩) ∨
    (stroke.draws = false ∧ canvas.add stroke = canvas) := by
  unfold add Stroke.draws
  cases stroke.command.verb with
  | moveTo => exact .inl ⟨rfl, rfl⟩
  | lineTo => exact .inr (.inl ⟨rfl, rfl⟩)
  | _ => exact .inr (.inr ⟨rfl, rfl⟩)

end Canvas

theorem draws_of_moveTo {stroke : Stroke} (h : stroke.command.verb = .moveTo) :
    stroke.draws = true := by
  rw [Stroke.draws, h]

theorem draws_of_lineTo {stroke : Stroke} (h : stroke.command.verb = .lineTo) :
    stroke.draws = true := by
  rw [Stroke.draws, h]

namespace Pen

def canvas (pen : Pen) : Canvas :=
  ⟨pen.drawn, pen.current⟩

/-- How a pen can come from another: by no stroke, by a close, or by a stroke that its numbers lead
to. -/
inductive Follows (pen next : Pen) : Option Stroke → Prop where
  | idle (canvas : next.canvas = pen.canvas) (position : next.position = pen.position)
      (subpathStart : next.subpathStart = pen.subpathStart) : Follows pen next none
  | closed (command : Command) (verb : command.verb = .close) (canvas : next.canvas = pen.canvas)
      (position : next.position = pen.subpathStart)
      (subpathStart : next.subpathStart = pen.subpathStart) :
      Follows pen next (some ⟨command, [], pen.position, pen.subpathStart⟩)
  | moved {command : Command} {args : List Float} {target : Point Float}
      (reached : target? command args pen.position = some target)
      (canvas : next.canvas = pen.canvas.add ⟨command, args, pen.position, target⟩)
      (position : next.position = target)
      (subpathStart : next.subpathStart = if command.verb = .moveTo then target
        else pen.subpathStart) :
      Follows pen next (some ⟨command, args, pen.position, target⟩)

theorem follows_takeCommand (pen : Pen) (command : Command) :
    Follows pen (pen.takeCommand command) (pen.stroke? (.command command)) := by
  obtain ⟨verb, relative⟩ := command
  cases verb with
  | close => exact .closed _ rfl rfl rfl rfl
  | _ => exact .idle rfl rfl rfl

theorem follows_carryOut (pen : Pen) (waiting : Option Command) {command : Command}
    {args : List Float} {target : Point Float}
    (reached : target? command args pen.position = some target) :
    Follows pen ({ pen with command := waiting, args := [] }.carryOut command target)
      (some ⟨command, args, pen.position, target⟩) := by
  obtain ⟨verb, relative⟩ := command
  cases verb <;> exact .moved reached rfl rfl rfl

theorem follows_takeNumber (pen : Pen) (value : Float) :
    Follows pen (pen.takeNumber value) (pen.stroke? (.number value)) := by
  unfold takeNumber stroke?
  cases pen.command with
  | none => exact .idle rfl rfl rfl
  | some command =>
    simp only [Option.bind_some]
    split
    · exact .idle rfl rfl rfl
    · split
      · rename_i target reached
        rw [reached]
        exact follows_carryOut pen _ reached
      · rename_i unreached
        rw [unreached]
        exact .idle rfl rfl rfl

/-- Whatever the token is, the pen comes from the one before by the stroke of the token. -/
theorem follows_step (pen : Pen) (token : Token) :
    Follows pen (pen.step token) (pen.stroke? token) := by
  cases token with
  | command command => exact follows_takeCommand pen command
  | number value => exact follows_takeNumber pen value

theorem Follows.canvas_eq {pen next : Pen} {stroke : Option Stroke} (h : Follows pen next stroke) :
    next.canvas = stroke.toList.foldl Canvas.add pen.canvas := by
  cases h with
  | idle canvas => exact canvas
  | closed command verb canvas =>
    rw [canvas, Option.toList_some, List.foldl_cons, List.foldl_nil, Canvas.add, verb]
  | moved reached canvas => exact canvas

theorem Follows.position_eq {pen next : Pen} {stroke : Option Stroke}
    (h : Follows pen next stroke) :
    next.position = placeAfter pen.position stroke.toList := by
  cases h with
  | idle _ position => exact position
  | closed _ _ _ position => exact position
  | moved _ _ position => exact position

theorem Follows.source_eq {pen next : Pen} {stroke : Stroke} (h : Follows pen next (some stroke)) :
    stroke.source = pen.position := by
  cases h <;> rfl

theorem canvas_foldl_step (pen : Pen) (read : List Token) :
    (read.foldl step pen).canvas = (pen.strokes read).foldl Canvas.add pen.canvas := by
  induction read generalizing pen with
  | nil => rfl
  | cons token rest ih =>
    rw [List.foldl_cons, ih, strokes, List.foldl_append, (follows_step pen token).canvas_eq]

/-- Every stroke starts where the pen is after the strokes before. -/
theorem source_eq_placeAfter {pen : Pen} {read : List Token} {before after : List Stroke}
    {stroke : Stroke} (h : pen.strokes read = before ++ stroke :: after) :
    stroke.source = placeAfter pen.position before := by
  induction read generalizing pen before with
  | nil => simp [strokes] at h
  | cons token rest ih =>
    have hstep := follows_step pen token
    have hposition := hstep.position_eq
    rw [strokes] at h
    cases hstroke : pen.stroke? token with
    | none =>
      rw [hstroke] at h hposition
      rw [ih h, hposition]
      rfl
    | some first =>
      rw [hstroke] at h hposition hstep
      rw [Option.toList_some, List.cons_append, List.nil_append] at h
      -- The token leads to the stroke itself, or to the first one before it.
      cases before with
      | nil =>
        obtain ⟨rfl, -⟩ := List.cons.inj h
        exact hstep.source_eq
      | cons head tail =>
        obtain ⟨rfl, htail⟩ := List.cons.inj h
        rw [ih htail, hposition, placeAfter_cons]
        rfl

end Pen

/-- The linework of path data is what its strokes draw. -/
theorem linework_eq_finish (text : List Char) :
    linework text = (Canvas.ofStrokes (strokes text)).finish := by
  have hcanvas := Pen.canvas_foldl_step .start (tokens text)
  calc linework text
      = (((tokens text).foldl Pen.step .start).canvas).finish := rfl
    _ = (Canvas.ofStrokes (strokes text)).finish := by rw [hcanvas]; rfl

theorem points_push (work : Linework Float) (points : List (Point Float)) :
    (work.push ⟨points⟩).points = work.points ++ points := by
  cases points with
  | nil => simp [Linework.points, Linework.push, Polyline.isEmpty]
  | cons p rest => simp [Linework.points, Linework.push, Polyline.isEmpty]

theorem points_finish_add (canvas : Canvas) (stroke : Stroke) :
    (canvas.add stroke).finish.points = canvas.finish.points ++
      ([stroke].filter Stroke.draws).map Stroke.target := by
  obtain ⟨hverb, hadd⟩ | ⟨hverb, hadd⟩ | ⟨hskip, hadd⟩ := canvas.add_cases stroke
  · rw [hadd, List.filter_cons_of_pos (draws_of_moveTo hverb), Canvas.finish, points_push]
    rfl
  · rw [hadd, List.filter_cons_of_pos (draws_of_lineTo hverb), Canvas.finish, Canvas.finish,
      points_push, points_push, List.append_assoc]
    rfl
  · rw [hadd, List.filter_cons_of_neg (by simp [hskip])]
    exact (List.append_nil _).symm

theorem points_finish_foldl_add (canvas : Canvas) (past : List Stroke) :
    (past.foldl Canvas.add canvas).finish.points =
      canvas.finish.points ++ (past.filter Stroke.draws).map Stroke.target := by
  induction past generalizing canvas with
  | nil => exact (List.append_nil _).symm
  | cons stroke rest ih =>
    rw [List.foldl_cons, ih, points_finish_add, List.append_assoc, ← List.map_append,
      ← List.filter_append]
    rfl

/-- The points of the linework are the ends of the strokes that draw, in order. -/
theorem points_linework (text : List Char) :
    (linework text).points = ((strokes text).filter Stroke.draws).map Stroke.target := by
  rw [linework_eq_finish, Canvas.ofStrokes, points_finish_foldl_add]
  rfl

end Turnery.Svg.PathData
