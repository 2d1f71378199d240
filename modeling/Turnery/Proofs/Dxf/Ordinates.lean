import Mathlib.Data.List.DropRight
import Turnery.Proofs.Dxf.Layout
import Turnery.Proofs.Fault

/-!
# Ordinates of light polylines

A light polyline gives its vertices by abscissas in groups 10 and ordinates in groups 20, and either
can be missing or come twice. `completions` says which ordinates complete which abscissas, by their
places in the body alone: an ordinate completes the latest abscissa behind the ordinate before it.
`lightVertices?_eq_bind` says that the vertices are read from these pairs, and from nothing else
once every abscissa is a number.

Both codes cut a body: what is read from an abscissa on does not depend on what stands in front of
it, nor does what is read behind an ordinate.
-/

namespace Turnery.Dxf.Scan

def abscissas (gs : List Group) : List Group :=
  gs.filter (·.code == 10)

/-- The abscissa that an ordinate behind some groups completes: the latest since the ordinate
before. -/
def openAbscissa? (before : List Group) : Option Group :=
  (abscissas (before.rtakeWhile (·.code != 20))).getLast?

/-- The abscissa that a group completes and the group itself, if it is an ordinate that completes
one. -/
def completion? (before : List Group) (g : Group) : Option (Group × Group) :=
  if g.code = 20 then (openAbscissa? before).map (·, g) else none

/-- The pairs of an abscissa and the ordinate that completes it, in the order of the ordinates. -/
def completions (gs : List Group) : List (Group × Group) :=
  gs.zipIdx.filterMap fun p => completion? (gs.take p.2) p.1

def vertex? (pair : Group × Group) : Option (Point Float) := do
  let x ← Group.number? pair.1
  let y ← Group.number? pair.2
  some ⟨x, y⟩

variable {g x : Group}

theorem abscissas_concat_of_ne (gs : List Group) (h : g.code ≠ 10) :
    abscissas (gs ++ [g]) = abscissas gs := by
  simp [abscissas, h]

theorem abscissas_concat_of_eq (gs : List Group) (h : g.code = 10) :
    abscissas (gs ++ [g]) = abscissas gs ++ [g] := by
  simp [abscissas, h]

theorem openAbscissa?_concat_of_abscissa (gs : List Group) (h : g.code = 10) :
    openAbscissa? (gs ++ [g]) = some g := by
  rw [openAbscissa?, List.rtakeWhile_concat_pos _ _ _ (by simp [h]), abscissas_concat_of_eq _ h,
    List.getLast?_concat]

theorem openAbscissa?_concat_of_ordinate (gs : List Group) (h : g.code = 20) :
    openAbscissa? (gs ++ [g]) = none := by
  rw [openAbscissa?, List.rtakeWhile_concat_neg _ _ _ (by simp [h])]
  rfl

theorem openAbscissa?_concat_of_other (gs : List Group) (h10 : g.code ≠ 10) (h20 : g.code ≠ 20) :
    openAbscissa? (gs ++ [g]) = openAbscissa? gs := by
  rw [openAbscissa?, List.rtakeWhile_concat_pos _ _ _ (by simp [h20]), abscissas_concat_of_ne _ h10,
    openAbscissa?]

theorem mem_abscissas_of_openAbscissa? {gs : List Group} (h : openAbscissa? gs = some x) :
    x ∈ abscissas gs := by
  have hmem := List.mem_of_getLast? h
  exact ((List.rtakeWhile_suffix _ gs).sublist.filter _).subset hmem

theorem completions_concat (gs : List Group) (g : Group) :
    completions (gs ++ [g]) = completions gs ++ (completion? gs g).toList := by
  have hfront : ∀ p ∈ gs.zipIdx, completion? ((gs ++ [g]).take p.2) p.1 =
      completion? (gs.take p.2) p.1 := by
    intro p hp
    have hplace : p.2 < gs.length := by simpa using List.snd_lt_of_mem_zipIdx hp
    rw [List.take_append_of_le_length (Nat.le_of_lt hplace)]
  rw [completions, List.zipIdx_append, List.filterMap_append, List.filterMap_congr hfront,
    completions]
  simp only [List.zipIdx_singleton, Nat.zero_add, List.filterMap_cons, List.filterMap_nil,
    List.take_left]
  cases completion? gs g <;> rfl

/-- The number of the abscissa that is open behind some groups. -/
def pendingAfter (before : List Group) : Option Float :=
  (openAbscissa? before).bind Group.number?

theorem lightVertices?_cons_of_other (h10 : g.code ≠ 10) (h20 : g.code ≠ 20)
    (pending : Option Float) (rest : List Group) :
    lightVertices? pending (g :: rest) = lightVertices? pending rest := by
  rw [lightVertices?.eq_def]
  simp [h10, h20]

/-- An ordinate without an open abscissa is passed over. -/
theorem lightVertices?_none_cons_of_ordinate (h : g.code = 20) (rest : List Group) :
    lightVertices? none (g :: rest) = lightVertices? none rest := by
  rw [lightVertices?, if_neg (by simp [h]), if_pos (by simp [h])]

theorem lightVertices?_some_cons_of_ordinate (h : g.code = 20) (x : Float) (rest : List Group) :
    lightVertices? (some x) (g :: rest) =
      (Group.number? g).bind fun y => (lightVertices? none rest).map (⟨x, y⟩ :: ·) := by
  rw [lightVertices?, if_neg (by simp [h]), if_pos (by simp [h])]
  cases Group.number? g <;> cases lightVertices? none rest <;> rfl

/-- A group is read, and what follows it with the abscissa that is open then. -/
theorem lightVertices?_cons (before : List Group) (g : Group) (after : List Group) :
    lightVertices? (pendingAfter before) (g :: after) =
      (lightVertices? (pendingAfter before) [g]).bind fun front =>
        (lightVertices? (pendingAfter (before ++ [g])) after).map (front ++ ·) := by
  -- An abscissa takes the place of the open one, an ordinate uses it up, and any other group leaves
  -- it.
  by_cases h10 : g.code = 10
  · have hcode : (g.code == 10) = true := beq_iff_eq.2 h10
    rw [lightVertices?_cons_of_abscissa hcode, lightVertices?_cons_of_abscissa hcode,
      pendingAfter.eq_1 (before ++ [g]), openAbscissa?_concat_of_abscissa before h10]
    cases hx : Group.number? g with
    | none => rfl
    | some x => simp [lightVertices?, hx]
  by_cases h20 : g.code = 20
  · rw [pendingAfter.eq_1 (before ++ [g]), openAbscissa?_concat_of_ordinate before h20]
    cases pendingAfter before with
    | none =>
      rw [lightVertices?_none_cons_of_ordinate h20, lightVertices?_none_cons_of_ordinate h20]
      simp [lightVertices?]
    | some x =>
      rw [lightVertices?_some_cons_of_ordinate h20, lightVertices?_some_cons_of_ordinate h20]
      cases Group.number? g with
      | none => rfl
      | some y => simp [lightVertices?]
  · rw [lightVertices?_cons_of_other h10 h20, lightVertices?_cons_of_other h10 h20,
      pendingAfter.eq_1 (before ++ [g]), openAbscissa?_concat_of_other before h10 h20]
    simp [lightVertices?, pendingAfter]

/-- A body is read front first. -/
theorem lightVertices?_append (before after : List Group) :
    lightVertices? none (before ++ after) =
      (lightVertices? none before).bind fun front =>
        (lightVertices? (pendingAfter before) after).map (front ++ ·) := by
  induction before using List.reverseRecOn generalizing after with
  | nil => simp [lightVertices?, pendingAfter, openAbscissa?, abscissas]
  | append_singleton gs g ih =>
    rw [List.append_assoc, List.singleton_append, ih, ih [g], lightVertices?_cons]
    cases lightVertices? none gs with
    | none => rfl
    | some front =>
      cases lightVertices? (pendingAfter gs) [g] with
      | none => rfl
      | some mid => simp [Function.comp_def]

theorem vertex?_eq_some_iff {pair : Group × Group} {p : Point Float} :
    vertex? pair = some p ↔ Group.number? pair.1 = some p.x ∧ Group.number? pair.2 = some p.y := by
  obtain ⟨x, y⟩ := p
  simp [vertex?, Option.bind_eq_some_iff]

theorem vertex?_eq_none_iff {pair : Group × Group} :
    vertex? pair = none ↔ Group.number? pair.1 = none ∨ Group.number? pair.2 = none := by
  unfold vertex?
  cases Group.number? pair.1 <;> cases Group.number? pair.2 <;> simp

/-- A group that is no abscissa gives the vertex of its pair, if the open abscissa is a number. -/
theorem lightVertices?_singleton {gs : List Group}
    (hopen : ∀ x, openAbscissa? gs = some x → Group.number? x ≠ none) (h10 : g.code ≠ 10) :
    lightVertices? (pendingAfter gs) [g] = (completion? gs g).toList.mapM vertex? := by
  by_cases h20 : g.code = 20
  · rw [completion?, if_pos h20, pendingAfter]
    cases hx : openAbscissa? gs with
    | none => exact lightVertices?_none_cons_of_ordinate h20 []
    | some x =>
      obtain ⟨a, ha⟩ := Option.ne_none_iff_exists'.1 (hopen x hx)
      rw [Option.bind_some, ha, lightVertices?_some_cons_of_ordinate h20]
      cases hy : Group.number? g with
      | none => simp [vertex?, ha, hy]
      | some b => simp [vertex?, ha, hy, lightVertices?]
  · rw [completion?, if_neg h20, lightVertices?_cons_of_other h10 h20]
    rfl

/-- Once the abscissas are numbers, the vertices are those of the pairs. -/
theorem lightVertices?_eq_bind (gs : List Group) :
    lightVertices? none gs =
      ((abscissas gs).mapM Group.number?).bind fun _ => (completions gs).mapM vertex? := by
  -- The induction is from the back, as what a group completes is told by the groups in front of it.
  induction gs using List.reverseRecOn with
  | nil => rfl
  | append_singleton gs g ih =>
    rw [lightVertices?_append, ih, completions_concat]
    by_cases h10 : g.code = 10
    · have hnone : completion? gs g = none := if_neg (by simp [h10])
      rw [lightVertices?_cons_of_abscissa (beq_iff_eq.2 h10), abscissas_concat_of_eq gs h10,
        List.mapM_append, hnone]
      cases (abscissas gs).mapM Group.number? with
      | none => rfl
      | some numbers =>
        cases hx : Group.number? g with
        | none => simp [hx]
        | some x => simp [hx, lightVertices?]
    · rw [abscissas_concat_of_ne gs h10]
      cases hnumbers : (abscissas gs).mapM Group.number? with
      | none => rfl
      | some numbers =>
        have hopen : ∀ x, openAbscissa? gs = some x → Group.number? x ≠ none :=
          fun x hx => apply_ne_none_of_mapM hnumbers (mem_abscissas_of_openAbscissa? hx)
        rw [lightVertices?_singleton hopen h10, Option.bind_some, Option.bind_some,
          List.mapM_append]
        cases (completions gs).mapM vertex? with
        | none => rfl
        | some front => cases (completion? gs g).toList.mapM vertex? <;> rfl

/-- The abscissa of a pair is an abscissa of the body. -/
theorem fst_mem_abscissas {gs : List Group} {pair : Group × Group} (h : pair ∈ completions gs) :
    pair.1 ∈ abscissas gs := by
  obtain ⟨p, -, hp⟩ := List.mem_filterMap.1 h
  rw [completion?, Option.ite_none_right_eq_some] at hp
  obtain ⟨x, hx, rfl⟩ := Option.map_eq_some_iff.1 hp.2
  exact ((List.take_sublist _ gs).filter _).subset (mem_abscissas_of_openAbscissa? hx)

theorem lightVertices?_eq_none_iff (gs : List Group) :
    lightVertices? none gs = none ↔
      (∃ x ∈ gs, x.code = 10 ∧ Group.number? x = none) ∨ ∃ pair ∈ completions gs,
        Group.number? pair.2 = none := by
  have habscissas : (abscissas gs).mapM Group.number? = none ↔
      ∃ x ∈ gs, x.code = 10 ∧ Group.number? x = none := by
    simp only [mapM_eq_none_iff, abscissas, List.mem_filter, beq_iff_eq, and_assoc]
  rw [lightVertices?_eq_bind, ← habscissas]
  cases hnumbers : (abscissas gs).mapM Group.number? with
  | none => exact iff_of_true rfl (.inl rfl)
  | some numbers =>
    rw [Option.bind_some, mapM_eq_none_iff, or_iff_right (Option.some_ne_none numbers)]
    refine exists_congr fun pair => and_congr_right fun hpair => ?_
    rw [vertex?_eq_none_iff,
      or_iff_right (apply_ne_none_of_mapM hnumbers (fst_mem_abscissas hpair))]

/-- What is read from an abscissa on does not depend on the groups in front of it. -/
theorem lightVertices?_append_abscissa (before : List Group) (h : x.code = 10)
    (after : List Group) :
    lightVertices? none (before ++ x :: after) =
      (lightVertices? none before).bind fun front =>
        (lightVertices? none (x :: after)).map (front ++ ·) := by
  have hcode : (x.code == 10) = true := beq_iff_eq.2 h
  rw [lightVertices?_append, lightVertices?_cons_of_abscissa hcode,
    lightVertices?_cons_of_abscissa hcode]

/-- What is read behind an ordinate does not depend on it or on the groups in front of it. -/
theorem lightVertices?_append_ordinate (before : List Group) {y : Group} (h : y.code = 20)
    (after : List Group) :
    lightVertices? none (before ++ y :: after) =
      (lightVertices? none (before ++ [y])).bind fun front =>
        (lightVertices? none after).map (front ++ ·) := by
  rw [List.append_cons, lightVertices?_append, pendingAfter,
    openAbscissa?_concat_of_ordinate before h]
  rfl

/-- A light polyline cannot be read exactly if an abscissa, or an ordinate that completes one, is no
number; otherwise it has one vertex for each ordinate that completes an abscissa, in order, made
from the two. Cut in front of an abscissa or behind an ordinate, a body has the vertices of its two
parts, so that ordinates and abscissas which are missing or surplus in one part do not shift those
of the other. Where the abscissas and ordinates alternate, they give exactly their vertices,
whatever groups of other codes stand among them. -/
theorem lightVertices?_by_completions (gs : List Group) :
    (lightVertices? none gs = none ↔
        (∃ x ∈ gs, x.code = 10 ∧ Group.number? x = none) ∨ ∃ pair ∈ completions gs,
          Group.number? pair.2 = none) ∧
      (∀ vertices, lightVertices? none gs = some vertices →
        List.Forall₂ (fun pair p => Group.number? pair.1 = some p.x ∧
          Group.number? pair.2 = some p.y)
          (completions gs) vertices) ∧
      (∀ before x after, gs = before ++ x :: after → x.code = 10 →
        lightVertices? none gs =
          (lightVertices? none before).bind fun front =>
            (lightVertices? none (x :: after)).map (front ++ ·)) ∧
      (∀ before y after, gs = before ++ y :: after → y.code = 20 →
        lightVertices? none gs =
          (lightVertices? none (before ++ [y])).bind fun front =>
            (lightVertices? none after).map (front ++ ·)) ∧
      ∀ vertices, HoldEach (vertices.flatMap vertexQuantities) (gs.filter IsOrdinate) →
        lightVertices? none gs = some vertices := by
  refine ⟨lightVertices?_eq_none_iff gs, fun vertices h => ?_, ?_, ?_, fun vertices holds => ?_⟩
  · rw [lightVertices?_eq_bind] at h
    obtain ⟨-, -, hvertices⟩ := Option.bind_eq_some_iff.1 h
    exact (mapM_eq_some_iff.1 hvertices).imp fun _ _ => vertex?_eq_some_iff.1
  · rintro before x after rfl h
    exact lightVertices?_append_abscissa before h after
  · rintro before y after rfl h
    exact lightVertices?_append_ordinate before h after
  · rw [← lightVertices?_filter]
    exact holds.lightVertices?

/-- An abscissa that comes twice, an ordinate that completes none and is no number, and a pair with
other groups. -/
theorem lightVertices?_by_completions_surplus :
    let before : List Group := [⟨10, "1"⟩, ⟨10, "2"⟩, ⟨20, "3"⟩, ⟨20, "?"⟩, ⟨42, "4"⟩]
    let x : Group := ⟨10, "5"⟩
    let after : List Group := [⟨90, "6"⟩, ⟨20, "7"⟩, ⟨70, "1"⟩]
    let gs := before ++ x :: after
    let last : List (Point Float) := [⟨5, 7⟩]
    let vertices := ⟨2, 3⟩ :: last
    (x.code = 10 ∧ HoldEach (last.flatMap vertexQuantities) ((x :: after).filter IsOrdinate)) ∧
      lightVertices? none gs = some vertices ∧
      List.Forall₂ (fun pair p => Group.number? pair.1 = some p.x ∧ Group.number? pair.2 = some p.y)
        (completions gs) vertices := by
  intro before x after gs last vertices
  have hcode : x.code = 10 := rfl
  have holds : HoldEach (last.flatMap vertexQuantities) ((x :: after).filter IsOrdinate) := by
    decide +kernel
  have hfront : lightVertices? none before = some [⟨2, 3⟩] := by decide +kernel
  obtain ⟨-, heach, hcut, -, -⟩ := lightVertices?_by_completions gs
  obtain ⟨-, -, -, -, hpairs⟩ := lightVertices?_by_completions (x :: after)
  have hvertices : lightVertices? none gs = some vertices := by
    rw [hcut before x after rfl hcode, hfront, hpairs last holds]
    rfl
  exact ⟨⟨hcode, holds⟩, hvertices, heach vertices hvertices⟩

end Turnery.Dxf.Scan
