import Turnery.Import.Importer

/-!
# Which tiers an import calls

The tiers of an importer are called one after the other until one finds something. What a tier
leaves behind, artifacts and state, is handed to the next, also where the tier has found nothing.
`tryTiers_called` splits the tiers into those that are called and those that are not, and says what
is left behind the last call. That nothing else is called shows in the notes of readers that note
each of their calls.
-/

namespace Turnery

theorem Linework.isEmpty_eq_false_iff {work : Linework Float} :
    work.isEmpty = false ↔ ∃ line ∈ work.polylines, line.points ≠ [] := by
  simp [Linework.isEmpty, Polyline.isEmpty]

end Turnery

namespace Turnery.Import

variable {σ : Type}

/-- What is handed from one reader to the next. -/
structure Standing (σ : Type) where
  artifacts : Artifacts
  state : σ

def Reader.call (reader : Reader σ) (path : String) (standing : Standing σ) : Reading σ :=
  reader.read path standing.artifacts standing.state

namespace Reading

/-- What a reading leaves to the next reader. -/
def standing (reading : Reading σ) : Standing σ :=
  ⟨reading.artifacts, reading.state⟩

/-- The reading has come to linework with a polyline that is not empty. -/
def Finds (reading : Reading σ) (work : Linework Float) : Prop :=
  reading.result = .ok work ∧ ∃ line ∈ work.polylines, line.points ≠ []

/-- The reading has failed, or its linework has no polyline that is not empty. -/
def FindsNothing (reading : Reading σ) : Prop :=
  ∀ work, ¬reading.Finds work

end Reading

def readings (path : String) : List (Reader σ) → Standing σ → List (Reading σ)
  | [], _ => []
  | reader :: rest, standing =>
    reader.call path standing :: readings path rest (reader.call path standing).standing

/-- What readers leave that are called one after the other. -/
def standingAfter (path : String) : List (Reader σ) → Standing σ → Standing σ
  | [], standing => standing
  | reader :: rest, standing => standingAfter path rest (reader.call path standing).standing

/-- The reader, noting its number whenever it is called. -/
def Reader.noting (number : Nat) (reader : Reader σ) : Reader (σ × List Nat) where
  tier := reader.tier
  read path artifacts state :=
    let reading := reader.read path artifacts state.1
    ⟨reading.result, reading.artifacts, reading.state, state.2 ++ [number]⟩

/-- Readers that note their numbers, counted from a first one. -/
def noting (first : Nat) (readers : List (Reader σ)) : List (Reader (σ × List Nat)) :=
  (readers.zipIdx first).map fun (reader, number) => reader.noting number

/-- The importer of which each reader notes its calls; the reader of SVG files counts as the one
behind the tiers. -/
def Importer.noting (importer : Importer σ) : Importer (σ × List Nat) where
  svg := importer.svg.noting importer.tiers.length
  tiers := Import.noting 0 importer.tiers
  latest := importer.latest

namespace Importer

theorem found?_eq_some_iff {reading : Reading σ} {work : Linework Float} :
    found? reading = some work ↔ reading.Finds work := by
  obtain ⟨result, artifacts, state⟩ := reading
  cases result with
  | error e => simp [found?, Reading.Finds]
  | ok other =>
    simp only [found?, Reading.Finds, Except.ok.injEq, ← Linework.isEmpty_eq_false_iff]
    constructor
    · intro h
      split at h
      · nomatch h
      · rename_i hempty
        obtain rfl := Option.some.inj h
        exact ⟨rfl, Bool.eq_false_iff.2 hempty⟩
    · rintro ⟨rfl, hempty⟩
      rw [hempty]
      rfl

theorem found?_eq_none_iff {reading : Reading σ} :
    found? reading = none ↔ reading.FindsNothing := by
  rw [Option.eq_none_iff_forall_ne_some]
  exact forall_congr' fun _ => not_congr found?_eq_some_iff

theorem tryTiers_cons_of_finds {path : String} {reader : Reader σ} {standing : Standing σ}
    {work : Linework Float} (h : (reader.call path standing).Finds work) (rest : List (Reader σ)) :
    tryTiers path (reader :: rest) standing.artifacts standing.state =
      ⟨some (work, reader.tier), (reader.call path standing).artifacts,
        (reader.call path standing).state⟩ := by
  have hfound : found? (reader.read path standing.artifacts standing.state) = some work :=
    found?_eq_some_iff.2 h
  rw [tryTiers]
  simp only [hfound]
  rfl

theorem tryTiers_cons_of_findsNothing {path : String} {reader : Reader σ} {standing : Standing σ}
    (h : (reader.call path standing).FindsNothing) (rest : List (Reader σ)) :
    tryTiers path (reader :: rest) standing.artifacts standing.state =
      tryTiers path rest (reader.call path standing).artifacts
        (reader.call path standing).state := by
  have hfound : found? (reader.read path standing.artifacts standing.state) = none :=
    found?_eq_none_iff.2 h
  rw [tryTiers]
  simp only [hfound]
  rfl

section Import

variable {importer : Importer σ} {isFile : String → σ → Bool} {path : String} {state : σ}

theorem importFile_of_format (file : isFile path state = true)
    (format : Format.ofPath? path = some .dxf) :
    importer.importFile isFile path state =
      (.ok (importer.importDxf path state).1,
        { importer with latest := (importer.importDxf path state).1.artifacts },
        (importer.importDxf path state).2) := by
  rw [importFile, if_pos file, format]

theorem importDxf_of_found {work : Linework Float} {tier : Tier}
    (h : (tryTiers path importer.tiers .none state).found = some (work, tier)) :
    importer.importDxf path state =
      (⟨work, some tier, (tryTiers path importer.tiers .none state).artifacts⟩,
        (tryTiers path importer.tiers .none state).state) := by
  rw [importDxf]
  simp only [h]

theorem importDxf_of_not_found (h : (tryTiers path importer.tiers .none state).found = none) :
    importer.importDxf path state =
      (⟨.empty, none, (tryTiers path importer.tiers .none state).artifacts⟩,
        (tryTiers path importer.tiers .none state).state) := by
  rw [importDxf]
  simp only [h]

theorem state_importFile (file : isFile path state = true)
    (format : Format.ofPath? path = some .dxf) :
    (importer.importFile isFile path state).2.2 =
      (tryTiers path importer.tiers .none state).state := by
  rw [importFile_of_format file format]
  cases h : (tryTiers path importer.tiers .none state).found with
  | none => rw [importDxf_of_not_found h]
  | some found => rw [importDxf_of_found h]

end Import

/-- A reader that notes its calls reads what it would read. -/
theorem call_noting (number : Nat) (reader : Reader σ) (path : String) (standing : Standing σ)
    (notes : List Nat) :
    (reader.noting number).call path ⟨standing.artifacts, standing.state, notes⟩ =
      ⟨(reader.call path standing).result, (reader.call path standing).artifacts,
        (reader.call path standing).state, notes ++ [number]⟩ :=
  rfl

theorem noting_cons (first : Nat) (reader : Reader σ) (rest : List (Reader σ)) :
    Import.noting first (reader :: rest) = reader.noting first :: Import.noting (first + 1) rest :=
  rfl

/-- The tiers that are called come first, all of them but the last find nothing, and the last does
so only if no tier is left. Each of them notes its call once, in their order. -/
theorem tryTiers_called (path : String) (tiers : List (Reader σ)) (start : Standing σ) :
    ∃ called rest, tiers = called ++ rest ∧
      (tryTiers path tiers start.artifacts start.state).artifacts =
        (standingAfter path called start).artifacts ∧
      (tryTiers path tiers start.artifacts start.state).state =
        (standingAfter path called start).state ∧
      (∀ first notes,
        (tryTiers path (Import.noting first tiers) start.artifacts (start.state, notes)).state =
        ((standingAfter path called start).state, notes ++ List.range' first called.length)) ∧
      ((∃ losing winner work, called = losing ++ [winner] ∧
          (∀ reading ∈ readings path losing start, reading.FindsNothing) ∧
          (winner.call path (standingAfter path losing start)).Finds work ∧
          (tryTiers path tiers start.artifacts start.state).found = some (work, winner.tier)) ∨
        rest = [] ∧ (∀ reading ∈ readings path called start, reading.FindsNothing) ∧
          (tryTiers path tiers start.artifacts start.state).found = none) := by
  induction tiers generalizing start with
  | nil =>
    refine ⟨[], [], rfl, rfl, rfl, fun first notes => ?_, .inr ⟨rfl, ?_, rfl⟩⟩
    · exact congrArg (Prod.mk start.state) (List.append_nil notes).symm
    · exact List.forall_mem_nil _
  | cons reader tiers ih =>
    by_cases hfinds : ∃ work, (reader.call path start).Finds work
    · obtain ⟨work, hwork⟩ := hfinds
      have htry := tryTiers_cons_of_finds hwork tiers
      refine ⟨[reader], tiers, rfl, ?_, ?_, fun first notes => ?_,
        .inl ⟨[], reader, work, rfl, ?_, hwork, ?_⟩⟩
      · rw [htry]
        rfl
      · rw [htry]
        rfl
      · have hnoting : ((reader.noting first).call path ⟨start.artifacts, start.state, notes⟩).Finds
          work := hwork
        rw [noting_cons, tryTiers_cons_of_finds hnoting]
        rfl
      · exact List.forall_mem_nil _
      · rw [htry]
    · have hnothing : (reader.call path start).FindsNothing :=
        fun work hwork => hfinds ⟨work, hwork⟩
      have htry := tryTiers_cons_of_findsNothing hnothing tiers
      obtain ⟨called, rest, hsplit, hartifacts, hstate, hnotes, hfound⟩ :=
        ih (reader.call path start).standing
      refine ⟨reader :: called, rest, congrArg (reader :: ·) hsplit, ?_, ?_,
        fun first notes => ?_, ?_⟩
      · rw [htry]
        exact hartifacts
      · rw [htry]
        exact hstate
      · have hnoting : ((reader.noting first).call path
            ⟨start.artifacts, start.state, notes⟩).FindsNothing := hnothing
        rw [noting_cons, tryTiers_cons_of_findsNothing hnoting, call_noting]
        refine (hnotes (first + 1) (notes ++ [first])).trans ?_
        rw [List.append_assoc, List.length_cons, List.range'_succ]
        rfl
      · rw [htry]
        obtain ⟨losing, winner, work, rfl, hlosing, hwinner, hfound⟩ | ⟨hrest, hlosing, hfound⟩ :=
          hfound
        · exact .inl ⟨reader :: losing, winner, work, rfl,
            List.forall_mem_cons.2 ⟨hnothing, hlosing⟩, hwinner, hfound⟩
        · exact .inr ⟨hrest, List.forall_mem_cons.2 ⟨hnothing, hlosing⟩, hfound⟩

/-- Importing a DXF file calls the tiers in their order, each once, up to and including the first
that finds something. The report holds what that tier has found and its name, or nothing and no
name, and the artifacts as all calls have left them; a name stands in it exactly if its linework is
not empty. -/
theorem importFile_dxf_calls (importer : Importer σ) {isFile : String → σ → Bool} {path : String}
    {state : σ} (file : isFile path state = true) (format : Format.ofPath? path = some .dxf) :
    ∃ called rest report, importer.tiers = called ++ rest ∧
      importer.importFile isFile path state =
        (.ok report, { importer with latest := report.artifacts },
          (standingAfter path called ⟨.none, state⟩).state) ∧
      (importer.noting.importFile (fun path state => isFile path state.1) path (state, [])).2.2 =
        ((standingAfter path called ⟨.none, state⟩).state, List.range called.length) ∧
      report.artifacts = (standingAfter path called ⟨.none, state⟩).artifacts ∧
      ((∃ losing winner, called = losing ++ [winner] ∧
          (∀ reading ∈ readings path losing ⟨.none, state⟩, reading.FindsNothing) ∧
          (winner.call path (standingAfter path losing ⟨.none, state⟩)).Finds report.linework ∧
          report.tier = some winner.tier) ∨
        rest = [] ∧ (∀ reading ∈ readings path called ⟨.none, state⟩, reading.FindsNothing) ∧
          report.linework = .empty ∧ report.tier = none) ∧
      (report.tier.isSome = true ↔ report.linework.isEmpty = false) := by
  obtain ⟨called, rest, hsplit, hartifacts, hstate, hnotes, hfound⟩ :=
    tryTiers_called path importer.tiers ⟨.none, state⟩
  have hlog : (importer.noting.importFile (fun path state => isFile path state.1) path
      (state, [])).2.2 =
      ((standingAfter path called ⟨.none, state⟩).state, List.range called.length) := by
    refine Eq.trans (state_importFile file format) ?_
    rw [List.range_eq_range']
    exact hnotes 0 []
  obtain ⟨losing, winner, work, hcalled, hlosing, hwinner, hfound⟩ | ⟨hrest, hlosing, hfound⟩ :=
    hfound
  · refine ⟨called, rest, ⟨work, some winner.tier, _⟩, hsplit, ?_, hlog, hartifacts,
      .inl ⟨losing, winner, hcalled, hlosing, hwinner, rfl⟩, ?_⟩
    · rw [importFile_of_format file format, importDxf_of_found hfound, hstate]
    · exact iff_of_true rfl (Linework.isEmpty_eq_false_iff.2 hwinner.2)
  · refine ⟨called, rest, ⟨.empty, none, _⟩, hsplit, ?_, hlog, hartifacts,
      .inr ⟨hrest, hlosing, rfl, rfl⟩, ?_⟩
    · rw [importFile_of_format file format, importDxf_of_not_found hfound, hstate]
    · exact iff_of_false Bool.false_ne_true (Bool.false_ne_true ·.symm)

/-- The first tier fails and leaves a log, the second finds an empty polyline and leaves records,
the third finds a dot, and the fourth, which would remove the artifacts, is not called. -/
theorem importFile_dxf_calls_three_of_four :
    let failing : Reader Unit := ⟨.nativeDxf, fun _ artifacts _ =>
      ⟨.error (.io "out of order"), { artifacts with log := some "a.log" }, ()⟩⟩
    let blank : Reader Unit := ⟨.normalizer, fun _ artifacts _ =>
      ⟨.ok ⟨[⟨[]⟩]⟩, { artifacts with json := some "b.json" }, ()⟩⟩
    let dot : Reader Unit :=
      ⟨.asciiDxf, fun _ artifacts _ => ⟨.ok ⟨[⟨[]⟩, ⟨[⟨0, 0⟩]⟩]⟩, artifacts, ()⟩⟩
    let erasing : Reader Unit := ⟨.nativeDxf, fun _ _ _ => ⟨.ok ⟨[⟨[⟨1, 1⟩]⟩]⟩, .none, ()⟩⟩
    let importer := ofReaders erasing [failing, blank, dot, erasing]
    let isFile : String → Unit → Bool := fun _ _ => true
    (isFile "part.DXF" () = true ∧ Format.ofPath? "part.DXF" = some .dxf) ∧
      ∃ report : Report, (importer.importFile isFile "part.DXF" ()).1 = .ok report ∧
        report.linework = ⟨[⟨[]⟩, ⟨[⟨0, 0⟩]⟩]⟩ ∧ report.tier = some .asciiDxf ∧
        report.artifacts = ⟨some "b.json", some "a.log"⟩ ∧
        (importer.noting.importFile (fun path state => isFile path state.1) "part.DXF"
          ((), [])).2.2.2 = [0, 1, 2] ∧
        (report.tier.isSome = true ↔ report.linework.isEmpty = false) := by
  intro failing blank dot erasing importer isFile
  have format : Format.ofPath? "part.DXF" = some .dxf := by decide
  have hfile : isFile "part.DXF" () = true := rfl
  obtain ⟨called, rest, report, -, himport, -, -, -, hname⟩ :=
    importFile_dxf_calls importer hfile format
  have hfound : (importer.importDxf "part.DXF" ()).1 =
      ⟨⟨[⟨[]⟩, ⟨[⟨0, 0⟩]⟩]⟩, some .asciiDxf, ⟨some "b.json", some "a.log"⟩⟩ := rfl
  rw [importFile_of_format rfl format, hfound] at himport
  obtain rfl := Except.ok.inj (congrArg Prod.fst himport)
  refine ⟨⟨rfl, format⟩, _, ?_, rfl, rfl, rfl, ?_, hname⟩
  · rw [importFile_of_format rfl format, hfound]
  · rw [state_importFile rfl format]
    rfl

end Importer

end Turnery.Import
