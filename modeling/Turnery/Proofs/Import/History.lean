import Turnery.Import.Importer

/-!
# Importing one drawing after another

An importer keeps nothing of a call but the artifacts of a DXF file. `answerAll_ofReaders` says what
follows for calls one after the other, whatever the readers do and whatever happens to the files in
between: every call is answered as by an importer that has not been used, only paths without a file
or without a known format are refused, and the artifacts shown are those of the latest call that was
led to the tiers.
-/

namespace Turnery.Files.Path

/-- The file name ends in a point and an extension, whose letters may be capitals. -/
def HasExtension (path extension : String) : Prop :=
  ∃ written ∈ extension? path, written.toList.map Char.toLower = extension.toList

instance (path extension : String) : Decidable (HasExtension path extension) :=
  inferInstanceAs (Decidable (∃ written ∈ extension? path, _))

/-- An extension with letters is the one with capitals made small. -/
theorem lowerExtension_eq_iff {path extension : String} (h : extension ≠ "") :
    lowerExtension path = extension ↔ HasExtension path extension := by
  have hlower : lowerExtension path = extension ↔
      ((extension? path).getD "").toList.map Char.toLower = extension.toList := by
    rw [lowerExtension, ← String.toList_inj, String.toList_ofList]
  rw [hlower]
  cases hwritten : extension? path with
  | some written => simp [HasExtension, hwritten]
  | none =>
    have hne : extension.toList ≠ [] := fun hnil => h (String.toList_inj.1 hnil)
    simpa [HasExtension, hwritten] using Ne.symm hne

end Turnery.Files.Path

namespace Turnery.Import

open Files.Path (HasExtension lowerExtension lowerExtension_eq_iff)

variable {σ : Type} {isFile : String → σ → Bool}

/-- A call of an importer: a path, and the state in which the call finds the files and the
readers. -/
structure Call (σ : Type) where
  path : String
  state : σ

namespace Call

/-- The call is led to the tiers of DXF files. -/
def LeadsToTiers (isFile : String → σ → Bool) (call : Call σ) : Prop :=
  isFile call.path call.state = true ∧ HasExtension call.path "dxf"

instance (call : Call σ) : Decidable (call.LeadsToTiers isFile) :=
  inferInstanceAs (Decidable (_ ∧ _))

/-- There is no such file, or the file has no known format; the error says so. -/
def FailsWith (isFile : String → σ → Bool) (call : Call σ) (e : ImportError) : Prop :=
  (isFile call.path call.state = false ∧ e = .notFound call.path) ∨
    (isFile call.path call.state = true ∧ ¬HasExtension call.path "svg" ∧
      ¬HasExtension call.path "dxf" ∧ e = .unsupportedFormat (lowerExtension call.path))

/-- What is refused, and what is an SVG file, is not led to the tiers. -/
theorem not_leadsToTiers {call : Call σ}
    (h : (∃ e, call.FailsWith isFile e) ∨ HasExtension call.path "svg") :
    ¬call.LeadsToTiers isFile := by
  rintro ⟨hfile, hdxf⟩
  obtain ⟨e, ⟨hnone, -⟩ | ⟨-, -, hnone, -⟩⟩ | hsvg := h
  · exact absurd (hfile.symm.trans hnone) (by decide)
  · exact hnone hdxf
  · obtain ⟨written, hwritten, hlower⟩ := hdxf
    obtain ⟨same, hsame, hlower'⟩ := hsvg
    obtain rfl : written = same := Option.some.inj (hwritten.symm.trans hsame)
    exact absurd (hlower.symm.trans hlower') (by decide)

end Call

namespace Importer

def Format.extension : Format → String
  | svg => "svg"
  | dxf => "dxf"

theorem ofPath?_eq_some_iff {path : String} {format : Format} :
    Format.ofPath? path = some format ↔ HasExtension path format.extension := by
  rw [← lowerExtension_eq_iff (by cases format <;> decide), Format.ofPath?]
  split
  · rename_i heq
    cases format <;> simp [Format.extension, heq]
  · rename_i heq
    cases format <;> simp [Format.extension, heq]
  · rename_i hsvg hdxf
    refine iff_of_false (by simp) ?_
    cases format with
    | svg => exact hsvg
    | dxf => exact hdxf

theorem ofPath?_eq_none_iff {path : String} :
    Format.ofPath? path = none ↔ ¬HasExtension path "svg" ∧ ¬HasExtension path "dxf" := by
  have hsvg : Format.ofPath? path = some .svg ↔ HasExtension path "svg" := ofPath?_eq_some_iff
  have hdxf : Format.ofPath? path = some .dxf ↔ HasExtension path "dxf" := ofPath?_eq_some_iff
  rw [← hsvg, ← hdxf]
  cases Format.ofPath? path with
  | none => simp
  | some format => cases format <;> simp

/-- The answer to a call does not depend on the calls before. -/
theorem answer_eq (importer : Importer σ) (call : Call σ) :
    (importer.importFile isFile call.path call.state).1 =
      ((ofReaders importer.svg importer.tiers).importFile isFile call.path call.state).1 := by
  unfold importFile
  split
  · split <;> rfl
  · rfl

/-- A call is refused for want of a file or of a known format, and for nothing that a reader comes
to. -/
theorem answer_eq_error_iff (importer : Importer σ) (call : Call σ) (e : ImportError) :
    (importer.importFile isFile call.path call.state).1 = .error e ↔ call.FailsWith isFile e := by
  unfold importFile Call.FailsWith
  cases hfile : isFile call.path call.state with
  | false => simp [eq_comm]
  | true =>
    cases hformat : Format.ofPath? call.path with
    | none =>
      obtain ⟨hsvg, hdxf⟩ := ofPath?_eq_none_iff.1 hformat
      simp [hsvg, hdxf, eq_comm]
    | some format =>
      have hextension : HasExtension call.path format.extension := ofPath?_eq_some_iff.1 hformat
      cases format with
      | svg => simp [show HasExtension call.path "svg" from hextension]
      | dxf => simp [show HasExtension call.path "dxf" from hextension]

/-- A call that is led to the tiers leaves the artifacts of its report. -/
theorem importer_of_leadsToTiers (importer : Importer σ) {call : Call σ}
    (h : call.LeadsToTiers isFile) :
    ∃ report, (importer.importFile isFile call.path call.state).1 = .ok report ∧
      (importer.importFile isFile call.path call.state).2.1 =
        { importer with latest := report.artifacts } := by
  obtain ⟨hfile, hdxf⟩ := h
  have hformat : Format.ofPath? call.path = some .dxf := ofPath?_eq_some_iff.2 hdxf
  rw [importFile, if_pos hfile, hformat]
  exact ⟨_, rfl, rfl⟩

/-- Any other call leaves the importer as it was. -/
theorem importer_of_not_leadsToTiers (importer : Importer σ) {call : Call σ}
    (h : ¬call.LeadsToTiers isFile) :
    (importer.importFile isFile call.path call.state).2.1 = importer := by
  unfold importFile
  split
  · rename_i hfile
    split
    · rfl
    · rename_i hdxf
      exact absurd ⟨hfile, ofPath?_eq_some_iff.1 hdxf⟩ h
    · rfl
  · rfl

/-- The answers to calls one after the other, and the importer afterwards. What has become of the
state between two calls is left open. -/
def answerAll (importer : Importer σ) (isFile : String → σ → Bool) :
    List (Call σ) → List (Except ImportError Report) × Importer σ
  | [] => ([], importer)
  | call :: calls =>
    let (answer, next, _) := importer.importFile isFile call.path call.state
    let (answers, last) := answerAll next isFile calls
    (answer :: answers, last)

/-- The report of a call that was led to the tiers. -/
def reportOfTiers? (isFile : String → σ → Bool) (answered : Call σ × Except ImportError Report) :
    Option Report :=
  if answered.1.LeadsToTiers isFile then answered.2.toOption else none

/-- The reports of the calls that were led to the tiers. -/
def reportsOfTiers (isFile : String → σ → Bool) (calls : List (Call σ))
    (answers : List (Except ImportError Report)) : List Report :=
  (calls.zip answers).filterMap (reportOfTiers? isFile)

theorem answerAll_append (importer : Importer σ) (front back : List (Call σ)) :
    importer.answerAll isFile (front ++ back) =
      ((importer.answerAll isFile front).1 ++
        ((importer.answerAll isFile front).2.answerAll isFile back).1,
        ((importer.answerAll isFile front).2.answerAll isFile back).2) := by
  induction front generalizing importer with
  | nil => rfl
  | cons call front ih => simp only [List.cons_append, answerAll, ih]

theorem importer_answerAll_singleton (importer : Importer σ) (call : Call σ) :
    (importer.answerAll isFile [call]).2 = (importer.importFile isFile call.path call.state).2.1 :=
  rfl

/-- A call changes nothing about the readers. -/
theorem readers_importFile (importer : Importer σ) (isFile : String → σ → Bool) (call : Call σ) :
    (importer.importFile isFile call.path call.state).2.1.svg = importer.svg ∧
      (importer.importFile isFile call.path call.state).2.1.tiers = importer.tiers := by
  by_cases h : call.LeadsToTiers isFile
  · obtain ⟨report, -, hnext⟩ := importer.importer_of_leadsToTiers h
    rw [hnext]
    exact ⟨rfl, rfl⟩
  · rw [importer.importer_of_not_leadsToTiers h]
    exact ⟨rfl, rfl⟩

/-- Every call is answered as by an importer that has not been used. -/
theorem answers_answerAll (importer : Importer σ) (calls : List (Call σ)) :
    (importer.answerAll isFile calls).1 = calls.map fun call =>
      ((ofReaders importer.svg importer.tiers).importFile isFile call.path call.state).1 := by
  induction calls generalizing importer with
  | nil => rfl
  | cons call calls ih =>
    obtain ⟨hsvg, htiers⟩ := importer.readers_importFile isFile call
    rw [answerAll, List.map_cons, ← answer_eq]
    refine congrArg (List.cons _) ((ih _).trans ?_)
    rw [hsvg, htiers]

/-- The artifacts are those of the latest report of the tiers, or the ones from before. -/
theorem latest_answerAll (importer : Importer σ) (calls : List (Call σ)) :
    (importer.answerAll isFile calls).2.latest =
      ((reportsOfTiers isFile calls (importer.answerAll isFile calls).1).getLast?.map
        Report.artifacts).getD
        importer.latest := by
  induction calls generalizing importer with
  | nil => rfl
  | cons call calls ih =>
    simp only [answerAll, reportsOfTiers, List.zip_cons_cons] at ih ⊢
    rw [ih]
    by_cases h : call.LeadsToTiers isFile
    · obtain ⟨report, hanswer, hnext⟩ := importer.importer_of_leadsToTiers h
      have hreport : reportOfTiers? isFile (call, .ok report) = some report := if_pos h
      rw [hanswer, List.filterMap_cons_some hreport, List.getLast?_cons, hnext]
      cases ((calls.zip _).filterMap _).getLast? <;> rfl
    · have hreport : ∀ answer, reportOfTiers? isFile (call, answer) = none := fun _ => if_neg h
      rw [List.filterMap_cons_none (hreport _), importer.importer_of_not_leadsToTiers h]

/-- However an importer is used, every call is answered as by one that has not been used. A call is
refused exactly if there is no such file or the file has no known format, which leaves the artifacts
alone, as an SVG file does. The artifacts are always those of the latest call that was led to the
tiers, and none if there was no such call. -/
theorem answerAll_ofReaders (svg : Reader σ) (tiers : List (Reader σ)) (isFile : String → σ → Bool)
    (calls : List (Call σ)) :
    ((ofReaders svg tiers).answerAll isFile calls).1 =
        calls.map (fun call => ((ofReaders svg tiers).importFile isFile call.path call.state).1) ∧
      (∀ before call after, calls = before ++ call :: after → ∃ answer,
        ((ofReaders svg tiers).answerAll isFile calls).1[before.length]? = some answer ∧
          (∀ e, answer = .error e ↔ call.FailsWith isFile e) ∧
          ((∃ e, answer = .error e) ∨ HasExtension call.path "svg" →
            ((ofReaders svg tiers).answerAll isFile (before ++ [call])).2.latest =
              ((ofReaders svg tiers).answerAll isFile before).2.latest)) ∧
      ((ofReaders svg tiers).answerAll isFile calls).2.latest =
        ((reportsOfTiers isFile calls ((ofReaders svg tiers).answerAll isFile calls).1).getLast?.map
          Report.artifacts).getD .none := by
  refine ⟨answers_answerAll _ calls, ?_, latest_answerAll _ calls⟩
  rintro before call after rfl
  have hanswer : ∀ e, _ ↔ call.FailsWith isFile e := answer_eq_error_iff (ofReaders svg tiers) call
  refine ⟨_, ?_, hanswer, fun h => ?_⟩
  · rw [answers_answerAll, List.map_append, List.map_cons, List.getElem?_append_right (by simp)]
    simp [ofReaders]
  · have hnot : ¬call.LeadsToTiers isFile :=
      Call.not_leadsToTiers (h.imp_left fun ⟨e, he⟩ => ⟨e, (hanswer e).1 he⟩)
    rw [answerAll_append, importer_answerAll_singleton, importer_of_not_leadsToTiers _ hnot]

end Importer

end Turnery.Import
