import Turnery.Import.Standard
import Turnery.Proofs.Gcode.Passes
import Turnery.Proofs.Geometry.Populated

/-!
# Imported linework has no empty polylines

Polylines without points come about in many ways: entities without vertices, closed polylines of
nothing, splines without control points, records without points, paths that never move. None of them
gets into what a reader of drawings comes to. An import that has found nothing is thus told by the
absence of polylines, and the remark at the start of a program by which the number of polylines is
given tells how many passes every tool makes: `isPopulated_of_decoded`.
-/

namespace Turnery

theorem Svg.Document.isPopulated_linework (text : String) : (linework text).IsPopulated := by
  have hfold : ∀ (all : List (List Char)) (work : Linework Float), work.IsPopulated →
      (all.foldl (fun work data => work.extend (PathData.linework data)) work).IsPopulated := by
    intro all
    induction all with
    | nil => exact fun _ h => h
    | cons data rest ih => exact fun work h => ih _ (h.extend _)
  exact hfold _ _ Linework.isPopulated_empty

theorem Placement.isPopulated_linework (tess : Tessellation) (drawing : Drawing Float) :
    (linework tess drawing).IsPopulated :=
  Linework.isPopulated_ofList _

namespace Import

theorem Record.isPopulated_of_read {tess : Tessellation} {text : String} {work : Linework Float}
    (h : read tess text = .ok work) : work.IsPopulated := by
  unfold read at h
  split at h
  · nomatch h
  · split at h
    · nomatch h
    · split at h
      · nomatch h
      · split at h
        · obtain rfl := Except.ok.inj h
          exact Linework.isPopulated_ofList _
        · nomatch h

variable {σ : Type}

/-- The linework that the reader comes to has no empty polyline, whatever it is called for. -/
def Reader.Populates (reader : Reader σ) : Prop :=
  ∀ path artifacts state work, (reader.read path artifacts state).result = .ok work →
    work.IsPopulated

theorem Reader.populates_ofBytes {tier : Tier}
    {decode : List UInt8 → Except ImportError (Linework Float)}
    (h : ∀ bytes work, decode bytes = .ok work → work.IsPopulated) :
    (Reader.ofBytes tier decode).Populates := by
  intro path artifacts w work hwork
  simp only [Reader.ofBytes] at hwork
  split at hwork
  · nomatch hwork
  · exact h _ work hwork

theorem populates_svgReader : svgReader.Populates := by
  refine Reader.populates_ofBytes fun bytes work h => ?_
  split at h
  · nomatch h
  · obtain rfl := Except.ok.inj h
    exact Svg.Document.isPopulated_linework _

theorem populates_strictReader (tess : Tessellation) : (strictReader tess).Populates := by
  refine Reader.populates_ofBytes fun bytes work h => ?_
  unfold strictLinework at h
  split at h
  · nomatch h
  · obtain rfl := Except.ok.inj h
    exact Placement.isPopulated_linework tess _

theorem populates_scanReader (tess : Tessellation) : (scanReader tess).Populates := by
  refine Reader.populates_ofBytes fun bytes work h => ?_
  obtain rfl := Except.ok.inj h
  exact Placement.isPopulated_linework tess _

theorem Normalizer.isPopulated_of_readRecords {n : Normalizer} {w : Files.Workspace} {path : String}
    {work : Linework Float} (h : n.readRecords w path = .ok work) : work.IsPopulated := by
  unfold readRecords at h
  split at h
  · nomatch h
  · split at h
    · nomatch h
    · rename_i hread
      obtain rfl := Except.ok.inj h
      exact Record.isPopulated_of_read hread

theorem Normalizer.isPopulated_of_normalize {n : Normalizer} {programs : Files.Programs}
    {drawing : String} {w : Files.Workspace} {work : Linework Float}
    (h : (n.normalize programs drawing w).result = .ok work) :
    work.IsPopulated := by
  unfold normalize at h
  split at h
  · nomatch h
  · split at h
    · nomatch h
    · dsimp only [runScript] at h
      split at h
      · exact isPopulated_of_readRecords h
      · nomatch h

theorem populates_normalizerReader (programs : Files.Programs) (n : Normalizer) :
    (normalizerReader programs n).Populates := by
  intro path artifacts w work h
  have hresult : (n.normalize programs path w).result = .ok work := by
    dsimp only [normalizerReader, Normalizer.read] at h
    split at h
    · exact h
    · exact h
  exact Normalizer.isPopulated_of_normalize hresult

namespace Importer

theorem isPopulated_of_found? {reader : Reader σ} (h : reader.Populates) {path : String}
    {artifacts : Artifacts} {state : σ} {work : Linework Float}
    (hfound : found? (reader.read path artifacts state) = some work) :
    work.IsPopulated ∧ work.isEmpty = false := by
  unfold found? at hfound
  split at hfound
  · rename_i other hresult
    split at hfound
    · nomatch hfound
    · rename_i hempty
      obtain rfl := Option.some.inj hfound
      exact ⟨h _ _ _ other hresult, Bool.eq_false_iff.2 hempty⟩
  · nomatch hfound

theorem isPopulated_of_tryTiers {path : String} {tiers : List (Reader σ)}
    (h : ∀ reader ∈ tiers, reader.Populates) {artifacts : Artifacts} {state : σ}
    {work : Linework Float} {tier : Tier}
    (hfound : (tryTiers path tiers artifacts state).found = some (work, tier)) :
    work.IsPopulated ∧ work.isEmpty = false := by
  induction tiers generalizing artifacts state with
  | nil => nomatch hfound
  | cons reader rest ih =>
    obtain ⟨hreader, hrest⟩ := List.forall_mem_cons.1 h
    rw [tryTiers] at hfound
    cases hreading : found? (reader.read path artifacts state) with
    | some found =>
      simp only [hreading] at hfound
      obtain ⟨rfl, -⟩ := Prod.mk.inj (Option.some.inj hfound)
      exact isPopulated_of_found? hreader hreading
    | none =>
      simp only [hreading] at hfound
      exact ih hrest hfound

/-- What is reported has no empty polyline, and no tier is named if there is nothing. -/
theorem isPopulated_of_importFile {importer : Importer σ} (svg : importer.svg.Populates)
    (tiers : ∀ reader ∈ importer.tiers, reader.Populates) {isFile : String → σ → Bool}
    {path : String} {state : σ} {report : Report}
    (h : (importer.importFile isFile path state).1 = .ok report) :
    report.linework.IsPopulated ∧ (report.tier = none ↔ report.linework.isEmpty = true) := by
  unfold importFile at h
  split at h
  · split at h
    · obtain rfl := Except.ok.inj h
      constructor
      · dsimp only [importSvg]
        split
        · rename_i work hresult
          exact svg _ _ _ work hresult
        · exact Linework.isPopulated_empty
      · simp [importSvg]
    · obtain rfl := Except.ok.inj h
      dsimp only [importDxf]
      split
      · rename_i work tier hfound
        obtain ⟨hpopulated, hempty⟩ := isPopulated_of_tryTiers tiers hfound
        exact ⟨hpopulated, iff_of_false (by simp) (by simp [hempty])⟩
      · exact ⟨Linework.isPopulated_empty, iff_of_true rfl rfl⟩
    · nomatch h
  · nomatch h

theorem isPopulated_of_standard {programs : Files.Programs} {options : Options}
    {isFile : String → Files.Workspace → Bool} {path : String} {w : Files.Workspace}
    {report : Report} (h : ((standard programs options).importFile isFile path w).1 = .ok report) :
    report.linework.IsPopulated ∧ (report.tier = none ↔ report.linework.isEmpty = true) := by
  refine isPopulated_of_importFile populates_svgReader ?_ h
  intro reader hreader
  simp only [standard, ofReaders, List.mem_cons, List.not_mem_nil, or_false] at hreader
  rcases hreader with rfl | rfl | rfl
  · exact populates_strictReader _
  · exact populates_normalizerReader _ _
  · exact populates_scanReader _

end Importer

/-- What the readers of drawings come to, and what is put together from nothing, has no empty
polyline. Such linework is empty exactly if it has no polyline, no point or no bounds, and a program
for it says how many passes every tool makes. The standard importer names no tier exactly if there
is no polyline. -/
theorem isPopulated_of_decoded :
    (∀ text, (Svg.Document.linework text).IsPopulated) ∧
      (∀ tess text, (Placement.linework tess (Dxf.Scan.drawing text)).IsPopulated) ∧
      (∀ tess (drawing : Drawing Float), (Placement.linework tess drawing).IsPopulated) ∧
      (∀ tess text work, Record.read tess text = .ok work → work.IsPopulated) ∧
      (∀ work : Linework Float, work.Built → work.IsPopulated) ∧
      (∀ work : Linework Float, work.IsPopulated →
        [work.isEmpty = true, work.polylineCount = 0, work.pointCount = 0,
          work.bounds = none].TFAE ∧
          ∀ (turning : Gcode.Turning) (job : Job), turning.AnnouncesPasses work job) ∧
      ∀ programs options isFile path w report,
        ((Importer.standard programs options).importFile isFile path w).1 = .ok report →
          report.linework.IsPopulated ∧ (report.tier = none ↔
            report.linework.polylineCount = 0) := by
  refine ⟨Svg.Document.isPopulated_linework, fun tess text => Placement.isPopulated_linework tess _,
    Placement.isPopulated_linework, fun tess text work h => Record.isPopulated_of_read h,
    fun work h => h.isPopulated, fun work h =>
      ⟨h.tfae, fun turning job => turning.announcesPasses h job⟩, ?_⟩
  intro programs options isFile path w report h
  obtain ⟨hpopulated, htier⟩ := Importer.isPopulated_of_standard h
  exact ⟨hpopulated, htier.trans (hpopulated.tfae.out 0 1)⟩

end Import

end Turnery
