import Turnery.Proofs.Datum.Json
import Turnery.Proofs.Datum.Schema
import Turnery.Settings.File

/-!
# Settings read back

Settings that have been saved are loaded again as they were, in either format: `load_of_save`. Each
section restores its fields, `ofDatum?_readBack` puts the sections together, and `read?_write?` goes
through the text of a format.
-/

namespace Turnery.Files.Workspace

theorem exists_node?_of_isFile {w : Workspace} {path : String} (h : w.isFile path = true) :
    ∃ place content, w.place? path = .ok place ∧ w.node? place = some (.file content) ∧
      Path.namesDirectory path = false := by
  unfold isFile at h
  split at h
  · rename_i content hfind
    unfold find? at hfind
    cases hplace : w.place? path with
    | error e =>
      rw [hplace] at hfind
      cases hfind
    | ok place =>
      rw [hplace] at hfind
      change w.found path place = _ at hfind
      unfold found at hfind
      split at hfind
      · cases hfind
      · cases hfind
      · rename_i node _ hnode
        split at hfind
        · cases hfind
        · rename_i hnames
          obtain rfl := Except.ok.inj hfind
          exact ⟨place, content, rfl, hnode, by simpa using hnames⟩
  · cases h

theorem read_of_node? {w : Workspace} {path : String} {place : Place} {content : List UInt8}
    (hplace : w.place? path = .ok place) (hnode : w.node? place = some (.file content))
    (hnames : Path.namesDirectory path = false) : w.read path = .ok content := by
  simp [read, find?, found, hplace, hnode, hnames, bind, Except.bind]

/-- What has been written to a file is its text from then on. -/
theorem readText_writeText {w w' : Workspace} {path text : String}
    (h : w.writeText path text = .ok w') (hfile : w'.isFile path = true) :
    w'.readText path = .ok text := by
  have hread : w'.read path = .ok (Text.Utf8.encode text.toList) := by
    rcases read_write h with hread | ⟨rfl, -⟩
    · exact hread
    · -- Writing has changed nothing, so the file held these bytes before.
      obtain ⟨place, content, hplace, hnode, hnames⟩ := exists_node?_of_isFile hfile
      have hsame : w'.put place (.file (Text.Utf8.encode text.toList)) = w' := by
        simp only [writeText, write, hplace, hnode, hnames, bind, Except.bind] at h
        exact Except.ok.inj h
      have hroot : place ≠ [] := by
        rintro rfl
        cases hnode
      refine read_of_node? hplace ?_ hnames
      rw [← hsame]
      exact node?_put_self w' _ hroot
  rw [readText, hread]
  simp [Text.Utf8.decode?_encode, bind, Except.bind]

/-- A file is made where nothing is yet. -/
theorem exists_writeText_new {w : Workspace} {path : String} {place : Place}
    (hplace : w.place? path = .ok place) (hnode : w.node? place = none)
    (hnames : Path.namesDirectory path = false) (text : String) :
    ∃ w', w.writeText path text = .ok w' ∧ w'.isFile path = true := by
  refine ⟨w.put place (.file (Text.Utf8.encode text.toList)), ?_, ?_⟩
  · simp [writeText, write, hplace, hnode, hnames, bind, Except.bind]
  · have hroot : place ≠ [] := by
      rintro rfl
      cases hnode
    have hput : (w.put place (.file (Text.Utf8.encode text.toList))).place? path = .ok place :=
      placeBy_put (.inl hnode) hplace
    simp [isFile, find?, found, hput, node?_put_self w _ hroot, hnames, bind, Except.bind]

end Turnery.Files.Workspace

namespace Turnery.Settings

open Schema (Keeps restore read?_of_restores)
open Datum (isNull withoutNulls)

theorem nat?_ofNat (n : ℕ) : Datum.nat? (ofNat n) = some n := by
  simp [ofNat, Datum.nat?]

theorem texts?_texts (names : List String) :
    Datum.texts? (.list (names.map .text)) = some names := by
  rw [Datum.texts?]
  induction names with
  | nil => rfl
  | cons name names ih =>
    rw [List.map_cons, List.mapM_cons, ih]
    rfl

theorem units?_name (dialect : Dialect) (units : Units) :
    units? dialect (.text units.name) = some units := by
  cases units <;> rfl

section Fields

variable {σ α : Type} {dialect : Dialect} {kept : Field σ → Option Datum} {s : σ}

/-- A field whose values are never null is restored if it reads what it writes. -/
theorem restore_plainField (h : Keeps kept s) {name : String} {read? : Datum → Option α}
    {write : α → Datum} {get : σ → α} {set : α → σ → σ} (hnull : isNull (write (get s)) = false)
    (hread : read? (write (get s)) = some (get s)) (t : σ) :
    restore dialect kept t (plainField name read? write get set) = some (set (get s) t) := by
  rw [h.restore_eq hnull, plainField]
  simp only [hread, Option.map_some]

theorem restore_count (h : Keeps kept s) {name : String} {get : σ → ℕ} {set : ℕ → σ → σ} (t : σ) :
    restore dialect kept t (plainField name Datum.nat? ofNat get set) = some (set (get s) t) :=
  restore_plainField h rfl (nat?_ofNat (get s)) t

theorem restore_real (h : Keeps kept s) {name : String} {get : σ → Float} {set : Float → σ → σ}
    (t : σ) :
    restore dialect kept t (plainField name Datum.real? .real get set) = some (set (get s) t) :=
  restore_plainField h rfl rfl t

theorem foldlM_restore_cons {field : Field σ} {fields : Schema σ} {t t' : σ}
    (h : restore dialect kept t field = some t') :
    (field :: fields).foldlM (restore dialect kept) t =
      fields.foldlM (restore dialect kept) t' := by
  rw [List.foldlM_cons, h]
  rfl

end Fields

variable {dialect : Dialect}

theorem optionalText?_ofOptionalText (text : Option String) :
    optionalText? (ofOptionalText text) = some text := by
  cases text <;> rfl

/-- A script that is absent is null when it is written, and absent again when nothing is read. -/
theorem restore_script {kept : Field ImportSettings → Option Datum} {s t : ImportSettings}
    (h : Keeps kept s) (ht : t.normalizerScript = none) :
    restore dialect kept t (plainField "normalizer_script" optionalText? ofOptionalText
      ImportSettings.normalizerScript fun x s => { s with normalizerScript := x }) =
        some { t with normalizerScript := s.normalizerScript } := by
  rcases h (plainField "normalizer_script" optionalText? ofOptionalText
      ImportSettings.normalizerScript fun x s =>
        { s with normalizerScript := x }) with hkept | ⟨hnull, hnone⟩
  · rw [restore, hkept]
    simp only [plainField, optionalText?_ofOptionalText, Option.map_some]
  · have hs : s.normalizerScript = none := by
      cases hscript : s.normalizerScript with
      | none => rfl
      | some script =>
        simp only [plainField, hscript] at hnull
        cases hnull
    rw [restore, hnone, hs, ← ht]

theorem restores_import {s : ImportSettings} {kept : Field ImportSettings → Option Datum}
    (h : Keeps kept s) :
    importSchema.foldlM (restore dialect kept) standard.drawings = some s := by
  have hexplode : ∀ t, restore dialect kept t (plainField "explode_inserts" Datum.bool? .bool
      ImportSettings.explodeInserts fun x s => { s with explodeInserts := x }) =
        some { t with explodeInserts := s.explodeInserts } :=
          fun t => restore_plainField h rfl rfl t
  rw [importSchema, foldlM_restore_cons (restore_count h _),
    foldlM_restore_cons (restore_script h rfl),
    foldlM_restore_cons (restore_plainField h rfl (texts?_texts _) _),
    foldlM_restore_cons (restore_count h _), foldlM_restore_cons (hexplode _)]
  rfl

theorem restores_generation {s : GenerationSettings}
    {kept : Field GenerationSettings → Option Datum} (h : Keeps kept s) :
    generationSchema.foldlM (restore dialect kept) standard.generation = some s := by
  have hunits : ∀ t, restore dialect kept t unitsField = some { t with units := s.units } := by
    intro t
    rw [h.restore_eq rfl, unitsField]
    simp only [units?_name, Option.map_some]
  rw [generationSchema, foldlM_restore_cons (restore_real h _),
    foldlM_restore_cons (restore_real h _), foldlM_restore_cons (restore_real h _),
    foldlM_restore_cons (restore_real h _),
    foldlM_restore_cons (restore_real h _), foldlM_restore_cons (hunits _)]
  rfl

theorem restores_simulation {s : SimulationSettings}
    {kept : Field SimulationSettings → Option Datum} (h : Keeps kept s) :
    simulationSchema.foldlM (restore dialect kept) standard.simulation = some s := by
  rw [simulationSchema, foldlM_restore_cons (restore_count h _),
    foldlM_restore_cons (restore_real h _)]
  rfl

/-- The datum of a section after it has gone through the text of a format: in TOML what is null is
left out. -/
def Format.kept : Format → Datum → Datum
  | json, d => d
  | toml, d => withoutNulls d

theorem read?_kept {σ : Type} {schema : Schema σ} (hnamed : schema.IsNamed) {s s₀ : σ}
    (h : ∀ kept, Keeps kept s → schema.foldlM (restore dialect kept) s₀ = some s)
    (format : Format) :
    schema.read? dialect s₀ (format.kept (schema.toDatum s)) = some s := by
  cases format with
  | json => exact (read?_of_restores hnamed h).1
  | toml => exact (read?_of_restores hnamed h).2

theorem restore_sectionField {σ τ : Type} {kept : Field σ → Option Datum} {name : String}
    {schema : Schema τ} {standard : τ} {get : σ → τ} {set : τ → σ → σ} {s : σ} {d : Datum}
    (hkept : kept (sectionField name schema standard get set) = some d)
    (hread : schema.read? dialect standard d = some (get s)) (t : σ) :
    restore dialect kept t (sectionField name schema standard get set) = some (set (get s) t) := by
  rw [restore, hkept]
  simp only [sectionField, hread, Option.map_some]

/-- The settings as they come back from the text of a format. -/
def Format.readBack (format : Format) (s : Settings) : Datum :=
  .record (schema.map fun field => (some field.name, format.kept (field.get s)))

/-- Whatever a format leaves out, the settings are the same again. -/
theorem ofDatum?_readBack (format : Format) (s : Settings) :
    ofDatum? dialect (format.readBack s) = some s := by
  have hwritten : format.readBack s =
      .record (Schema.written (fun field => some (format.kept (field.get s))) schema) := by
    simp [Format.readBack, Schema.written]
  rw [hwritten, ofDatum?, Schema.read?_written (by decide), schema,
    foldlM_restore_cons (restore_sectionField rfl
      (read?_kept (by decide) (fun _ => restores_import) format) _),
    foldlM_restore_cons (restore_sectionField rfl
      (read?_kept (by decide) (fun _ => restores_generation) format) _),
    foldlM_restore_cons (restore_sectionField rfl
      (read?_kept (by decide) (fun _ => restores_simulation) format) _)]
  rfl

/-- The doubles among the settings. -/
def reals (s : Settings) : List Float :=
  [s.generation.feed, s.generation.spindle, s.generation.scale, s.generation.safeZ,
    s.generation.depthPerPass, s.simulation.speed]

/-- The numbers that count something have 64 bits. -/
structure IsNative (s : Settings) : Prop where
  segments : s.drawings.segments < 2 ^ 64
  timeoutSeconds : s.drawings.timeoutSeconds < 2 ^ 64
  baseIntervalMillis : s.simulation.baseIntervalMillis < 2 ^ 64

/-- Settings that are accepted hold finite doubles only. -/
theorem isFinite_of_check {s : Settings} (h : s.check = none) :
    ∀ x ∈ s.reals, x.isFinite = true := by
  have hall := (check_eq_none_iff s).1 h
  have hpositive : ∀ {x : Float}, isPositive x = true → x.isFinite = true := by
    intro x hx
    exact (Bool.and_eq_true_iff.1 hx).1
  simp only [conditions, List.mem_cons, List.not_mem_nil, or_false, forall_eq_or_imp,
    forall_eq] at hall
  obtain ⟨-, -, -, hfeed, hspindle, hscale, hsafe, hdepth, -, hspeed⟩ := hall
  simp only [reals, List.mem_cons, List.not_mem_nil, or_false, forall_eq_or_imp, forall_eq]
  exact ⟨hpositive hfeed, hpositive hspindle, hpositive hscale, hsafe, hpositive hdepth,
    hpositive hspeed⟩

section Json

open Datum (InJson InJsonItems)
open Json.Lexeme (ReadsBack)

theorem inJson_toDatum {σ : Type} {schema : Schema σ} {s : σ}
    (h : ∀ field ∈ schema, InJson (field.get s)) :
    InJson (schema.toDatum s) := by
  rw [Schema.toDatum, InJson]
  induction schema with
  | nil => trivial
  | cons field schema ih =>
    exact ⟨rfl, h field List.mem_cons_self,
      ih fun field' hfield => h field' (List.mem_cons_of_mem field hfield)⟩

theorem inJson_ofNat {n : ℕ} (h : n < 2 ^ 64) : InJson (ofNat n) := by
  rw [ofNat, InJson]
  omega

theorem inJson_ofOptionalText (text : Option String) : InJson (ofOptionalText text) := by
  cases text <;> trivial

theorem inJson_texts (names : List String) : InJson (.list (names.map .text)) := by
  rw [InJson]
  induction names with
  | nil => trivial
  | cons name names ih => exact ⟨trivial, ih⟩

/-- JSON can hold settings whose doubles it can hold. -/
theorem inJson_settings {s : Settings} (hnative : s.IsNative)
    (hreals : ∀ x ∈ s.reals, InJson (.real x)) :
    InJson s.toDatum := by
  simp only [reals, List.mem_cons, List.not_mem_nil, or_false, forall_eq_or_imp, forall_eq]
    at hreals
  obtain ⟨hfeed, hspindle, hscale, hsafe, hdepth, hspeed⟩ := hreals
  have himport : InJson (importSchema.toDatum s.drawings) := by
    refine inJson_toDatum ?_
    simp only [importSchema, List.mem_cons, List.not_mem_nil, or_false, forall_eq_or_imp, forall_eq]
    exact ⟨inJson_ofNat hnative.segments, inJson_ofOptionalText _, inJson_texts _,
      inJson_ofNat hnative.timeoutSeconds, trivial⟩
  have hgeneration : InJson (generationSchema.toDatum s.generation) := by
    refine inJson_toDatum ?_
    simp only [generationSchema, List.mem_cons, List.not_mem_nil, or_false, forall_eq_or_imp,
      forall_eq]
    exact ⟨hfeed, hspindle, hscale, hsafe, hdepth, trivial⟩
  have hsimulation : InJson (simulationSchema.toDatum s.simulation) := by
    refine inJson_toDatum ?_
    simp only [simulationSchema, List.mem_cons, List.not_mem_nil, or_false, forall_eq_or_imp,
      forall_eq]
    exact ⟨inJson_ofNat hnative.baseIntervalMillis, hspeed⟩
  refine inJson_toDatum ?_
  simp only [schema, List.mem_cons, List.not_mem_nil, or_false, forall_eq_or_imp, forall_eq]
  exact ⟨himport, hgeneration, hsimulation⟩

end Json

section Toml

open Datum (InToml IsSection)
open Toml.Lexical (isBare)
open Toml.Reader (IsBareName)

theorem isSection_toDatum {σ : Type} {schema : Schema σ} (hnamed : schema.IsNamed)
    (hbare : ∀ name ∈ schema.map Field.name, IsBareName name) {s : σ}
    (h : ∀ field ∈ schema, ∀ x, field.get s = .real x → x.isFinite = true) :
    IsSection (schema.toDatum s) := by
  refine ⟨Schema.areNamed_map hnamed hbare fun field => field.get s, fun m hm => ?_⟩
  obtain ⟨field, hfield, rfl⟩ := List.mem_map.1 hm
  exact h field hfield

theorem bareNames_import : ∀ name ∈ importSchema.map Field.name, IsBareName name := by
  simp [importSchema, plainField, IsBareName, isBare]

theorem bareNames_generation : ∀ name ∈ generationSchema.map Field.name, IsBareName name := by
  simp [generationSchema, plainField, unitsField, IsBareName, isBare]

theorem bareNames_simulation : ∀ name ∈ simulationSchema.map Field.name, IsBareName name := by
  simp [simulationSchema, plainField, IsBareName, isBare]

theorem bareNames_schema : ∀ name ∈ schema.map Field.name, IsBareName name := by
  simp [schema, sectionField, IsBareName, isBare]

/-- TOML can hold settings whose doubles are finite. -/
theorem inToml_settings {s : Settings} (hreals : ∀ x ∈ s.reals, x.isFinite = true) :
    InToml s.toDatum := by
  simp only [reals, List.mem_cons, List.not_mem_nil, or_false, forall_eq_or_imp, forall_eq]
    at hreals
  obtain ⟨hfeed, hspindle, hscale, hsafe, hdepth, hspeed⟩ := hreals
  have ofReal : ∀ {y : Float}, y.isFinite = true → ∀ x, Datum.real y = .real x →
      x.isFinite = true := by
    rintro y hy x ⟨⟩
    exact hy
  have himport : IsSection (importSchema.toDatum s.drawings) := by
    refine isSection_toDatum (by decide) bareNames_import ?_
    simp only [importSchema, List.mem_cons, List.not_mem_nil, or_false, forall_eq_or_imp, forall_eq]
    refine ⟨nofun, fun x hx => ?_, nofun, nofun, nofun⟩
    cases hscript : s.drawings.normalizerScript <;>
      (simp only [plainField, hscript] at hx; cases hx)
  have hgeneration : IsSection (generationSchema.toDatum s.generation) := by
    refine isSection_toDatum (by decide) bareNames_generation ?_
    simp only [generationSchema, List.mem_cons, List.not_mem_nil, or_false, forall_eq_or_imp,
      forall_eq]
    exact ⟨ofReal hfeed, ofReal hspindle, ofReal hscale, ofReal hsafe, ofReal hdepth, nofun⟩
  have hsimulation : IsSection (simulationSchema.toDatum s.simulation) := by
    refine isSection_toDatum (by decide) bareNames_simulation ?_
    simp only [simulationSchema, List.mem_cons, List.not_mem_nil, or_false, forall_eq_or_imp,
      forall_eq]
    exact ⟨nofun, ofReal hspeed⟩
  refine ⟨Schema.areNamed_map (by decide) bareNames_schema fun field => field.get s, fun m hm => ?_⟩
  obtain ⟨field, hfield, rfl⟩ := List.mem_map.1 hm
  revert field
  simp only [schema, List.mem_cons, List.not_mem_nil, or_false, forall_eq_or_imp, forall_eq]
  exact ⟨fun _ => himport, fun _ => hgeneration, fun _ => hsimulation⟩

end Toml

/-- The text of a format is read as the settings for which it was written. -/
theorem Format.read?_write? {format : Format} {s : Settings} (hnative : s.IsNative)
    (hfinite : ∀ x ∈ s.reals, x.isFinite = true)
    (hback : format = .json → ∀ x ∈ s.reals, Json.Lexeme.ReadsBack x) {text : String}
    (h : format.write? s.toDatum = some text) : format.read? text = some (format.readBack s) := by
  cases format with
  | json =>
    obtain rfl := Option.some.inj h
    exact Datum.ofJsonText?_jsonText
      (inJson_settings hnative fun x hx => ⟨hfinite x hx, hback rfl x hx⟩)
  | toml =>
    have hread := Datum.ofTomlText?_tomlText? (inToml_settings hfinite) h
    rw [List.map_map] at hread
    exact hread

/-- Whatever text accepted settings are written as, parsing it gives these settings. -/
theorem parse_toText {format : Format} {s : Settings} (hnative : s.IsNative)
    (hcheck : s.check = none) (hback : format = .json → ∀ x ∈ s.reals, Json.Lexeme.ReadsBack x)
    {text : String} (h : toText format s = .ok text) : parse format text = .ok s := by
  have hwritten : format.write? s.toDatum = some text := by
    rw [toText] at h
    split at h
    · rename_i heq
      rw [heq, Except.ok.inj h]
    · cases h
  have hread := Format.read?_write? hnative (isFinite_of_check hcheck) hback hwritten
  have htext : ofText format text = .ok s := by
    rw [ofText, hread, Option.bind_some, ofDatum?_readBack]
  have hvalid : s.validate = .ok () := by rw [validate, hcheck]
  rw [parse, htext]
  simp only [bind, Except.bind, hvalid]

section Files

open Turnery.Files

/-- Settings that are refused are not saved, whatever the path. -/
theorem save_of_check {s : Settings} {e : SettingsError} (h : s.check = some e) (w : Workspace)
    (path : String) :
    save w path s = .error (.settings e) := by
  rw [save, validate, h]
  rfl

section Results

variable {ε ε' α β : Type}

/-- Two steps succeed only one after the other. -/
theorem exists_of_bind_eq_ok {x : Except ε α} {f : α → Except ε β} {b : β} (h : (x >>= f) = .ok b) :
    ∃ a, x = .ok a ∧ f a = .ok b := by
  cases x with
  | error e => cases h
  | ok a => exact ⟨a, rfl, h⟩

theorem of_mapError_eq_ok {x : Except ε α} {f : ε → ε'} {a : α} (h : x.mapError f = .ok a) :
    x = .ok a := by
  cases x with
  | error e => cases h
  | ok b => exact congrArg Except.ok (Except.ok.inj h)

end Results

/-- What `save` does if it succeeds: the settings are accepted, and their text in the format of the
path is written. -/
theorem exists_toText_of_save {w w' : Workspace} {path : String} {s : Settings}
    (h : save w path s = .ok w') :
    s.check = none ∧ ∃ format text made, formatOf path = .ok format ∧ toText format s = .ok text ∧
      w.makeParent path = .ok made ∧ made.writeText path text = .ok w' := by
  have hcheck : s.check = none := by
    cases hcheck : s.check with
    | none => rfl
    | some e =>
      rw [save_of_check hcheck] at h
      cases h
  rw [save] at h
  obtain ⟨-, -, h⟩ := exists_of_bind_eq_ok h
  obtain ⟨format, hformat, h⟩ := exists_of_bind_eq_ok h
  obtain ⟨text, htext, h⟩ := exists_of_bind_eq_ok h
  obtain ⟨made, hmade, hwritten⟩ := exists_of_bind_eq_ok (of_mapError_eq_ok h)
  exact ⟨hcheck, format, text, made, hformat, of_mapError_eq_ok htext, hmade, hwritten⟩

/-- Accepted settings are saved once the file can be written. -/
theorem save_eq_ok {s : Settings} (hcheck : s.check = none) {path : String} {format : Format}
    (hformat : formatOf path = .ok format) {text : String} (htext : toText format s = .ok text)
    {w made w' : Workspace} (hmade : w.makeParent path = .ok made)
    (hwritten : made.writeText path text = .ok w') :
    save w path s = .ok w' := by
  have hvalid : s.validate = .ok () := by rw [validate, hcheck]
  rw [save, hvalid, hformat]
  simp only [bind, Except.bind, Except.mapError, htext, hmade, hwritten]

theorem load_of_readText {v : Workspace} {path : String} {format : Format}
    (hformat : formatOf path = .ok format) {text : String} (htext : v.readText path = .ok text)
    {s : Settings} (h : parse format text = .ok s) :
    load v path = .ok s := by
  rw [load, hformat, htext]
  simp only [bind, Except.bind, Except.mapError, h]

/-- Whenever settings are saved, the text that was written is loaded as these settings, wherever it
is found under a path of its format, and so is the file itself; and settings that are refused are
never saved. Counts have the 64 bits of their type. For JSON the doubles among the settings are
those that the arithmetic of the reader finds again; nothing is assumed for TOML. -/
theorem load_of_save (w : Workspace) (path : String) (s : Settings) :
    (∀ w', save w path s = .ok w' → s.IsNative →
      (formatOf path = .ok .json → ∀ x ∈ s.reals, Json.Lexeme.ReadsBack x) →
      ∃ text made, w.makeParent path = .ok made ∧ made.writeText path text = .ok w' ∧
        (∀ v : Workspace, ∀ other, formatOf other = formatOf path → v.readText other = .ok text →
          load v other = .ok s) ∧
        (w'.isFile path = true → load w' path = .ok s)) ∧
      ∀ e, s.check = some e → save w path s = .error (.settings e) := by
  refine ⟨fun w' hsave hnative hback => ?_, fun e he => save_of_check he w path⟩
  obtain ⟨hcheck, format, text, made, hformat, htext, hmade, hwritten⟩ :=
    exists_toText_of_save hsave
  have hparse : parse format text = .ok s := by
    refine parse_toText hnative hcheck (fun hjson => hback ?_) htext
    rw [hformat, hjson]
  exact ⟨text, made, hmade, hwritten,
    fun v other hother hread => load_of_readText (hother.trans hformat) hread hparse, fun hfile =>
      load_of_readText hformat (Workspace.readText_writeText hwritten hfile) hparse⟩

/-- Settings with marks, a backslash, a control character and a letter that is not English, with the
largest and the smallest positive double and a negative zero, come back from both formats; without
segments they are refused. -/
theorem load_of_save_odd_settings :
    let s : Settings :=
      { drawings := ⟨64, some "/opt/\"n\\\x01ü.py", ["py'\"\"\"3", "p\tq"], 120, false⟩
        generation := ⟨5e-324, 1.7976931348623157e308, 1e-7, -0.0, 0.1, .inch⟩
        simulation := ⟨20, 2.5⟩ }
    let refused : Settings := { s with drawings := { s.drawings with segments := 0 } }
    let w : Workspace := ⟨[], [], [], none, 0, []⟩
    (∃ w', save w "lathe.json" s = .ok w' ∧ w'.isFile "lathe.json" = true ∧
      load w' "lathe.json" = .ok s) ∧
      (∃ w', save w "lathe.toml" s = .ok w' ∧ w'.isFile "lathe.toml" = true ∧
        load w' "lathe.toml" = .ok s) ∧
      save w "lathe.toml" refused =
          .error (.settings (.invalidValue "import.segments" "must be > 0")) := by
  intro s refused w
  have hcheck : s.check = none := by decide +kernel
  have hnative : s.IsNative := ⟨by decide, by decide, by decide⟩
  have hback : ∀ x ∈ s.reals, Json.Lexeme.ReadsBack x := by
    have hdenoted : ∀ x ∈ s.reals, (Json.Lexeme.value? (Datum.jsonReal x).toList).bind
        Json.Lexeme.denoted? = some (Number.Binary64.ofFloat x) := by decide +kernel
    exact fun x hx =>
      Json.Lexeme.readsBack_of_denoted? (isFinite_of_check hcheck x hx) (hdenoted x hx)
  have hsaved : ∀ path format, formatOf path = .ok format → (toText format s).toBool = true →
      w.place? path = .ok [path] → w.node? [path] = none → Path.namesDirectory path = false →
      w.makeParent path = .ok w →
      ∃ w', save w path s = .ok w' ∧ w'.isFile path = true ∧ load w' path = .ok s := by
    intro path format hformat htext hplace hnode hnames hmade
    cases hwritten : toText format s with
    | error e =>
      rw [hwritten] at htext
      cases htext
    | ok text =>
      obtain ⟨w', hw', hfile⟩ := Workspace.exists_writeText_new hplace hnode hnames text
      have hsave := save_eq_ok hcheck hformat hwritten hmade hw'
      obtain ⟨-, -, -, -, -, hload⟩ := (load_of_save w path s).1 w' hsave hnative fun _ => hback
      exact ⟨w', hsave, hfile, hload hfile⟩
  refine ⟨hsaved "lathe.json" .json rfl rfl ?_ rfl rfl rfl,
    hsaved "lathe.toml" .toml rfl ?_ ?_ rfl rfl rfl, ?_⟩
  · have hplain : "lathe.json".contains '\x00' = false := by simp
    rw [Workspace.place?, Workspace.placeBy, Workspace.fault?, hplain]
    rfl
  · decide +kernel
  · have hplain : "lathe.toml".contains '\x00' = false := by simp
    rw [Workspace.place?, Workspace.placeBy, Workspace.fault?, hplain]
    rfl
  · exact (load_of_save w "lathe.toml" refused).2 _ rfl

end Files

end Turnery.Settings
