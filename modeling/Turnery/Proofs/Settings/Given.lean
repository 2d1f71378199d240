import Turnery.Proofs.Settings.Reread
import Turnery.Proofs.Text.Trim

/-!
# Settings given in part

A settings file gives any of the sections, and each section any of its settings; other names may
stand between them. `Given` is what a file gives, and `Given.In` says where it stands in the data of
the file. What is not given stays as it is (`ofDatum?_of_in`), and what comes of that is loaded if
it is sound, and else refused for the first condition that it violates: `load_of_given`.
-/

namespace Turnery

namespace Datum

/-- What stands under a name in a record: nothing, or one value, which denotes something. -/
inductive Stands {β : Type} (Denotes : Datum → β → Prop) (members : List (Option String × Datum))
    (name : String) : Option β → Prop where
  | absent (habsent : ∀ m ∈ members, m.1 ≠ some name) : Stands Denotes members name none
  | once (before after : List (Option String × Datum)) {d : Datum} {x : β}
      (hmembers : members = before ++ (some name, d) :: after)
      (hbefore : ∀ m ∈ before, m.1 ≠ some name) (hafter : ∀ m ∈ after, m.1 ≠ some name)
      (hdenotes : Denotes d x) : Stands Denotes members name (some x)

theorem valuesOf_of_absent {members : List (Option String × Datum)} {name : String}
    (h : ∀ m ∈ members, m.1 ≠ some name) : valuesOf name members = [] := by
  rw [valuesOf, List.map_eq_nil_iff, List.filter_eq_nil_iff]
  intro m hm
  simpa using h m hm

theorem valuesOf_of_once {before after : List (Option String × Datum)} {name : String} {d : Datum}
    (hbefore : ∀ m ∈ before, m.1 ≠ some name) (hafter : ∀ m ∈ after, m.1 ≠ some name) :
    valuesOf name (before ++ (some name, d) :: after) = [d] := by
  have hfront := valuesOf_of_absent hbefore
  have hback := valuesOf_of_absent hafter
  simp only [valuesOf, List.map_eq_nil_iff] at hfront hback
  simp [valuesOf, List.filter_append, hfront, hback]

end Datum

namespace Schema

open Datum (Stands valuesOf)

variable {σ β : Type} {dialect : Dialect} {members : List (Option String × Datum)}
  {given : Option β}

/-- A field gets what is given for it. -/
theorem readField_of_stands {Denotes : Datum → β → Prop} {field : Field σ}
    (h : Stands Denotes members field.name given) {s : σ} {set : β → σ}
    (hset : ∀ d x, Denotes d x → field.set dialect d s = some (set x)) :
    readField dialect field (valuesOf field.name members) s = some (given.elim s set) := by
  cases h with
  | absent habsent =>
    rw [Datum.valuesOf_of_absent habsent]
    rfl
  | once before after hmembers hbefore hafter hdenotes =>
    rw [hmembers, Datum.valuesOf_of_once hbefore hafter]
    exact hset _ _ hdenotes

end Schema

namespace Settings

open Datum (Stands valuesOf)

/-- A number that counts something. -/
inductive IsCount : Datum → ℕ → Prop where
  | integer (n : ℕ) : IsCount (.integer n) n

/-- A number; an integer stands for the double nearest to it. -/
inductive IsNumber : Datum → Float → Prop where
  | real (x : Float) : IsNumber (.real x) x
  | integer (n : ℤ) : IsNumber (.integer n) (Datum.floatOfInt n)

/-- A text that may be absent. -/
inductive IsOptionalText : Datum → Option String → Prop where
  | null : IsOptionalText .null none
  | text (s : String) : IsOptionalText (.text s) (some s)

inductive IsTexts : Datum → List String → Prop where
  | list (texts : List String) : IsTexts (.list (texts.map .text)) texts

/-- A truth value. -/
inductive IsBool : Datum → Bool → Prop where
  | bool (b : Bool) : IsBool (.bool b) b

/-- A unit: its name, or its name with a value that says nothing. -/
inductive IsUnits (dialect : Dialect) : Datum → Units → Prop where
  | name (units : Units) : IsUnits dialect (.text units.name) units
  | record (units : Units) {value : Datum} (hvalue : dialect.isUnit value = true) :
      IsUnits dialect (.record [(some units.name, value)]) units

structure GivenImport where
  segments : Option ℕ := none
  normalizerScript : Option (Option String) := none
  interpreters : Option (List String) := none
  timeoutSeconds : Option ℕ := none
  explodeInserts : Option Bool := none

/-- What is given for programs. -/
structure GivenGeneration where
  feed : Option Float := none
  spindle : Option Float := none
  scale : Option Float := none
  safeZ : Option Float := none
  depthPerPass : Option Float := none
  units : Option Units := none

/-- What is given for playing back. -/
structure GivenSimulation where
  baseIntervalMillis : Option ℕ := none
  speed : Option Float := none

/-- The sections that are given. -/
structure Given where
  drawings : Option GivenImport := none
  generation : Option GivenGeneration := none
  simulation : Option GivenSimulation := none

/-- The settings with what is given in place of what they had. -/
def GivenImport.applied (given : GivenImport) (s : ImportSettings) : ImportSettings where
  segments := given.segments.getD s.segments
  normalizerScript := given.normalizerScript.getD s.normalizerScript
  interpreters := given.interpreters.getD s.interpreters
  timeoutSeconds := given.timeoutSeconds.getD s.timeoutSeconds
  explodeInserts := given.explodeInserts.getD s.explodeInserts

@[inherit_doc GivenImport.applied]
def GivenGeneration.applied (given : GivenGeneration) (s : GenerationSettings) :
    GenerationSettings where
  feed := given.feed.getD s.feed
  spindle := given.spindle.getD s.spindle
  scale := given.scale.getD s.scale
  safeZ := given.safeZ.getD s.safeZ
  depthPerPass := given.depthPerPass.getD s.depthPerPass
  units := given.units.getD s.units

@[inherit_doc GivenImport.applied]
def GivenSimulation.applied (given : GivenSimulation) (s : SimulationSettings) :
    SimulationSettings where
  baseIntervalMillis := given.baseIntervalMillis.getD s.baseIntervalMillis
  speed := given.speed.getD s.speed

@[inherit_doc GivenImport.applied]
def Given.applied (given : Given) (s : Settings) : Settings where
  drawings := given.drawings.elim s.drawings fun g => g.applied s.drawings
  generation := given.generation.elim s.generation fun g => g.applied s.generation
  simulation := given.simulation.elim s.simulation fun g => g.applied s.simulation

/-- The members of a record give this and nothing else; names that no setting has may stand
anywhere. -/
structure GivenImport.In (members : List (Option String × Datum)) (given : GivenImport) : Prop where
  named : ∀ m ∈ members, m.1.isSome = true
  segments : Stands IsCount members "segments" given.segments
  normalizerScript : Stands IsOptionalText members "normalizer_script" given.normalizerScript
  interpreters : Stands IsTexts members "interpreters" given.interpreters
  timeoutSeconds : Stands IsCount members "normalizer_timeout_secs" given.timeoutSeconds
  explodeInserts : Stands IsBool members "explode_inserts" given.explodeInserts

@[inherit_doc GivenImport.In]
structure GivenGeneration.In (dialect : Dialect) (members : List (Option String × Datum))
    (given : GivenGeneration) :
    Prop where
  named : ∀ m ∈ members, m.1.isSome = true
  feed : Stands IsNumber members "default_feed" given.feed
  spindle : Stands IsNumber members "default_spindle" given.spindle
  scale : Stands IsNumber members "scale" given.scale
  safeZ : Stands IsNumber members "safe_z" given.safeZ
  depthPerPass : Stands IsNumber members "depth_per_pass" given.depthPerPass
  units : Stands (IsUnits dialect) members "units" given.units

@[inherit_doc GivenImport.In]
structure GivenSimulation.In (members : List (Option String × Datum)) (given : GivenSimulation) :
    Prop where
  named : ∀ m ∈ members, m.1.isSome = true
  baseIntervalMillis : Stands IsCount members "base_interval_ms" given.baseIntervalMillis
  speed : Stands IsNumber members "default_speed" given.speed

/-- A section is a record that gives something. -/
inductive IsSectionOf {γ : Type} (In : List (Option String × Datum) → γ → Prop) :
    Datum → γ → Prop where
  | record {members : List (Option String × Datum)} {given : γ} (hin : In members given) :
      IsSectionOf In (.record members) given

@[inherit_doc GivenImport.In]
structure Given.In (dialect : Dialect) (sections : List (Option String × Datum)) (given : Given) :
    Prop where
  named : ∀ m ∈ sections, m.1.isSome = true
  drawings : Stands (IsSectionOf GivenImport.In) sections "import" given.drawings
  generation : Stands (IsSectionOf (GivenGeneration.In dialect)) sections "generation"
    given.generation
  simulation : Stands (IsSectionOf GivenSimulation.In) sections "simulation" given.simulation

section Fields

variable {σ β : Type} {dialect : Dialect} {members : List (Option String × Datum)}
  {given : Option β}

/-- A plain field gets what is given for it, and keeps what it has if nothing is. -/
theorem readField_plainField {Denotes : Datum → β → Prop} {name : String} {read? : Datum → Option β}
    {write : β → Datum} {get : σ → β} {set : β → σ → σ} (h : Stands Denotes members name given)
    (hread : ∀ d x, Denotes d x → read? d = some x) (s : σ) (hkeep : set (get s) s = s) :
    Schema.readField dialect (plainField name read? write get set) (valuesOf name members) s =
      some (set (given.getD (get s)) s) := by
  have hfield : Schema.readField dialect (plainField name read? write get set)
      (valuesOf name members) s = some (given.elim s fun x => set x s) :=
    Schema.readField_of_stands h fun d x hx => by
      simp only [plainField, hread d x hx, Option.map_some]
  rw [hfield]
  cases given with
  | none => rw [Option.getD_none, hkeep, Option.elim_none]
  | some x => rfl

theorem read?_record {schema : Schema σ} (hnamed : ∀ m ∈ members, m.1.isSome = true) (s : σ) :
    schema.read? dialect s (.record members) =
      schema.foldlM (fun s field => Schema.readField dialect field (valuesOf field.name members) s)
        s :=
  if_pos (List.all_eq_true.2 hnamed)

/-- The fields of a schema are set one after the other. -/
theorem foldlM_readField_cons {field : Field σ} {fields : Schema σ} {s s' : σ}
    (h : Schema.readField dialect field (valuesOf field.name members) s = some s') :
    ((field :: fields).foldlM (fun s field => Schema.readField dialect field
      (valuesOf field.name members) s) s :
      Option σ) =
      fields.foldlM (fun s field => Schema.readField dialect field (valuesOf field.name members) s)
        s' := by
  rw [List.foldlM_cons, h]
  rfl

end Fields

theorem nat?_of_isCount {d : Datum} {n : ℕ} (h : IsCount d n) : Datum.nat? d = some n := by
  cases h
  exact nat?_ofNat n

theorem real?_of_isNumber {d : Datum} {x : Float} (h : IsNumber d x) : Datum.real? d = some x := by
  cases h <;> rfl

theorem optionalText?_of_isOptionalText {d : Datum} {text : Option String}
    (h : IsOptionalText d text) :
    optionalText? d = some text := by
  cases h <;> rfl

theorem texts?_of_isTexts {d : Datum} {texts : List String} (h : IsTexts d texts) :
    Datum.texts? d = some texts := by
  cases h
  exact texts?_texts texts

theorem bool?_of_isBool {d : Datum} {b : Bool} (h : IsBool d b) : Datum.bool? d = some b := by
  cases h
  rfl

theorem units?_of_isUnits {dialect : Dialect} {d : Datum} {units : Units}
    (h : IsUnits dialect d units) :
    units? dialect d = some units := by
  cases h with
  | name => exact units?_name dialect units
  | record _ hvalue =>
    rw [units?, if_pos hvalue]
    cases units <;> rfl

variable {dialect : Dialect} {members : List (Option String × Datum)}

theorem read?_importSchema {given : GivenImport} (h : given.In members) (s : ImportSettings) :
    importSchema.read? dialect s (.record members) = some (given.applied s) := by
  rw [read?_record h.named, importSchema,
    foldlM_readField_cons (readField_plainField h.segments (fun _ _ => nat?_of_isCount) _ rfl),
    foldlM_readField_cons (readField_plainField h.normalizerScript
      (fun _ _ => optionalText?_of_isOptionalText) _ rfl),
    foldlM_readField_cons (readField_plainField h.interpreters
      (fun _ _ => texts?_of_isTexts) _ rfl),
    foldlM_readField_cons (readField_plainField h.timeoutSeconds
      (fun _ _ => nat?_of_isCount) _ rfl),
    foldlM_readField_cons (readField_plainField h.explodeInserts
      (fun _ _ => bool?_of_isBool) _ rfl)]
  rfl

theorem read?_generationSchema {given : GivenGeneration} (h : given.In dialect members)
    (s : GenerationSettings) :
    generationSchema.read? dialect s (.record members) = some (given.applied s) := by
  have hunits : ∀ s, Schema.readField dialect unitsField (valuesOf "units" members) s =
      some { s with units := given.units.getD s.units } := by
    intro s
    have hfield : Schema.readField dialect unitsField (valuesOf "units" members) s =
        some (given.units.elim s fun units => { s with units }) :=
      Schema.readField_of_stands h.units fun d x hx => by
        simp only [unitsField, units?_of_isUnits hx, Option.map_some]
    rw [hfield]
    cases given.units <;> rfl
  rw [read?_record h.named, generationSchema,
    foldlM_readField_cons (readField_plainField h.feed (fun _ _ => real?_of_isNumber) _ rfl),
    foldlM_readField_cons (readField_plainField h.spindle (fun _ _ => real?_of_isNumber) _ rfl),
    foldlM_readField_cons (readField_plainField h.scale (fun _ _ => real?_of_isNumber) _ rfl),
    foldlM_readField_cons (readField_plainField h.safeZ (fun _ _ => real?_of_isNumber) _ rfl),
    foldlM_readField_cons (readField_plainField h.depthPerPass
      (fun _ _ => real?_of_isNumber) _ rfl),
    foldlM_readField_cons (hunits _)]
  rfl

theorem read?_simulationSchema {given : GivenSimulation} (h : given.In members)
    (s : SimulationSettings) :
    simulationSchema.read? dialect s (.record members) = some (given.applied s) := by
  rw [read?_record h.named, simulationSchema,
    foldlM_readField_cons (readField_plainField h.baseIntervalMillis
      (fun _ _ => nat?_of_isCount) _ rfl),
    foldlM_readField_cons (readField_plainField h.speed (fun _ _ => real?_of_isNumber) _ rfl)]
  rfl

/-- A section gets what is given in it, and is standard otherwise. -/
theorem readField_sectionField {σ τ γ : Type} {In : List (Option String × Datum) → γ → Prop}
    {name : String} {schema : Schema τ} {standard : τ} {get : σ → τ} {set : τ → σ → σ}
    {applied : γ → τ} {given : Option γ} (h : Stands (IsSectionOf In) members name given)
    (hread : ∀ members g, In members g → schema.read? dialect standard (.record members) =
      some (applied g))
    (s : σ) (hkeep : set standard s = s) :
    Schema.readField dialect (sectionField name schema standard get set) (valuesOf name members) s =
      some (set (given.elim standard applied) s) := by
  have hfield : Schema.readField dialect (sectionField name schema standard get set)
      (valuesOf name members) s = some (given.elim s fun g => set (applied g) s) :=
    Schema.readField_of_stands h fun d g hg => by
      obtain ⟨hin⟩ := hg
      simp only [sectionField, hread _ g hin, Option.map_some]
  rw [hfield]
  cases given with
  | none => rw [Option.elim_none, Option.elim_none, hkeep]
  | some g => rfl

/-- What is not given is standard. -/
theorem ofDatum?_of_in {given : Given} (h : given.In dialect members) :
    ofDatum? dialect (.record members) = some (given.applied standard) := by
  rw [ofDatum?, read?_record h.named, schema,
    foldlM_readField_cons (readField_sectionField h.drawings
      (fun _ _ hin => read?_importSchema hin _) _ rfl),
    foldlM_readField_cons (readField_sectionField h.generation
      (fun _ _ hin => read?_generationSchema hin _) _ rfl),
    foldlM_readField_cons (readField_sectionField h.simulation
      (fun _ _ hin => read?_simulationSchema hin _) _ rfl)]
  rfl

/-- Settings that make sense. -/
structure IsSound (s : Settings) : Prop where
  segments : 1 ≤ s.drawings.segments
  timeoutSeconds : 1 ≤ s.drawings.timeoutSeconds
  interpreters : ∀ name ∈ s.drawings.interpreters, ∃ c ∈ name.toList, Text.isBlank c = false
  feed : s.generation.feed.isFinite = true ∧ 0 < s.generation.feed
  spindle : s.generation.spindle.isFinite = true ∧ 0 < s.generation.spindle
  scale : s.generation.scale.isFinite = true ∧ 0 < s.generation.scale
  safeZ : s.generation.safeZ.isFinite = true
  depthPerPass : s.generation.depthPerPass.isFinite = true ∧ 0 < s.generation.depthPerPass
  baseIntervalMillis : 1 ≤ s.simulation.baseIntervalMillis
  speed : s.simulation.speed.isFinite = true ∧ 0 < s.simulation.speed

theorem isPositive_iff {x : Float} : isPositive x = true ↔ x.isFinite = true ∧ 0 < x := by
  rw [isPositive, Bool.and_eq_true_iff, decide_eq_true_iff]

theorem isName_iff {name : String} :
    isName name = true ↔ ∃ c ∈ name.toList, Text.isBlank c = false := by
  rw [isName, Bool.not_eq_true', List.isEmpty_eq_false_iff, ne_eq, Text.trim_eq_nil_iff]
  simp only [not_forall, Bool.not_eq_true, exists_prop]

/-- The conditions accept exactly what makes sense. -/
theorem check_eq_none_iff_isSound {s : Settings} : s.check = none ↔ s.IsSound := by
  rw [check_eq_none_iff]
  simp only [conditions, List.mem_cons, List.not_mem_nil, or_false, forall_eq_or_imp, forall_eq,
    bne_iff_ne, List.all_eq_true, isPositive_iff, isName_iff, ← Nat.one_le_iff_ne_zero]
  constructor
  · rintro ⟨hsegments, htimeout, hinterpreters, hfeed, hspindle, hscale, hsafe, hdepth,
      hinterval, hspeed⟩
    exact ⟨hsegments, htimeout, hinterpreters, hfeed, hspindle, hscale, hsafe, hdepth,
      hinterval, hspeed⟩
  · rintro ⟨hsegments, htimeout, hinterpreters, hfeed, hspindle, hscale, hsafe, hdepth,
      hinterval, hspeed⟩
    exact ⟨hsegments, htimeout, hinterpreters, hfeed, hspindle, hscale, hsafe, hdepth,
      hinterval, hspeed⟩

/-- The first condition that the settings violate. -/
structure IsFirstViolated (s : Settings) (c : Condition) : Prop where
  first : ∃ before after, conditions = before ++ c :: after ∧ ∀ b ∈ before, b.holds s = true
  violated : c.holds s = false

theorem isFirstViolated_iff {s : Settings} {c : Condition} :
    s.IsFirstViolated c ↔ conditions.find? (fun c => !c.holds s) = some c := by
  rw [List.find?_eq_some_iff_append]
  simp only [Bool.not_eq_true', Bool.not_not]
  exact ⟨fun ⟨⟨before, after, hsplit, hbefore⟩, hviolated⟩ =>
    ⟨hviolated, before, after, hsplit, hbefore⟩,
    fun ⟨hviolated, before, after, hsplit, hbefore⟩ =>
      ⟨⟨before, after, hsplit, hbefore⟩, hviolated⟩⟩

/-- The complaint is about the first condition that is violated. -/
theorem check_eq_some_iff {s : Settings} {e : SettingsError} :
    s.check = some e ↔ ∃ c, s.IsFirstViolated c ∧ e = .invalidValue c.setting c.reason := by
  rw [check, Option.map_eq_some_iff]
  simp only [isFirstViolated_iff, eq_comm]

open Turnery.Files

/-- Whatever is loaded is sound. -/
theorem isSound_of_load {w : Workspace} {path : String} {s : Settings} (h : load w path = .ok s) :
    s.IsSound := by
  rw [load] at h
  obtain ⟨format, -, h⟩ := exists_of_bind_eq_ok h
  obtain ⟨text, -, h⟩ := exists_of_bind_eq_ok h
  obtain ⟨s', -, h⟩ := exists_of_bind_eq_ok (of_mapError_eq_ok h)
  obtain ⟨_, hvalid, h⟩ := exists_of_bind_eq_ok h
  obtain rfl := Except.ok.inj h
  rw [validate] at hvalid
  split at hvalid
  · rename_i hcheck
    exact check_eq_none_iff_isSound.1 hcheck
  · cases hvalid

/-- A file that gives any settings is loaded as the standard settings with these in their place, or
refused for the first condition that they violate then. Whatever is loaded, from any file, is
sound. -/
theorem load_of_given :
    (∀ (w : Workspace) (path : String) (format : Format) (text : String)
      (sections : List (Option String × Datum))
      (given : Given), formatOf path = .ok format → w.readText path = .ok text →
      format.read? text = some (.record sections) → given.In format.dialect sections →
      (given.applied standard).IsSound ∧ load w path = .ok (given.applied standard) ∨
        ∃ c, (given.applied standard).IsFirstViolated c ∧
          load w path = .error (.settings (.invalidValue c.setting c.reason))) ∧
      ∀ (w : Workspace) (path : String) (s : Settings), load w path = .ok s → s.IsSound := by
  refine ⟨?_, fun w path s => isSound_of_load⟩
  intro w path format text sections given hformat htext hread hgiven
  have hsettings : ofText format text = .ok (given.applied standard) := by
    rw [ofText, hread, Option.bind_some, ofDatum?_of_in hgiven]
  cases hcheck : (given.applied standard).check with
  | none =>
    refine .inl ⟨check_eq_none_iff_isSound.1 hcheck, load_of_readText hformat htext ?_⟩
    have hvalid : (given.applied standard).validate = .ok () := by rw [validate, hcheck]
    rw [parse, hsettings]
    simp only [bind, Except.bind, hvalid]
  | some e =>
    obtain ⟨c, hviolated, rfl⟩ := check_eq_some_iff.1 hcheck
    refine .inr ⟨c, hviolated, ?_⟩
    have hvalid : (given.applied standard).validate =
        .error (.invalidValue c.setting c.reason) := by
      rw [validate, hcheck]
    rw [load, hformat, htext]
    simp only [bind, Except.bind, Except.mapError, parse, hsettings, hvalid]

/-- A unit and a number are given, and names that no setting has: the rest is standard. Where two
settings are wrong, the first of them is named. -/
theorem load_of_given_in_part :
    let w : Workspace := ⟨[], [], [], none, 0, []⟩
    let sections := [(some "colour", .list [.text "red"]),
      (some "generation", .record [(some "units", .text "inch"), (some "unit", .null),
        (some "safe_z", .integer 2)])]
    let wrong := [(some "generation", .record [(some "scale", .integer (-1))]),
      (some "import", .record [(some "segments", .integer 0)])]
    (∃ w', w.writeText "lathe.json" (Datum.jsonText 0 (.record sections)) = .ok w' ∧
      load w' "lathe.json" = .ok { standard with
        generation := { standard.generation with units := .inch, safeZ := 2 } }) ∧
      ∃ w', w.writeText "lathe.json" (Datum.jsonText 0 (.record wrong)) = .ok w' ∧
        load w' "lathe.json" =
        .error (.settings (.invalidValue "import.segments" "must be > 0")) := by
  intro w sections wrong
  have hplace : w.place? "lathe.json" = .ok ["lathe.json"] := by
    have hplain : "lathe.json".contains '\x00' = false := by simp
    rw [Workspace.place?, Workspace.placeBy, Workspace.fault?, hplain]
    rfl
  have hloaded : ∀ (sections : List (Option String × Datum)) (given : Given),
      Datum.InJson (.record sections) → given.In Format.json.dialect sections → ∃ w',
        w.writeText "lathe.json" (Datum.jsonText 0 (.record sections)) = .ok w' ∧
        ((given.applied standard).check = none ∧
            load w' "lathe.json" = .ok (given.applied standard) ∨
          ∃ e, (given.applied standard).check = some e ∧
            load w' "lathe.json" = .error (.settings e)) := by
    intro sections given hjson hgiven
    obtain ⟨w', hw', hfile⟩ :=
      Workspace.exists_writeText_new hplace rfl rfl (Datum.jsonText 0 (.record sections))
    refine ⟨w', hw', ?_⟩
    rcases load_of_given.1 w' "lathe.json" .json _ sections given rfl
      (Workspace.readText_writeText hw' hfile)
      (Datum.ofJsonText?_jsonText hjson) hgiven with ⟨hsound, hload⟩ | ⟨c, hviolated, hload⟩
    · exact .inl ⟨check_eq_none_iff_isSound.2 hsound, hload⟩
    · exact .inr ⟨_, check_eq_some_iff.2 ⟨c, hviolated, rfl⟩, hload⟩
  constructor
  · have hgiven : Given.In Format.json.dialect sections
        { generation := some { units := some .inch, safeZ := some (Datum.floatOfInt 2) } } :=
      { named := by simp [sections], drawings := .absent (by simp [sections]),
        generation := .once [_] _ rfl (by simp) (by simp) (.record
          { named := by simp, feed := .absent (by simp), spindle := .absent (by simp),
            scale := .absent (by simp),
            safeZ := .once [_, _] _ rfl (by simp) (by simp) (.integer 2),
            depthPerPass := .absent (by simp),
            units := .once [] _ rfl (by simp) (by simp) (.name .inch) }),
        simulation := .absent (by simp [sections]) }
    obtain ⟨w', hw', ⟨-, hload⟩ | ⟨e, hcheck, -⟩⟩ := hloaded sections _
      (by simp [sections, Datum.InJson, Datum.InJsonMembers, Datum.InJsonItems]) hgiven
    · exact ⟨w', hw', hload⟩
    · have hsound : Settings.check { standard with generation :=
          { standard.generation with units := .inch, safeZ := Datum.floatOfInt 2 } } =
            none := by decide +kernel
      cases hsound.symm.trans hcheck
  · have hgiven : Given.In Format.json.dialect wrong
        { drawings := some { segments := some 0 },
          generation := some { scale := some (Datum.floatOfInt (-1)) } } :=
      { named := by simp [wrong],
        drawings := .once [_] _ rfl (by simp) (by simp) (.record
          { named := by simp, segments := .once [] _ rfl (by simp) (by simp) (.integer 0),
            normalizerScript := .absent (by simp), interpreters := .absent (by simp),
            timeoutSeconds := .absent (by simp), explodeInserts := .absent (by simp) }),
        generation := .once [] _ rfl (by simp) (by simp) (.record
          { named := by simp, feed := .absent (by simp), spindle := .absent (by simp),
            scale := .once [] _ rfl (by simp) (by simp) (.integer (-1)), safeZ := .absent (by simp),
            depthPerPass := .absent (by simp), units := .absent (by simp) }),
        simulation := .absent (by simp [wrong]) }
    obtain ⟨w', hw', ⟨hcheck, -⟩ | ⟨e, hcheck, hload⟩⟩ := hloaded wrong _
      (by simp [wrong, Datum.InJson, Datum.InJsonMembers]) hgiven
    · cases hcheck
    · obtain rfl := Option.some.inj hcheck
      exact ⟨w', hw', hload⟩

end Settings

end Turnery
