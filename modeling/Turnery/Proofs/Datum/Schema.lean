import Turnery.Datum.Schema
import Turnery.Proofs.Datum.Toml

/-!
# Structures read back from records

A structure read from the record that its schema wrote gets each field from the value written for
it, field by field: `read?_written`. A field that was left out of the record stays as it is in the
structure that reading starts from.
-/

namespace Turnery.Schema

open Datum (isNull present valuesOf withoutNulls)

variable {σ : Type} {dialect : Dialect} {schema : Schema σ}

/-- The names of the fields are different from each other. -/
def IsNamed (schema : Schema σ) : Prop :=
  (schema.map Field.name).Nodup

instance (schema : Schema σ) : Decidable schema.IsNamed :=
  inferInstanceAs (Decidable (List.Nodup _))

/-- What stands in a record of which some fields may have been left out. -/
def written (kept : Field σ → Option Datum) (schema : Schema σ) : List (Option String × Datum) :=
  schema.filterMap fun field => (kept field).map fun d => (some field.name, d)

theorem valuesOf_written_of_not_mem {kept : Field σ → Option Datum} {name : String}
    (h : name ∉ schema.map Field.name) : valuesOf name (written kept schema) = [] := by
  rw [valuesOf, List.map_eq_nil_iff, List.filter_eq_nil_iff]
  intro m hm
  obtain ⟨field, hfield, hkept⟩ := List.mem_filterMap.1 hm
  obtain ⟨d, -, rfl⟩ := Option.map_eq_some_iff.1 hkept
  simp only [beq_iff_eq, Option.some.injEq]
  rintro rfl
  exact h (List.mem_map_of_mem hfield)

/-- Under the name of a field stands what was written for it. -/
theorem valuesOf_written {kept : Field σ → Option Datum} (hnamed : IsNamed schema) {field : Field σ}
    (hfield : field ∈ schema) :
    valuesOf field.name (written kept schema) = (kept field).toList := by
  induction schema with
  | nil => exact absurd hfield List.not_mem_nil
  | cons first schema ih =>
    have hfirst := (List.nodup_cons.1 hnamed).1
    have hothers := (List.nodup_cons.1 hnamed).2
    have hsplit : valuesOf field.name (written kept (first :: schema)) =
        (if first.name = field.name then (kept first).toList else []) ++
            valuesOf field.name (written kept schema) := by
      cases hkept : kept first with
      | none => simp [valuesOf, written, hkept]
      | some d =>
        by_cases hname : first.name = field.name <;> simp [valuesOf, written, hkept, hname]
    rcases List.mem_cons.1 hfield with rfl | hfield
    · rw [hsplit, if_pos rfl, valuesOf_written_of_not_mem hfirst, List.append_nil]
    · have hne : first.name ≠ field.name := fun heq => hfirst (heq ▸ List.mem_map_of_mem hfield)
      rw [hsplit, if_neg hne, List.nil_append, ih hothers hfield]

/-- Sets a field from the value that was kept of it, if one was. -/
def restore (dialect : Dialect) (kept : Field σ → Option Datum) (s : σ) (field : Field σ) :
    Option σ :=
  match kept field with
  | none => some s
  | some d => field.set dialect d s

theorem readField_written {kept : Field σ → Option Datum} (hnamed : IsNamed schema)
    {field : Field σ} (hfield : field ∈ schema) (s : σ) :
    readField dialect field (valuesOf field.name (written kept schema)) s =
      restore dialect kept s field := by
  rw [valuesOf_written hnamed hfield, restore]
  cases kept field <;> rfl

theorem namesReadable_written (kept : Field σ → Option Datum) (schema : Schema σ) :
    Datum.namesReadable (written kept schema) = true := by
  rw [Datum.namesReadable, List.all_eq_true]
  intro m hm
  obtain ⟨field, -, hkept⟩ := List.mem_filterMap.1 hm
  obtain ⟨d, -, rfl⟩ := Option.map_eq_some_iff.1 hkept
  rfl

/-- A record that a schema wrote is read by setting the fields one after another. -/
theorem read?_written {kept : Field σ → Option Datum} (hnamed : IsNamed schema) (s : σ) :
    read? dialect schema s (.record (written kept schema)) =
      schema.foldlM (restore dialect kept) s := by
  rw [read?, readRecord, if_pos (namesReadable_written kept schema)]
  have hfields : ∀ fields, fields ⊆ schema → ∀ s : σ,
      (fields.foldlM (fun s field =>
        readField dialect field (valuesOf field.name (written kept schema)) s) s : Option σ) =
      fields.foldlM (restore dialect kept) s := by
    intro fields hfields
    induction fields with
    | nil => exact fun s => rfl
    | cons field fields ih =>
      obtain ⟨hfield, hothers⟩ := List.cons_subset.1 hfields
      intro s
      rw [List.foldlM_cons, List.foldlM_cons, readField_written hnamed hfield]
      simp only [ih hothers]
  exact hfields schema (List.Subset.refl schema) s

theorem toDatum_eq (schema : Schema σ) (s : σ) :
    schema.toDatum s = .record (written (fun field => some (field.get s)) schema) := by
  simp [toDatum, written]

theorem withoutNulls_toDatum (schema : Schema σ) (s : σ) :
    withoutNulls (schema.toDatum s) =
      .record (written (fun field => if isNull (field.get s) then none else some (field.get s))
        schema) := by
  rw [toDatum, withoutNulls, present, written]
  congr 1
  induction schema with
  | nil => rfl
  | cons field schema ih =>
    rw [List.map_cons, List.filterMap_cons]
    cases hnull : isNull (field.get s) with
    | true => simpa [hnull] using ih
    | false => simpa [hnull] using ih

/-- Of a structure everything is kept but what is null. -/
def Keeps (kept : Field σ → Option Datum) (s : σ) : Prop :=
  ∀ field, kept field = some (field.get s) ∨ isNull (field.get s) = true ∧ kept field = none

theorem Keeps.restore_eq {kept : Field σ → Option Datum} {s : σ} (h : Keeps kept s)
    {field : Field σ} (hnull : isNull (field.get s) = false) (t : σ) :
    restore dialect kept t field = field.set dialect (field.get s) t := by
  rcases h field with hkept | ⟨hnone, -⟩
  · rw [restore, hkept]
  · rw [hnull] at hnone
    cases hnone

/-- A structure is read back with or without what is null in it, if its fields restore it in both
cases. -/
theorem read?_of_restores (hnamed : IsNamed schema) {s s₀ : σ}
    (h : ∀ kept, Keeps kept s → schema.foldlM (restore dialect kept) s₀ = some s) :
    read? dialect schema s₀ (schema.toDatum s) = some s ∧
      read? dialect schema s₀ (withoutNulls (schema.toDatum s)) = some s := by
  constructor
  · rw [toDatum_eq, read?_written hnamed]
    exact h _ fun field => .inl rfl
  · rw [withoutNulls_toDatum, read?_written hnamed]
    refine h _ fun field => ?_
    cases hnull : isNull (field.get s) with
    | true => exact .inr ⟨rfl, if_pos rfl⟩
    | false => exact .inl (if_neg Bool.false_ne_true)

/-- The members of a record that a schema wrote are named if the names of the fields are bare. -/
theorem areNamed_map (hnamed : IsNamed schema)
    (hbare : ∀ name ∈ schema.map Field.name, Toml.Reader.IsBareName name)
    (value : Field σ → Datum) :
    Datum.AreNamed (schema.map fun field => (some field.name, value field)) where
  isBareName m hm := by
    obtain ⟨field, hfield, rfl⟩ := List.mem_map.1 hm
    exact hbare field.name (List.mem_map_of_mem hfield)
  nodup := by
    rw [List.map_map]
    exact hnamed

end Turnery.Schema
