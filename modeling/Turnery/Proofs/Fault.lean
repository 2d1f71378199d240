import Mathlib.Algebra.Group.Nat.Defs
import Mathlib.Data.List.Forall2

/-!
# Steps that may fail

A traversal of a list fails exactly if one of its steps does (`mapM_eq_none_iff`); otherwise its
results are those of the steps, one by one (`mapM_eq_some_iff`).

Where positions in a list are machine words, a step has three ways to fail: a sum exceeds the
largest word, a difference falls below zero, or a position is outside of its list.
-/

namespace Turnery

section Traversal

variable {β γ : Type} {f : β → Option γ} {r : β → γ → Prop} {l : List β}

theorem mapM_eq_some_iff {cs : List γ} :
    l.mapM f = some cs ↔ List.Forall₂ (fun b c => f b = some c) l cs := by
  induction l generalizing cs with
  | nil => simp [eq_comm]
  | cons b rest ih =>
    simp only [List.mapM_cons, Option.bind_eq_bind, Option.bind_eq_some_iff, ih,
      List.forall₂_cons_left_iff, Option.pure_def, Option.some.injEq]
    constructor
    · rintro ⟨c, hc, others, hothers, rfl⟩
      exact ⟨c, others, hc, hothers, rfl⟩
    · rintro ⟨c, others, hc, hothers, rfl⟩
      exact ⟨c, hc, others, hothers, rfl⟩

theorem mapM_eq_none_iff : l.mapM f = none ↔ ∃ b ∈ l, f b = none := by
  induction l with
  | nil => simp
  | cons b rest ih =>
    rw [List.mapM_cons, List.exists_mem_cons_iff, ← ih]
    cases hb : f b with
    | none => exact iff_of_true rfl (.inl rfl)
    | some c =>
      cases hrest : rest.mapM f with
      | none => exact iff_of_true rfl (.inr rfl)
      | some others => exact iff_of_false nofun (by simp)

theorem apply_ne_none_of_mapM {cs : List γ} (h : l.mapM f = some cs) {b : β} (hb : b ∈ l) :
    f b ≠ none := by
  intro hnone
  rw [mapM_eq_none_iff.2 ⟨b, hb, hnone⟩] at h
  cases h

/-- Where every step succeeds with a result in some relation to its input, all do. -/
theorem exists_mapM_eq_some (h : ∀ b ∈ l, ∃ c, f b = some c ∧ r b c) :
    ∃ cs, l.mapM f = some cs ∧ List.Forall₂ r l cs := by
  induction l with
  | nil => exact ⟨[], rfl, .nil⟩
  | cons b rest ih =>
    obtain ⟨c, hc, hr⟩ := h b List.mem_cons_self
    obtain ⟨cs, hcs, hrest⟩ := ih fun b' hb => h b' (List.mem_cons_of_mem _ hb)
    refine ⟨c :: cs, ?_, .cons hr hrest⟩
    rw [List.mapM_cons, hc, hcs]
    rfl

/-- Where every step succeeds, all do. -/
theorem mapM_eq_some_map {g : β → γ} (h : ∀ b ∈ l, f b = some (g b)) :
    l.mapM f = some (l.map g) := by
  rw [mapM_eq_some_iff, List.forall₂_map_right_iff, List.forall₂_same]
  exact h

end Traversal

/-- What goes wrong with positions that are machine words. -/
inductive Fault where
  /-- A sum is beyond the largest word. -/
  | overflow
  /-- A difference is below zero. -/
  | underflow
  /-- A position is outside of its list. -/
  | outOfRange
  deriving DecidableEq

namespace Word

variable {β γ : Type} {bits i j : ℕ}

def sum (bits i j : ℕ) : Except Fault ℕ :=
  if i + j < 2 ^ bits then .ok (i + j) else .error .overflow

def difference (i j : ℕ) : Except Fault ℕ :=
  if j ≤ i then .ok (i - j) else .error .underflow

def entry (l : List β) (i : ℕ) : Except Fault β :=
  match l[i]? with
  | some b => .ok b
  | none => .error .outOfRange

def store (l : List β) (i : ℕ) (b : β) : Except Fault (List β) :=
  if i < l.length then .ok (l.set i b) else .error .outOfRange

theorem sum_eq_ok (h : i + j < 2 ^ bits) : sum bits i j = .ok (i + j) :=
  if_pos h

theorem difference_eq_ok (h : j ≤ i) : difference i j = .ok (i - j) :=
  if_pos h

theorem entry_eq_ok {l : List β} {b : β} (h : l[i]? = some b) : entry l i = .ok b := by
  rw [entry, h]

theorem store_eq_ok {l : List β} (h : i < l.length) (b : β) : store l i b = .ok (l.set i b) :=
  if_pos h

/-- A traversal whose steps succeed with the results of another has the result of the other. -/
theorem mapM_eq_ok {f : β → Option γ} {g : β → Except Fault γ} {l : List β} {cs : List γ}
    (hstep : ∀ b ∈ l, ∀ c, f b = some c → g b = .ok c) (h : l.mapM f = some cs) :
    l.mapM g = .ok cs := by
  induction l generalizing cs with
  | nil => exact congrArg Except.ok (Option.some.inj h)
  | cons b rest ih =>
    obtain ⟨hb, hrest⟩ := List.forall_mem_cons.1 hstep
    rw [List.mapM_cons] at h
    obtain ⟨c, hc, h⟩ := Option.bind_eq_some_iff.1 h
    obtain ⟨others, hothers, h⟩ := Option.bind_eq_some_iff.1 h
    rw [List.mapM_cons, hb c hc, ih hrest hothers]
    exact congrArg Except.ok (Option.some.inj h)

end Word

end Turnery
