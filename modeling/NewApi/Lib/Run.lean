import Mathlib.Algebra.BigOperators.Group.List.Basic
import Mathlib.Tactic.Abel

/-!
# Runs of a step function

A step takes a state and an event to the next state, or to `none` where the event cannot happen.
-/

namespace NewApi.Run

variable {σ ε : Type*} {step : σ → ε → Option σ} {ok : σ → ε → Prop}

/-- `es` leads from `s` to `s'`, and `ok` holds of every event in the state it meets. -/
inductive Steps (step : σ → ε → Option σ) (ok : σ → ε → Prop) : σ → List ε → σ → Prop where
  | done (s : σ) : Steps step ok s [] s
  | more {s t u : σ} {e : ε} {es : List ε} (hok : ok s e) (hstep : step s e = some t)
      (rest : Steps step ok t es u) : Steps step ok s (e :: es) u

def free (_ : σ) (_ : ε) : Prop := True

instance (s : σ) (e : ε) : Decidable (free s e) := inferInstanceAs (Decidable True)

def run (step : σ → ε → Option σ) (ok : σ → ε → Prop) [∀ s e, Decidable (ok s e)] : σ → List ε → Option σ
  | s, [] => some s
  | s, e :: es =>
    if ok s e then
      match step s e with
      | some t => run step ok t es
      | none => none
    else none

theorem steps_of_run [∀ s e, Decidable (ok s e)] {s u : σ} {es : List ε}
    (h : run step ok s es = some u) : Steps step ok s es u := by
  induction es generalizing s with
  | nil =>
    obtain rfl : s = u := Option.some.inj h
    exact .done s
  | cons e es ih =>
    unfold run at h
    split at h
    · rename_i hok
      split at h
      · rename_i t ht
        exact .more hok ht (ih h)
      · cases h
    · cases h

theorem exists_of_run [∀ s e, Decidable (ok s e)] {p : σ → Bool} {s : σ} {es : List ε}
    (h : (run step ok s es).any p = true) : ∃ u, Steps step ok s es u ∧ p u = true := by
  cases hu : run step ok s es with
  | none =>
    rw [hu] at h
    cases h
  | some u =>
    rw [hu] at h
    exact ⟨u, steps_of_run hu, h⟩

section

variable {s u : σ} {es : List ε} (h : Steps step ok s es u)
include h

theorem Steps.invariant {inv : σ → Prop} (keep : ∀ s e t, ok s e → inv s → step s e = some t → inv t) (hs : inv s)
    : inv u := by
  induction h with
  | done => exact hs
  | more hok hstep _ ih => exact ih (keep _ _ _ hok hs hstep)

theorem Steps.mono {ok' : σ → ε → Prop} (hok : ∀ s e, ok s e → ok' s e) : Steps step ok' s es u := by
  induction h with
  | done s => exact .done s
  | more hse hstep _ ih => exact .more (hok _ _ hse) hstep ih

/-- What has been kept so far may be counted on at every event. -/
theorem Steps.keeping {inv : σ → Prop} (keep : ∀ s e t, ok s e → inv s → step s e = some t → inv t) (hs : inv s) :
    Steps step (fun s e => ok s e ∧ inv s ∧ e ∈ es) s es u := by
  have hpart : ∀ {s u fs}, Steps step ok s fs u → inv s → fs ⊆ es →
      Steps step (fun s e => ok s e ∧ inv s ∧ e ∈ es) s fs u := by
    intro s u fs h hs hfs
    induction h with
    | done s => exact .done s
    | more hok hstep _ ih =>
      rw [List.cons_subset] at hfs
      exact .more ⟨hok, hs, hfs.1⟩ hstep (ih (keep _ _ _ hok hs hstep) hfs.2)
  exact hpart h hs fun _ => id

end

theorem Steps.append {s t u : σ} {es fs : List ε} (h : Steps step ok s es t) (h' : Steps step ok t fs u) :
    Steps step ok s (es ++ fs) u := by
  induction h with
  | done => exact h'
  | more hok hstep _ ih => exact .more hok hstep (ih h')

/-! ## Answers -/

theorem ok_of_map {ε' α β : Type*} {r : Except ε' α} {f : α → β} {b : β} (h : r.map f = .ok b) :
    ∃ a, r = .ok a ∧ f a = b := by
  cases r with
  | error => cases h
  | ok a => exact ⟨a, rfl, Except.ok.inj h⟩

theorem ok_of_bind {ε' α β : Type} {r : Except ε' α} {f : α → Except ε' β} {b : β} (h : r >>= f = .ok b) :
    ∃ a, r = .ok a ∧ f a = .ok b := by
  cases r with
  | error => cases h
  | ok a => exact ⟨a, rfl, h⟩

/-! ## Processes

A system of several calls in progress keeps them in a list, and a step of one of them replaces its entry.
-/

variable {π M : Type*} [AddCommMonoid M] {procs : List π} {i : Nat} {proc : π}

theorem sum_set (f : π → M) (h : procs[i]? = some proc) (next : π) :
    ((procs.set i next).map f).sum + f proc = (procs.map f).sum + f next := by
  obtain ⟨hi, rfl⟩ := List.getElem?_eq_some_iff.mp h
  have hset := ((List.set_perm_cons_eraseIdx hi next).map f).sum_eq
  have hall := ((List.getElem_cons_eraseIdx_perm hi).map f).sum_eq
  rw [List.map_cons, List.sum_cons] at hset hall
  rw [hset, ← hall]
  abel

theorem sum_eraseIdx (f : π → M) (h : procs[i]? = some proc) :
    f proc + ((procs.eraseIdx i).map f).sum = (procs.map f).sum := by
  obtain ⟨hi, rfl⟩ := List.getElem?_eq_some_iff.mp h
  have hall := ((List.getElem_cons_eraseIdx_perm hi).map f).sum_eq
  rwa [List.map_cons, List.sum_cons] at hall

end NewApi.Run

