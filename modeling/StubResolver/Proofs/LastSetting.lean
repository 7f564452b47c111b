/-
# What was set last

Some states are made by setting one part of them after the other.  What one sees of such a state is
told by the settings that have something to do with it, if each of them puts what it sets in place
of what was there and all the others leave it alone (`Overwrites`).  Then the last one of them
counts (`Overwrites.foldl`), and neither those before it nor the other settings in between.  What
no setting has to do with stays as it was (`view_foldl_eq`).
-/
import Mathlib.Tactic.Lemma

namespace StubResolver

variable {σ ι α : Type} {set : σ → ι → σ} {view : σ → α} {value? : ι → Option α}

/-- A setting puts its value, if it has one for the view, in place of what the view was. -/
def Overwrites (set : σ → ι → σ) (view : σ → α) (value? : ι → Option α) : Prop :=
  ∀ state setting, view (set state setting) = (value? setting).getD (view state)

/-- After any number of settings the view is the last value that was set, or what it was if there
was none. -/
lemma Overwrites.foldl (h : Overwrites set view value?) (state : σ) (settings : List ι) :
    view (settings.foldl set state) = (settings.filterMap value?).getLastD (view state) := by
  induction settings generalizing state with
  | nil => rfl
  | cons setting settings ih =>
    rw [List.foldl_cons, ih, h]
    cases hvalue : value? setting with
    | none => rw [List.filterMap_cons_none hvalue, Option.getD_none]
    | some value => rw [List.filterMap_cons_some hvalue, List.getLastD_cons, Option.getD_some]

/-- What is left alone by each setting is left alone by any number of them. -/
lemma view_foldl_eq (view : σ → α) (h : ∀ state setting, view (set state setting) = view state)
    (state : σ) (settings : List ι) : view (settings.foldl set state) = view state := by
  have hnone : Overwrites set view fun _ => none := h
  rw [hnone.foldl, List.filterMap_eq_nil_iff.2 fun _ _ => rfl]
  rfl

end StubResolver
