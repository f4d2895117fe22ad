import Mathlib.Data.List.Basic

/-!
# Runs of labelled transition systems

A system steps from a state by a label, or refuses it. Its runs follow a list
of labels. What single steps preserve is preserved by runs: of a state alone,
of a state with the labels so far, and of a state in runs whose steps all
meet a condition.
-/

set_option autoImplicit false

namespace RlStatsApi.LabelledRuns

variable {σ ι : Type*} (step : σ → ι → Option σ)

def run : σ → List ι → Option σ
  | s, [] => some s
  | s, i::is => (step s i).bind (fun t => run t is)

/-- Every step of the run meets the condition in the state it starts from. -/
def Meets (Q : σ → ι → Prop) : σ → List ι → Prop
  | _, [] => True
  | s, i::is => Q s i ∧ (step s i).elim True (fun t => Meets Q t is)

@[simp] theorem run_nil (s : σ) : run step s [] = some s := rfl

theorem run_cons (s t : σ) (i : ι) (is : List ι) (h : step s i = some t) :
    run step s (i::is) = run step t is := by
  rw [run, h]
  rfl

theorem run_cons_some (s u : σ) (i : ι) (is : List ι) (h : run step s (i::is) = some u) :
    ∃ t, step s i = some t ∧ run step t is = some u := Option.bind_eq_some_iff.mp h

theorem run_append (s : σ) (is js : List ι) :
    run step s (is++js) = (run step s is).bind (fun t => run step t js) := by
  induction is generalizing s with
  | nil => rfl
  | cons i is ih =>
    rw [List.cons_append, run, run, Option.bind_assoc]
    congr 1
    funext t
    exact ih t

theorem run_trans (s t u : σ) (is js : List ι) (hs : run step s is = some t)
    (ht : run step t js = some u) : run step s (is++js) = some u := by
  rw [run_append, hs]
  exact ht

/-- What holds of the labels so far and the state goes on to hold. -/
theorem run_history (P : List ι → σ → Prop)
    (hstep : ∀ past s i t, P past s → step s i = some t → P (past++[i]) t)
    (past is : List ι) (s u : σ) (hs : P past s) (h : run step s is = some u) :
    P (past++is) u := by
  induction is generalizing past s with
  | nil =>
    cases h
    simpa using hs
  | cons i is ih =>
    obtain ⟨t,ht,hu⟩ := run_cons_some step s u i is h
    have hnext := ih (past++[i]) t (hstep past s i t hs ht) hu
    simpa using hnext

/-- An invariant under a condition on the steps. -/
theorem run_meets (Q : σ → ι → Prop) (P : σ → Prop)
    (hstep : ∀ s i t, P s → Q s i → step s i = some t → P t)
    (is : List ι) (s u : σ) (hs : P s) (hq : Meets step Q s is) (h : run step s is = some u) :
    P u := by
  induction is generalizing s with
  | nil =>
    cases h
    exact hs
  | cons i is ih =>
    obtain ⟨t,ht,hu⟩ := run_cons_some step s u i is h
    have hrest := hq.2
    rw [ht] at hrest
    exact ih t (hstep s i t hs hq.1 ht) hrest hu

theorem run_invariant (P : σ → Prop) (hstep : ∀ s i t, P s → step s i = some t → P t)
    (is : List ι) (s u : σ) (hs : P s) (h : run step s is = some u) : P u :=
  run_history step (fun _ => P) (fun _ => hstep) [] is s u hs h

end RlStatsApi.LabelledRuns
