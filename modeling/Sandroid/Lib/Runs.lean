import Mathlib.Data.List.Basic

/-!
# Runs of a labelled step function

A system with a partial step function, the runs it makes along a list of labels,
and conditions on the steps of a run.  `runSteps_invariant` is the induction rule:
what every step keeps under the condition holds wherever such a run ends.
-/

namespace Sandroid
namespace Lib

variable {S L : Type} (step : S → L → Option S)

/-- Run a list of steps. -/
def runSteps (s : S) : List L → Option S
  | [] => some s
  | label :: labels =>
      match step s label with
      | none => none
      | some s' => runSteps s' labels

/-- Every step of the run meets the condition. -/
def AlongRun (P : S → L → Prop) (s : S) : List L → Prop
  | [] => True
  | label :: labels => P s label ∧ ∀ s', step s label = some s' → AlongRun P s' labels

variable {step}

theorem AlongRun.cons {P : S → L → Prop} {s s' : S} {label : L} {labels : List L}
    (h : P s label) (hstep : step s label = some s') (hrest : AlongRun step P s' labels) :
    AlongRun step P s (label :: labels) := by
  refine ⟨h, ?_⟩
  intro s₁ hstep₁
  rw [hstep] at hstep₁
  cases hstep₁
  exact hrest

theorem alongRun_of_forall {P : S → L → Prop} (h : ∀ s label, P s label) (s : S)
    (labels : List L) : AlongRun step P s labels := by
  induction labels generalizing s with
  | nil => trivial
  | cons label labels ih => exact ⟨h s label, fun s' _ => ih s'⟩

/-- A condition on labels alone. -/
theorem alongRun_of_labels {P : L → Prop} (s : S) {labels : List L}
    (h : ∀ label, label ∈ labels → P label) : AlongRun step (fun _ => P) s labels := by
  induction labels generalizing s with
  | nil => trivial
  | cons label labels ih =>
      exact ⟨h label (by simp), fun s' _ => ih s' fun l hl => h l (List.mem_cons_of_mem label hl)⟩

/-- A check of the condition on one given run. -/
def checkRun (step : S → L → Option S) (p : S → L → Bool) (s : S) : List L → Bool
  | [] => true
  | label :: labels =>
      p s label && match step s label with
        | none => true
        | some s' => checkRun step p s' labels

theorem alongRun_of_checkRun {P : S → L → Prop} {p : S → L → Bool}
    (hp : ∀ s label, p s label = true → P s label) {s : S} {labels : List L}
    (h : checkRun step p s labels = true) : AlongRun step P s labels := by
  induction labels generalizing s with
  | nil => trivial
  | cons label labels ih =>
      rw [checkRun, Bool.and_eq_true] at h
      refine ⟨hp s label h.1, ?_⟩
      intro s' hstep
      rw [hstep] at h
      exact ih h.2

theorem runSteps_append (s : S) (labels more : List L) :
    runSteps step s (labels ++ more) =
      (runSteps step s labels).bind fun s' => runSteps step s' more := by
  induction labels generalizing s with
  | nil => rfl
  | cons label labels ih =>
      rw [List.cons_append, runSteps, runSteps]
      cases step s label with
      | none => rfl
      | some s' => exact ih s'

/-- The rule of invariants. -/
theorem runSteps_invariant {Inv : S → Prop} {P : S → L → Prop}
    (hkeeps : ∀ {s s' label}, Inv s → P s label → step s label = some s' → Inv s')
    {s s' : S} {labels : List L} (h : Inv s) (halong : AlongRun step P s labels)
    (hrun : runSteps step s labels = some s') : Inv s' := by
  induction labels generalizing s with
  | nil =>
      cases hrun
      exact h
  | cons label labels ih =>
      simp only [runSteps] at hrun
      split at hrun
      · cases hrun
      · rename_i s₁ hstep
        exact ih (hkeeps h halong.1 hstep) (halong.2 s₁ hstep) hrun

/-- What every step keeps and what holds wherever that holds is met along every run. -/
theorem alongRun_of_invariant {Inv : S → Prop} {P : S → L → Prop}
    (hkeeps : ∀ {s s' label}, Inv s → step s label = some s' → Inv s')
    (hmeets : ∀ {s label}, Inv s → P s label) {s : S} (h : Inv s) (labels : List L) :
    AlongRun step P s labels := by
  induction labels generalizing s with
  | nil => trivial
  | cons label labels ih => exact ⟨hmeets h, fun s' hstep => ih (hkeeps h hstep)⟩

/-- The rule of conditions: what holds after a step exactly if it held before and the step
met a condition holds after a run exactly if it held before and all its steps met it. -/
theorem runSteps_iff {Inv Q : S → Prop} {P : S → L → Prop}
    (hkeeps : ∀ {s s' label}, Inv s → step s label = some s' → Inv s')
    (hiff : ∀ {s s' label}, Inv s → step s label = some s' → (Q s' ↔ Q s ∧ P s label))
    {s s' : S} {labels : List L} (h : Inv s) (hrun : runSteps step s labels = some s') :
    Q s' ↔ Q s ∧ AlongRun step P s labels := by
  induction labels generalizing s with
  | nil =>
      cases hrun
      exact (and_iff_left trivial).symm
  | cons label labels ih =>
      simp only [runSteps] at hrun
      split at hrun
      · cases hrun
      · rename_i s₁ hstep
        rw [ih (hkeeps h hstep) hrun, hiff h hstep, AlongRun, and_assoc]
        refine and_congr_right fun _ => and_congr_right fun _ => ⟨fun halong s₂ hstep₂ => ?_,
          fun halong => halong s₁ hstep⟩
        rw [hstep] at hstep₂
        cases hstep₂
        exact halong

/-- The rule of invariants with a measure: what every step of a certain kind keeps while
it makes the measure smaller bounds the length of a run of such steps. -/
theorem runSteps_bounded {Inv : S → Nat → Prop} {P : L → Prop}
    (hkeeps : ∀ {s s' label m}, Inv s m → P label → step s label = some s' →
      ∃ m', m' < m ∧ Inv s' m')
    {s s' : S} {labels : List L} {m : Nat} (h : Inv s m) (hlabels : ∀ label ∈ labels, P label)
    (hrun : runSteps step s labels = some s') :
    ∃ m', labels.length + m' ≤ m ∧ Inv s' m' := by
  induction labels generalizing s m with
  | nil =>
      cases hrun
      exact ⟨m, by simp, h⟩
  | cons label labels ih =>
      simp only [runSteps] at hrun
      split at hrun
      · cases hrun
      · rename_i s₁ hstep
        obtain ⟨m₁, hlt, h₁⟩ := hkeeps h (hlabels label (by simp)) hstep
        obtain ⟨m', hle, h'⟩ := ih h₁ (fun l hl => hlabels l (by simp [hl])) hrun
        refine ⟨m', ?_, h'⟩
        rw [List.length_cons]
        omega

end Lib
end Sandroid
