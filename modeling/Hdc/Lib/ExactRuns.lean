import Mathlib.Data.List.Basic

/-!
Properties that hold along a run exactly as long as its steps are fine.

A run is a fold of a step function over operations. If a fine operation keeps an invariant that
implies a property, and any other one breaks the property at once, then the property holds in every
state of a run exactly if all its operations are fine.

* `holds_iff`: the exact condition along a run;
* `final_iff`: the exact condition for the end of a run, if what breaks stays broken.
-/

namespace ExactRuns

open List

variable {S Op : Type} (step : S → Op → S)

/-- Every operation of a run from `start` is fine in the state it meets. -/
def AllFine (fine : S → Op → Prop) (start : S) (ops : List Op) : Prop :=
  ∀ k op, ops[k]? = some op → fine ((ops.take k).foldl step start) op

variable {step} {fine : S → Op → Prop} {start : S} {ops : List Op}

/-- One more operation of a run is one more step. -/
theorem foldl_take_succ {k : Nat} {op : Op} (here : ops[k]? = some op) :
    (ops.take (k + 1)).foldl step start = step ((ops.take k).foldl step start) op := by
  rw [take_add_one, here, foldl_append]
  rfl

theorem allFine_nil : AllFine step fine start [] := fun _ _ here => absurd here (by simp)

theorem AllFine.cons {op : Op} (first : fine start op)
    (rest : AllFine step fine (step start op) ops) : AllFine step fine start (op :: ops) := by
  intro k other here
  cases k with
  | zero =>
    cases here
    exact first
  | succ k => exact rest k other here

variable (inv : S → Prop) (initial : inv start)
  (keeps : ∀ {s op}, inv s → fine s op → inv (step s op))
include initial keeps

/-- Fine operations lead from invariant to invariant. -/
theorem inv_run {k : Nat}
    (sofar : ∀ j < k, ∀ op, ops[j]? = some op → fine ((ops.take j).foldl step start) op) :
    inv ((ops.take k).foldl step start) := by
  induction k with
  | zero => exact initial
  | succ k ih =>
    have before := ih fun j less => sofar j (Nat.lt_succ_of_lt less)
    cases here : ops[k]? with
    | none =>
      rw [take_add_one, here]
      simpa using before
    | some op =>
      rw [foldl_take_succ here]
      exact keeps before (sofar k (Nat.lt_succ_self k) _ here)

/-- A run of fine operations ends in the invariant. -/
theorem inv_foldl (allFine : AllFine step fine start ops) : inv (ops.foldl step start) := by
  have all : inv ((ops.take ops.length).foldl step start) :=
    inv_run inv initial keeps fun j _ op here => allFine j op here
  rwa [take_length] at all

/-- A property that fine operations keep and others break at once. -/
theorem holds_iff {P : S → Prop}
    (breaks : ∀ {s op}, inv s → ¬ fine s op → ¬ P (step s op)) (holds : ∀ {s}, inv s → P s) :
    (∀ k, P ((ops.take k).foldl step start)) ↔ AllFine step fine start ops := by
  constructor
  · intro always k
    induction k using Nat.strongRecOn with
    | ind k ih =>
      intro op here
      by_contra bad
      have broken := breaks (inv_run _ initial keeps ih) bad
      rw [← @foldl_take_succ S Op step start ops k op here] at broken
      exact broken (always (k + 1))
  · intro allFine k
    exact holds (inv_run _ initial keeps fun j _ op here => allFine j _ here)

/-- A property of the end of a run that fine operations lead to and that is lost for good
with the first other one. -/
theorem final_iff {P spoiled : S → Prop}
    (spoils : ∀ {s op}, inv s → ¬ fine s op → spoiled (step s op))
    (stays : ∀ {s op}, spoiled s → spoiled (step s op))
    (lost : spoiled (ops.foldl step start) → ¬ P (ops.foldl step start))
    (holds : inv (ops.foldl step start) → P (ops.foldl step start)) :
    P (ops.foldl step start) ↔ AllFine step fine start ops := by
  refine ⟨fun final k => ?_, fun allFine => holds (inv_foldl inv initial keeps allFine)⟩
  induction k using Nat.strongRecOn with
  | ind k ih =>
    intro op here
    by_contra bad
    have broken := spoils (inv_run _ initial keeps ih) bad
    rw [← @foldl_take_succ S Op step start ops k op here] at broken
    -- the rest of the run is taken from a spoiled state
    have rest : ∀ (more : List Op) (s : S), spoiled s → spoiled (more.foldl step s) := by
      intro more
      induction more with
      | nil => exact fun _ now => now
      | cons op more ih => exact fun _ now => ih _ (stays now)
    have ends := rest (ops.drop (k + 1)) _ broken
    rw [← foldl_append, take_append_drop] at ends
    exact lost ends final

end ExactRuns
