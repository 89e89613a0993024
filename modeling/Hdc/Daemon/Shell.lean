import Mathlib.Data.Bool.Basic

/-!
The interactive shell of the daemon: its terminal and its child, from `StartShell` to the
release of the task (`released_eq`, `balanced_iff`).
-/

namespace Hdc.Shell

/-- What the calls behind `StartShell` come to: the terminal is opened, granted, unlocked
and named, the child is forked and the descriptor object is allocated. -/
structure Outcome where
  opened : Bool
  prepared : Bool
  forked : Bool
  allocated : Bool

/-- A shell task: whether the master was opened and how often it was closed, whether there is
a child (`pidShell`), and what was done to it. -/
structure HdcShell where
  opened : Bool := false
  closed : Nat := 0
  pidShell : Bool := false
  killed : Bool := false
  waited : Bool := false
  childReady : Bool := false

/-- `CreateSubProcessPTY`: without a child the terminal is returned all the same. -/
def createSubProcessPTY (outcome : Outcome) : Bool × HdcShell :=
  if !outcome.opened then (false, {})
  else if !outcome.prepared then (false, { opened := true, closed := 1 })
  else (true, { opened := true, pidShell := outcome.forked })

/-- `LoopReadOnThread` detaches a thread and returns 0. -/
def loopReadOnThread : Int := 0

def startWorkOnThread : Bool := !(loopReadOnThread < 0)

def startShell (outcome : Outcome) : Bool × HdcShell :=
  let (fdPTY, shell) := createSubProcessPTY outcome
  if fdPTY && outcome.allocated && startWorkOnThread then (true, { shell with childReady := true })
  else (false, { shell with killed := shell.pidShell })

def HdcShell.stopTask (shell : HdcShell) : HdcShell :=
  if shell.childReady && shell.pidShell then { shell with killed := true, waited := true }
  else shell

/-- What is called behind `StartShell`. A release finds the task and the descriptor object
ready, or not. -/
inductive Call where
  | stopTask
  | readyForRelease (base child : Bool)
deriving DecidableEq

def HdcShell.readyForRelease (shell : HdcShell) (base child : Bool) : Bool × HdcShell :=
  if !base then (false, shell)
  else if !shell.childReady then (true, shell)
  else if !child then (false, shell)
  else (true, { shell with closed := shell.closed + 1 })

/-- The shell that the last of the calls releases. -/
def HdcShell.released (shell : HdcShell) : List Call → Option HdcShell
  | [] => none
  | .stopTask :: calls => shell.stopTask.released calls
  | .readyForRelease base child :: calls =>
    let (ret, shell) := shell.readyForRelease base child
    if ret then if calls = [] then some shell else none else shell.released calls

/-- At the release the master is closed once and the child is killed and waited for, and
`StartShell` succeeded only with a child. -/
def Balanced (outcome : Outcome) (shell : HdcShell) : Prop :=
  (shell.opened = true → shell.closed = 1) ∧
    (shell.pidShell = true → shell.killed = true ∧ shell.waited = true) ∧
      ((startShell outcome).1 = true → shell.pidShell = true)

/-- Nothing is done to a shell that is not ready. -/
theorem released_eq {shell after : HdcShell} {calls : List Call}
    (done : shell.released calls = some after) :
    after = if shell.childReady then
        let stopped := shell.pidShell && decide (Call.stopTask ∈ calls)
        { shell with closed := shell.closed + 1, killed := shell.killed || stopped,
                     waited := shell.waited || stopped }
      else shell := by
  induction calls generalizing shell with
  | nil => cases done
  | cons call calls ih =>
    rcases shell with ⟨_, _, pidShell, _, _, ready⟩
    cases call with
    | stopTask =>
      rw [ih done]
      cases ready <;> cases pidShell <;> simp [HdcShell.stopTask]
    | readyForRelease base child =>
      cases base <;> cases ready <;> cases child <;>
        simp only [HdcShell.released, HdcShell.readyForRelease] at done
      all_goals first
        | simpa using ih done
        | split at done <;> simp_all

/-- Terminal and child are balanced just where no terminal could be used, or the start went
through with a child and the task is stopped before it is released. -/
theorem balanced_iff {outcome : Outcome} {calls : List Call} {shell : HdcShell}
    (done : (startShell outcome).2.released calls = some shell) :
    Balanced outcome shell ↔ (outcome.opened && outcome.prepared) = false ∨
      outcome.forked = true ∧ outcome.allocated = true ∧ Call.stopTask ∈ calls := by
  have starts : startWorkOnThread = true := rfl
  rw [Balanced, released_eq done]
  rcases outcome with ⟨opened, prepared, forked, allocated⟩
  cases opened <;> cases prepared <;> cases forked <;> cases allocated <;>
    simp [startShell, createSubProcessPTY, starts]

theorem balanced_stopped : Balanced ⟨true, true, true, true⟩ ⟨true, 1, true, true, true, true⟩ :=
  (@balanced_iff _ [.stopTask, .readyForRelease true true] _ rfl).mpr (.inr ⟨rfl, rfl, by decide⟩)

/-- Without a child `StartShell` succeeds all the same; without the descriptor object the master
stays open and nobody waits for the child. -/
theorem failed_start_leaks :
    ((startShell ⟨true, true, false, true⟩).1 = true ∧
      ∃ shell, (startShell ⟨true, true, false, true⟩).2.released
        [.stopTask, .readyForRelease true true] = some shell ∧
          ¬ Balanced ⟨true, true, false, true⟩ shell) ∧
    ∃ shell, (startShell ⟨true, true, true, false⟩).2.released
      [.stopTask, .readyForRelease true true] = some shell ∧
        shell.closed = 0 ∧ shell.waited = false ∧ ¬ Balanced ⟨true, true, true, false⟩ shell := by
  refine ⟨⟨rfl, _, rfl, fun balanced => ?_⟩, _, rfl, rfl, rfl, fun balanced => ?_⟩
  · exact absurd (balanced.2.2 rfl) (by decide)
  · exact absurd (balanced.1 rfl) (by decide)

end Hdc.Shell
