import Hdc.Lib.ExactRuns

/-!
Commands of a unity or app task (`daemon_unity.cpp`, `daemon_app.cpp`, `async_cmd.cpp`).

A task has one `AsyncCmd`. A request that cannot be started is only counted as a failure: nothing
will ever finish it, and the task stays counted for it. A request that is started while another one
runs takes the places of its descriptor, process id and reader.

* `once_iff`: each request finishes once, with nothing lost and the count as before, exactly as long
  as each one is refused at once, or starts while no other one runs.
-/

namespace Hdc.Daemon

open List

/-- Whose command it is: `++refCount` comes after the start in the unity task, before it in the app
task. -/
inductive Runner
  | unity
  | app
deriving DecidableEq

/-- What becomes of a request: its name is refused, `pipe` or `fork` fails, the descriptor object is
not allocated, or its reader runs. -/
inductive Start
  | refused
  | notForked
  | notAllocated
  | started
deriving DecidableEq

/-- `AsyncCmd`, with the request its members belong to. -/
structure AsyncCmd where
  fd : Option Nat := none
  pid : Option Nat := none
  childShell : Option Nat := none
  refCount : Int := 0
deriving DecidableEq

/-- `ExecuteCommand`. -/
def AsyncCmd.executeCommand (cmd : AsyncCmd) (request : Nat) : Start → AsyncCmd
  | .refused => cmd
  | .notForked => { cmd with fd := none }
  | .notAllocated => { cmd with fd := some request, pid := some request, childShell := none }
  | .started => ⟨some request, some request, some request, cmd.refCount + 1⟩

structure Commands where
  refCount : Int := 0
  asyncCommand : AsyncCmd := {}
  /-- How many requests there were, and which of them have a reader, or sent a finish. -/
  requests : Nat := 0
  running : List Nat := []
  finished : List Nat := []
  /-- `ExecuteShell` has yet to raise the count. -/
  raises : Bool := false
deriving DecidableEq

open Commands

/-- A request, the rest of `ExecuteShell`, or the end of a reader. -/
inductive CommandOp
  | request (start : Start)
  | raise
  | finish (request : Nat)
deriving DecidableEq

/-- A request that is refused gets its `TaskFinish` or `CMD_APP_FINISH` at once; for any other one
the answer of `ExecuteCommand` is only counted. -/
def Commands.request (runner : Runner) (s : Commands) (start : Start) : Commands :=
  if start = .refused then
    { s with requests := s.requests + 1, finished := s.requests :: s.finished }
  else
    { s with
      asyncCommand := s.asyncCommand.executeCommand s.requests start
      requests := s.requests + 1
      running := if start = .started then s.requests :: s.running else s.running
      refCount := if runner = .app then s.refCount + 1 else s.refCount
      raises := decide (runner = .unity) }

/-- `FinishShellProc` with `AsyncCmdOut` or `AsyncInstallFinish`. -/
def Commands.finish (s : Commands) (request : Nat) : Commands :=
  { s with
    asyncCommand := { s.asyncCommand with refCount := s.asyncCommand.refCount - 1 }
    running := s.running.erase request
    finished := request :: s.finished
    refCount := s.refCount - 1 }

/-- The loop takes the next request when `ExecuteShell` has returned. -/
def Commands.step (runner : Runner) (s : Commands) : CommandOp → Commands
  | .request start => if s.raises then s else s.request runner start
  | .raise => if s.raises then { s with refCount := s.refCount + 1, raises := false } else s
  | .finish request => if request ∈ s.running then s.finish request else s

/-- Each request has finished once, or will; the count is that of the ones that will, and the
members of `AsyncCmd` are theirs. -/
structure Commands.Once (s : Commands) : Prop where
  once : ∀ i, s.finished.count i + s.running.count i = if i < s.requests then 1 else 0
  count : s.refCount + (if s.raises then 1 else 0) = s.running.length
  held : ∀ i ∈ s.running, s.asyncCommand.fd = some i ∧ s.asyncCommand.pid = some i ∧
    s.asyncCommand.childShell = some i

/-- A request is refused, or starts while no other one runs. -/
def Commands.Fine (s : Commands) : CommandOp → Prop
  | .request start => s.raises = false →
      start = .refused ∨ start = .started ∧ s.running = []
  | _ => True

variable {runner : Runner} {s : Commands}

/-- One more entry for the request that is made. -/
theorem Commands.Once.next (once : s.Once) (i : Nat) :
    s.finished.count i + s.running.count i + (if s.requests = i then 1 else 0) =
      if i < s.requests + 1 then 1 else 0 := by
  rw [once.once]
  split <;> split <;> split <;> omega

theorem Commands.Once.request (once : s.Once) (idle : s.raises = false) {start : Start}
    (fine : start = .refused ∨ start = .started ∧ s.running = []) :
    (s.request runner start).Once := by
  rcases fine with rfl | ⟨rfl, nobody⟩
  · refine ⟨fun i => ?_, once.count, once.held⟩
    have next := once.next i
    simp only [Commands.request, if_true, count_cons, beq_iff_eq]
    omega
  · have count := once.count
    refine ⟨fun i => ?_, ?_, ?_⟩
    · have next := once.next i
      simpa [Commands.request, count_cons, nobody] using next
    · cases runner <;> simp_all [Commands.request]
    · simp [Commands.request, AsyncCmd.executeCommand, nobody]

theorem Commands.Once.finish (once : s.Once) {request : Nat} (mem : request ∈ s.running) :
    (s.finish request).Once := by
  refine ⟨fun i => ?_, ?_, fun i other => once.held i (mem_of_mem_erase other)⟩
  · refine Eq.trans ?_ (once.once i)
    have one := count_pos_iff.mpr mem
    simp only [Commands.finish, count_cons, count_erase, beq_iff_eq]
    split
    · subst request
      omega
    · omega
  · have count := once.count
    have more : 0 < s.running.length := length_pos_of_mem mem
    change s.refCount - 1 + (if s.raises then 1 else 0) = ((s.running.erase request).length : Int)
    rw [length_erase_of_mem mem]
    generalize (if s.raises then 1 else 0 : Int) = raised at count ⊢
    omega

/-- A request that is not started never finishes; one that is started takes the places of another. -/
theorem Commands.Once.lost (once : s.Once) {start : Start}
    (bad : ¬ (start = .refused ∨ start = .started ∧ s.running = [])) :
    ¬ (s.request runner start).Once := by
  intro after
  obtain ⟨here, busy⟩ := not_or.mp bad
  by_cases begun : start = .started
  · subst begun
    obtain ⟨i, mem⟩ := exists_mem_of_ne_nil _ fun none => busy ⟨rfl, none⟩
    have taken : s.requests = i := by
      simpa [Commands.request, AsyncCmd.executeCommand] using
        (after.held i (by simp [Commands.request, mem])).1
    have unknown := once.once i
    rw [if_neg (by omega)] at unknown
    have known := count_pos_iff.mpr mem
    omega
  · have never := after.once s.requests
    have old := once.once s.requests
    simp [Commands.request, here, begun] at never old
    omega

/-- Each request finishes once, with the members of `AsyncCmd` its own, exactly if all requests are
fine: the next one starts when the one before it has finished. -/
theorem once_iff (runner : Runner) (ops : List CommandOp) :
    (∀ k, ((ops.take k).foldl (step runner) {}).Once) ↔
      ExactRuns.AllFine (step runner) Commands.Fine {} ops := by
  apply ExactRuns.holds_iff Commands.Once
  · exact ⟨fun i => rfl, rfl, fun i mem => absurd mem (by simp)⟩
  · intro s op once fine
    cases op with
    | request start =>
      simp only [step]
      split
      · exact once
      · rename_i idle
        exact once.request (by simpa using idle) (fine (by simpa using idle))
    | raise =>
      simp only [step]
      split
      · rename_i due
        exact ⟨once.once, by simpa [due] using once.count, once.held⟩
      · exact once
    | finish request =>
      simp only [step]
      split
      · rename_i mem
        exact once.finish mem
      · exact once
  · intro s op once bad
    cases op with
    | request start =>
      obtain ⟨idle, bad⟩ := Classical.not_imp.mp bad
      rw [step, if_neg (by simp [idle])]
      exact once.lost bad
    | raise => exact absurd trivial bad
    | finish request => exact absurd trivial bad
  · exact id

/-- A command that cannot be started leaves its request open for ever. -/
theorem request_never_finished :
    let s := [.request .notForked, .raise].foldl (step .unity) {}
    s.requests = 1 ∧ s.finished = [] ∧ s.running = [] ∧ s.refCount = 1 := by
  decide

end Hdc.Daemon
