import Hdc.Define
import Hdc.Lib.ExactRuns
import Mathlib.Data.List.TakeDrop

/-!
The thread that reads the output of a command (`file_descriptor.cpp`).

The thread waits for edges: one event for what has become readable since the last one, however much
it is, and one read for each event. A hang-up ends it after one more read. It lowers the reference
that was taken for it before its last two uses of the object, and never where it gets no buffer. The
shell waits for its own count as well, which the last use lowers; a forwarded device does not, and
gives up waiting after a hundred rounds.

* `complete_iff`: the output is complete exactly if the last read takes all that is left;
* `outlives_iff`: the object outlives the thread, and is given back, exactly as long as the thread
  gets its buffer and a device is released when the thread has ended.
-/

namespace Hdc.FileDescriptor

open List

/-! ### Reading -/

/-- `IO_THREAD_READ_MAX`: 120% of 60 KB. -/
def ioThreadReadMax : Nat := 73728

/-- An event: what has become readable by the time of its read, and how much that read gives;
nothing, if it is interrupted. The event that reports the hang-up can come with data too. -/
structure Edge where
  arrived : Bytes
  size : Nat

/-- What the child has written and nobody has read, and what `callbackRead` was given. -/
structure Pipe where
  unread : Bytes := []
  passed : Bytes := []
deriving DecidableEq

/-- `ReadData`: one `read`, and `callbackRead`, also for the hang-up. -/
def readData (pipe : Pipe) (edge : Edge) : Pipe :=
  let count := min edge.size ioThreadReadMax
  ⟨(pipe.unread ++ edge.arrived).drop count, pipe.passed ++ (pipe.unread ++ edge.arrived).take count⟩

/-- `ReadData` for each event, until the hang-up; `callbackFinish` comes behind. -/
def run (edges : List Edge) (last : Edge) : Pipe :=
  readData (edges.foldl readData {}) last

def written (edges : List Edge) (last : Edge) : Bytes :=
  (edges.map Edge.arrived).flatten ++ last.arrived

/-- How much is left in a pipe that held `left` bytes before the edges. -/
def pending (left : Nat) : List Edge → Nat
  | [] => left
  | edge :: edges =>
    pending (left + edge.arrived.length - min edge.size ioThreadReadMax) edges

theorem foldl_readData (edges : List Edge) (pipe : Pipe) :
    (edges.foldl readData pipe).passed ++ (edges.foldl readData pipe).unread =
    pipe.passed ++ pipe.unread ++ (edges.map Edge.arrived).flatten ∧
    (edges.foldl readData pipe).unread.length = pending pipe.unread.length edges := by
  induction edges generalizing pipe with
  | nil => simp [pending]
  | cons edge edges ih =>
    obtain ⟨all, length⟩ := ih (readData pipe edge)
    refine ⟨all.trans ?_, length.trans ?_⟩
    · simp [readData]
    · simp [readData, pending]

/-- `callbackRead` has got all that was written exactly if the read of the hang-up takes all that
the edges before it have left. -/
theorem complete_iff (edges : List Edge) (last : Edge) :
    (run edges last).passed = written edges last ↔
      pending 0 edges + last.arrived.length ≤ min last.size ioThreadReadMax := by
  obtain ⟨all, length⟩ := foldl_readData edges {}
  have held : pending 0 edges = (edges.foldl readData {}).unread.length := length.symm
  have whole : (edges.map Edge.arrived).flatten =
      (edges.foldl readData {}).passed ++ (edges.foldl readData {}).unread := by
    simpa using all.symm
  rw [run, written, held, whole, readData, append_assoc, append_cancel_left_eq,
    take_eq_self_iff, length_append]

/-- A hang-up that is reported with more than its read gives loses the end of the output. -/
theorem end_of_output_lost :
    (run [] ⟨[97, 98], 1⟩).passed = [97] ∧ written [] ⟨[97, 98], 1⟩ = [97, 98] := by
  decide

/-! ### Releasing -/

/-- Who polls for the release: the shell task or a forwarded device. -/
inductive Owner
  | shell
  | device
deriving DecidableEq

/-- Where the thread stands in `Run`: before `Malloc`, in the loop, after `--refIO`, after
`workContinue` is cleared, and after `callbackFinish`. -/
inductive Place
  | started
  | reading
  | lowered
  | cleared
  | ended
deriving DecidableEq

structure State where
  place : Place := .started
  refIO : Nat := 1
  /-- What the task counts; `FinishShellProc` lowers it. -/
  refCount : Nat
  releaseRetryCount : Nat := 0
  deleted : Bool := false
deriving DecidableEq

/-- A step of the thread, with the answer of the allocation, or a round of the main loop. -/
inductive Op
  | thread (allocated : Bool)
  | poll
deriving DecidableEq

/-- `maxReleaseRetry`. -/
def maxReleaseRetry : Nat := 100

/-- `FileIoThread::Run` up to its next access. -/
def State.thread (s : State) (allocated : Bool) : State :=
  match s.place with
  | .started =>
    if allocated then { s with place := .reading }
    else { s with place := .ended, refCount := s.refCount - 1 }
  | .reading => { s with place := .lowered, refIO := s.refIO - 1 }
  | .lowered => { s with place := .cleared }
  | .cleared => { s with place := .ended, refCount := s.refCount - 1 }
  | .ended => s

/-- `ReadyForRelease` of the shell, or a round of the idle handle of `FreeJDWP`. -/
def State.poll (owner : Owner) (s : State) : State :=
  match owner with
  | .shell => if s.refCount = 0 ∧ s.refIO = 0 then { s with deleted := true } else s
  | .device =>
    if s.deleted then s
    else if s.refIO = 0 ∨ maxReleaseRetry ≤ s.releaseRetryCount + 1 then
      { s with releaseRetryCount := s.releaseRetryCount + 1, deleted := true }
    else { s with releaseRetryCount := s.releaseRetryCount + 1 }

def step (owner : Owner) (s : State) : Op → State
  | .thread allocated => s.thread allocated
  | .poll => s.poll owner

/-- Just started, and counted by the shell. -/
def initial : Owner → State
  | .shell => { refCount := 1 }
  | .device => { refCount := 0 }

/-- Deleted after the last access only, and released by the next round after it. -/
def Outlives (owner : Owner) (s : State) : Prop :=
  (s.deleted = true → s.place = .ended) ∧
    (s.place = .ended → s.refIO = 0 ∧ (s.poll owner).deleted = true)

/-- The thread gets its buffer; a round for a device falls behind its end, or is one of the first
and falls into its loop. -/
def Fine (owner : Owner) (s : State) : Op → Prop
  | .thread allocated => s.place = .started → allocated = true
  | .poll => owner = .device → s.place = .ended ∨
      (s.place = .started ∨ s.place = .reading) ∧ s.releaseRetryCount + 1 < maxReleaseRetry

/-- The counts follow the thread. -/
structure Counted (owner : Owner) (s : State) : Prop where
  late : s.deleted = true → s.place = .ended
  io : s.refIO = if s.place = .started ∨ s.place = .reading then 1 else 0
  count : s.refCount = if owner = .shell ∧ s.place ≠ .ended then 1 else 0

variable {owner : Owner} {s : State}

section

variable (counted : Counted owner s)
include counted

theorem Counted.outlives : Outlives owner s := by
  refine ⟨counted.late, fun ended => ?_⟩
  have io : s.refIO = 0 := by simp [counted.io, ended]
  have count : s.refCount = 0 := by simp [counted.count, ended]
  cases owner with
  | shell => simp [State.poll, io, count]
  | device => by_cases done : s.deleted = true <;> simp [State.poll, io, done]

theorem Counted.thread {allocated : Bool}
    (fine : s.place = .started → allocated = true) : Counted owner (s.thread allocated) := by
  obtain ⟨_, _, _⟩ := counted
  cases here : s.place with
  | started =>
    constructor <;> simp_all [State.thread]
  | reading | lowered | ended => constructor <;> simp_all [State.thread]
  | cleared => cases owner <;> constructor <;> simp_all [State.thread]

theorem Counted.poll (fine : Fine owner s .poll) : Counted owner (s.poll owner) := by
  obtain ⟨late, io, count⟩ := counted
  cases owner with
  | shell =>
    by_cases ready : s.refCount = 0 ∧ s.refIO = 0
    · constructor <;> simp_all [State.poll]
    · simpa only [State.poll, if_neg ready] using ⟨late, io, count⟩
  | device =>
    rcases fine rfl with ended | ⟨busy, early⟩
    · by_cases done : s.deleted = true <;> constructor <;> simp_all [State.poll]
    · have held : s.refIO = 1 := by rw [io, if_pos busy]
      have kept : ¬ (s.refIO = 0 ∨ maxReleaseRetry ≤ s.releaseRetryCount + 1) := by omega
      rw [State.poll]
      split
      · exact ⟨late, io, count⟩
      · exact ⟨late, io, count⟩

/-- A thread without a buffer keeps its reference. -/
theorem Counted.lost {op : Op} (bad : ¬ Fine owner s op) : ¬ Outlives owner (step owner s op) := by
  obtain ⟨late, io, _⟩ := counted
  cases op with
  | thread allocated =>
    obtain ⟨started, failed⟩ : s.place = .started ∧ allocated = false := by simpa [Fine] using bad
    intro outlives
    simpa [step, State.thread, started, failed, io] using outlives.2
  | poll =>
    obtain ⟨rfl, running, rest⟩ : owner = .device ∧ s.place ≠ .ended ∧ (s.place = .started ∨
        s.place = .reading → maxReleaseRetry ≤ s.releaseRetryCount + 1) := by
      simpa [Fine] using bad
    have alive : s.deleted = false := by simpa [running] using late
    have due : s.refIO = 0 ∨ maxReleaseRetry ≤ s.releaseRetryCount + 1 := by
      by_cases busy : s.place = .started ∨ s.place = .reading
      · exact .inr (rest busy)
      · exact .inl (by rw [io, if_neg busy])
    intro outlives
    exact running (by simpa [step, State.poll, alive, due] using outlives.1)

end

/-- For every interleaving of the thread with the rounds that look whether it has ended: the object
outlives the thread, and is given back after it, exactly if all steps are fine. -/
theorem outlives_iff (owner : Owner) (ops : List Op) :
    (∀ k, Outlives owner ((ops.take k).foldl (step owner) (initial owner))) ↔
      ExactRuns.AllFine (step owner) (Fine owner) (initial owner) ops := by
  apply ExactRuns.holds_iff (Counted owner)
  · cases owner <;> constructor <;> decide
  · intro s op counted fine
    cases op with
    | thread allocated => exact counted.thread fine
    | poll => exact counted.poll fine
  · exact fun counted bad => counted.lost bad
  · exact fun counted => counted.outlives

/-- A device is deleted between the last two accesses of its thread. -/
theorem device_deleted_early :
    ([.thread true, .thread true, .poll].foldl (step .device) (initial .device)).deleted = true ∧
      ([.thread true, .thread true, .poll].foldl (step .device) (initial .device)).place =
        .lowered := by
  decide

end Hdc.FileDescriptor
