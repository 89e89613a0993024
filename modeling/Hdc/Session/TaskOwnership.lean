import Hdc.Lib.ExactRuns
import Hdc.Lib.Registry
import Hdc.Session.Task
import Mathlib.Data.List.Perm.Basic

/-!
Who owns the objects of a session's tasks (`session.cpp`, from `DispatchTaskData` to
`TaskClassDeleteRetry`).

The tasks of a session once more, with numbered records; the object of a record goes by the same
number. The record of a task is in the map of its session, then waits for the timer that removes it,
and is deleted by that timer once its object is. Two things bypass this. A command that starts a
task on a channel which has one deletes the record of the old task at once, with its object alive;
and a task that is taken out of the map when no timer can be had is never looked at again.

* `Ledger.mirrors_run`: without the numbers this is the model of `Tasks`;
* `ownership_exact`: every object has an owner until its one removal, and no record goes before its
  object, if and only if all events are `Orderly`; then the end of the session removes every object
  once.
-/

namespace Hdc.Session

open List TaskInformation

/-! ### Model -/

/-- A `TaskInformation` and which one it is. -/
structure TaskRecord where
  number : Nat
  info : TaskInformation
deriving DecidableEq, Repr

open TaskRecord

/-- The records of a session: in the map, waiting for their timer, and taken out of the map
without one. `created` and `removed` are the objects that were built and deleted, `freed` and
`replaced` the records that the timer and `AdminTask` deleted, as they were then. -/
structure Ledger where
  mapTask : List TaskRecord
  removing : List TaskRecord
  stranded : List TaskRecord
  next : Nat
  created : List Nat
  removed : List Nat
  freed : List TaskRecord
  replaced : List TaskRecord
deriving DecidableEq, Repr

namespace Ledger

def empty : Ledger := ⟨[], [], [], 0, [], [], [], []⟩

/-- `AdminTask` with `OP_QUERY`. -/
def query (ledger : Ledger) (channelId : UInt32) : Option TaskRecord :=
  ledger.mapTask.find? (·.info.channelId = channelId)

def put (ledger : Ledger) (record : TaskRecord) : Ledger :=
  { ledger with
    mapTask := ledger.mapTask.filter (·.info.channelId ≠ record.info.channelId) ++ [record] }

/-- `AdminTask` with `OP_ADD`: the record that was there is deleted. -/
def add (ledger : Ledger) (record : TaskRecord) : Ledger :=
  { ledger.put record with
    next := ledger.next + 1
    replaced := ledger.replaced ++ (ledger.query record.info.channelId).toList }

/-- `RedirectToTask` with `TaskCommandDispatch`, which builds the object of a record. -/
def redirectToTask (build : Build) (ledger : Ledger) (answer : Answer) (record : TaskRecord)
    (command : UInt16) : Ledger :=
  match taskFamily build command with
  | none => ledger
  | some wanted =>
    if record.info.hasInitial then ledger
    else
      { ledger.put ⟨record.number, record.info.construct answer wanted⟩ with
        created := if answer.newTask then ledger.created ++ [record.number] else ledger.created }

/-- `DispatchTaskData`. -/
def dispatchTaskData (build : Build) (ledger : Ledger) (answer : Answer) (channelId : UInt32)
    (command : UInt16) : Ledger :=
  let (ledger, hTaskInfo) :=
    if (needNewTaskInfo build command).1 then
      if answer.newTaskInfo then
        let record :=
          ⟨ledger.next, TaskInformation.new channelId (needNewTaskInfo build command).2⟩
        (ledger.add record, some record)
      else (ledger, none)
    else (ledger, ledger.query channelId)
  match hTaskInfo with
  | none => ledger
  | some record =>
    if record.info.taskStop || record.info.taskFree then ledger
    else ledger.redirectToTask build answer record command

def cleared (channelIDInput : UInt32) (record : TaskRecord) : Bool :=
  record.info.toClear channelIDInput

/-- `BeginRemoveTask`: the record, if it waits for its timer now. -/
def beginRemoveTask (timer : UInt32 → Bool) (record : TaskRecord) : Option TaskRecord :=
  (Tasks.beginRemoveTask (timer record.info.channelId) record.info).map (⟨record.number, ·⟩)

/-- `ClearOwnTasks`. -/
def clearOwnTasks (ledger : Ledger) (timer : UInt32 → Bool) (channelIDInput : UInt32) : Ledger :=
  let taken := ledger.mapTask.filter (cleared channelIDInput)
  { ledger with
    mapTask := ledger.mapTask.filter (!cleared channelIDInput ·)
    removing := ledger.removing ++ taken.filterMap (beginRemoveTask timer)
    stranded := ledger.stranded ++ taken.filter fun record => (beginRemoveTask timer record).isNone }

/-- `TaskClassDeleteRetry` for the task at a place of `removing`. -/
def taskClassDeleteRetry (build : Build) (ledger : Ledger) (ready : Bool) (place : Nat) : Ledger :=
  match ledger.removing[place]? with
  | none => ledger
  | some record =>
    let (ret, info, _) := Tasks.retryTask build ready record.info
    { ledger with
      removing :=
        if ret then ledger.removing.eraseIdx place
        else ledger.removing.set place ⟨record.number, info⟩
      removed :=
        if record.info.taskClass.isSome && info.taskClass.isNone then
          ledger.removed ++ [record.number]
        else ledger.removed
      freed := if ret then ledger.freed ++ [⟨record.number, info⟩] else ledger.freed }

def step (build : Build) (ledger : Ledger) : TaskEvent → Ledger
  | .frame channelId command answer => ledger.dispatchTaskData build answer channelId command
  | .clear channelId timer => ledger.clearOwnTasks timer channelId
  | .retry place ready => ledger.taskClassDeleteRetry build ready place

/-- A turn of the timer stops the object, and deletes it when it is ready. -/
theorem retryTask_eq {build : Build} {info : TaskInformation} (ready : Bool)
    (free : info.taskFree = false)
    (removable : info.taskClass.isSome = true → (instanceClass build info.taskType).isSome = true) :
    ∃ casts, Tasks.retryTask build ready info =
      (ready || info.taskClass.isNone,
        { info with isCleared := true, taskClass := if ready then none else info.taskClass },
        casts) := by
  obtain ⟨taskType, _, _, _, taskFree, _, taskClass, isCleared⟩ :=
    info
  obtain rfl : taskFree = false := free
  cases taskClass with
  | none => cases isCleared <;> cases ready <;> exact ⟨_, rfl⟩
  | some object =>
    obtain ⟨_, removes⟩ := Option.isSome_iff_exists.mp (removable rfl)
    cases isCleared <;> cases ready <;> simp [Tasks.retryTask, Tasks.removeInstanceTask, removes]

/-! ### Without the numbers -/

/-- The tasks are the records without their numbers. -/
structure Mirrors (ledger : Ledger) (tasks : Tasks) : Prop where
  mapTask : tasks.mapTask = ledger.mapTask.map TaskRecord.info
  removing : tasks.removing = ledger.removing.map TaskRecord.info

section Mirrors

variable {ledger : Ledger} {tasks : Tasks}

section

variable (mirrors : Mirrors ledger tasks)
include mirrors

theorem Mirrors.query (channelId : UInt32) :
    tasks.query channelId = (ledger.query channelId).map info := by
  rw [Tasks.query, mirrors.mapTask, find?_map]
  rfl

theorem Mirrors.put (record : TaskRecord) :
    Mirrors (ledger.put record) (tasks.put record.info) where
  mapTask := by
    rw [Tasks.put, Ledger.put, mirrors.mapTask, map_append, filter_map]
    rfl
  removing := mirrors.removing

/-- Sending and delivering leave the tasks alone. -/
theorem Mirrors.deliver (answer : Answer) (channelId : UInt32)
    (command : UInt16) (wanted object : TaskType) :
    Mirrors ledger (tasks.deliver answer channelId command wanted object) := by
  rw [Tasks.deliver]
  split
  · exact { mirrors with }
  · exact { mirrors with }

theorem Mirrors.redirectToTask (build : Build) (answer : Answer)
    (record : TaskRecord) (command : UInt16) :
    Mirrors (ledger.redirectToTask build answer record command)
    (tasks.redirectToTask build answer record.info command).2 := by
  rw [Ledger.redirectToTask, Tasks.redirectToTask]
  cases taskFamily build command with
  | none => exact mirrors
  | some wanted =>
    have built := mirrors.put ⟨record.number, record.info.construct answer wanted⟩
    simp only [Tasks.taskCommandDispatch]
    cases record.info.hasInitial with
    | true =>
      cases record.info.taskClass with
      | none => exact mirrors
      | some object => exact mirrors.deliver _ _ _ _ object
    | false =>
      cases answer.newTask with
      | false => exact { built with }
      | true =>
        refine Mirrors.deliver ?_ _ _ _ _ _
        cases record.info.masterSlave
        · exact { built with }
        · exact { built with }

end

section Dispatch

variable {build : Build} {answer : Answer} {channelId : UInt32} {command : UInt16}

theorem dispatchTaskData_new (ledger : Ledger) (new : (needNewTaskInfo build command).1 = true)
    (memory : answer.newTaskInfo = true) :
    ledger.dispatchTaskData build answer channelId command =
      let record : TaskRecord :=
        ⟨ledger.next, TaskInformation.new channelId (needNewTaskInfo build command).2⟩
      (ledger.add record).redirectToTask build answer record command := by
  simp [dispatchTaskData, new, memory, TaskInformation.new]

theorem dispatchTaskData_old (ledger : Ledger) (old : (needNewTaskInfo build command).1 = false) :
    ledger.dispatchTaskData build answer channelId command =
      match ledger.query channelId with
      | none => ledger
      | some record =>
        if record.info.taskStop || record.info.taskFree then ledger
        else ledger.redirectToTask build answer record command := by
  simp [dispatchTaskData, old]

theorem dispatchTaskData_none (ledger : Ledger) (new : (needNewTaskInfo build command).1 = true)
    (memory : answer.newTaskInfo = false) :
    ledger.dispatchTaskData build answer channelId command = ledger := by
  simp [dispatchTaskData, new, memory]

end Dispatch

theorem Mirrors.dispatchTaskData (mirrors : Mirrors ledger tasks) (build : Build) (answer : Answer)
    (channelId : UInt32) (command : UInt16) :
    Mirrors (ledger.dispatchTaskData build answer channelId command)
    (tasks.dispatchTaskData build answer channelId command).2 := by
  cases new : (needNewTaskInfo build command).1 with
  | true =>
    cases memory : answer.newTaskInfo with
    | false => simpa [Ledger.dispatchTaskData, Tasks.dispatchTaskData, new, memory] using mirrors
    | true =>
      rw [ledger.dispatchTaskData_new new memory, tasks.dispatchTaskData_new new memory]
      generalize TaskInformation.new channelId (needNewTaskInfo build command).2 = info
      have added : Mirrors (ledger.add ⟨ledger.next, info⟩) (tasks.add info) :=
        { mirrors.put ⟨ledger.next, info⟩ with }
      exact added.redirectToTask _ _ _ _
  | false =>
    rw [ledger.dispatchTaskData_old new, tasks.dispatchTaskData_old new, mirrors.query]
    cases ledger.query channelId with
    | none => exact mirrors
    | some record =>
      dsimp only [Option.map_some]
      split
      · exact mirrors
      · exact mirrors.redirectToTask _ _ _ _

theorem Mirrors.clearOwnTasks (mirrors : Mirrors ledger tasks) (timer : UInt32 → Bool)
    (channelIDInput : UInt32) :
    Mirrors (ledger.clearOwnTasks timer channelIDInput)
    (tasks.clearOwnTasks timer channelIDInput) where
  mapTask := by
    rw [Tasks.clearOwnTasks, mirrors.mapTask, filter_map]
    rfl
  removing := by
    rw [Tasks.clearOwnTasks, Ledger.clearOwnTasks, mirrors.mapTask, mirrors.removing]
    dsimp only
    rw [map_append, filter_map, filterMap_map, map_filterMap]
    congr 2
    funext record
    rw [beginRemoveTask, Option.map_map]
    exact (Option.map_id_fun' ▸ rfl)

theorem Mirrors.taskClassDeleteRetry (mirrors : Mirrors ledger tasks) (build : Build) (ready : Bool)
    (place : Nat) :
    Mirrors (ledger.taskClassDeleteRetry build ready place)
    (tasks.taskClassDeleteRetry build ready place) := by
  rw [Tasks.taskClassDeleteRetry, Ledger.taskClassDeleteRetry, mirrors.removing, getElem?_map]
  cases ledger.removing[place]? with
  | none => exact mirrors
  | some record =>
    refine ⟨mirrors.mapTask, ?_⟩
    dsimp only [Option.map_some]
    split
    · rw [eraseIdx_map]
    · rw [map_set]

end Mirrors

/-- Without the numbers, an event does what it does to the tasks. -/
theorem mirrors_step (build : Build) {ledger : Ledger} {tasks : Tasks}
    (mirrors : Mirrors ledger tasks) (event : TaskEvent) :
    Mirrors (ledger.step build event) (tasks.step build event) := by
  cases event with
  | frame channelId command answer => exact mirrors.dispatchTaskData _ _ _ _
  | clear channelId timer => exact mirrors.clearOwnTasks _ _
  | retry place ready => exact mirrors.taskClassDeleteRetry _ ready _

theorem mirrors_run (build : Build) (events : List TaskEvent) :
    Mirrors (events.foldl (step build) empty) (.run build events) := by
  induction events using List.reverseRecOn with
  | nil => exact ⟨rfl, rfl⟩
  | append_singleton history event mirrors =>
    rw [Tasks.run, foldl_append, foldl_append]
    exact mirrors_step build mirrors event

/-! ### Ownership -/

/-- The objects of some records. -/
def objects (records : List TaskRecord) : List Nat :=
  (records.filter (·.info.taskClass.isSome)).map TaskRecord.number

@[simp] theorem objects_nil : objects [] = [] := rfl

@[simp] theorem objects_append (first second : List TaskRecord) :
    objects (first ++ second) = objects first ++ objects second := by
  rw [objects, filter_append, map_append, objects, objects]

theorem objects_sublist (records : List TaskRecord) :
    (objects records).Sublist (records.map number) :=
  filter_sublist.map _

theorem objects_cons (record : TaskRecord) (records : List TaskRecord) :
    objects (record :: records) = objects [record] ++ objects records :=
  objects_append [record] records

section Set

variable {records : List TaskRecord} {place : Nat} {record : TaskRecord}
  (here : records[place]? = some record) {info : TaskInformation}
include here

theorem numbers_set : (records.set place ⟨record.number, info⟩).map number =
    records.map number := by
  have same : (records.map number)[place]? = some record.number := by
    rw [getElem?_map, here, Option.map_some]
  obtain ⟨_, same⟩ := List.getElem?_eq_some_iff.mp same
  rw [map_set, ← same, set_getElem_self]

theorem objects_set (same : info.taskClass = record.info.taskClass) :
    objects (records.set place ⟨record.number, info⟩) = objects records := by
  induction records generalizing place with
  | nil => rfl
  | cons head records ih =>
    cases place with
    | zero =>
      obtain rfl : head = record := by simpa using here
      simp only [set_cons_zero, objects, filter_cons, same]
      split <;> rfl
    | succ place =>
      rw [set_cons_succ, objects_cons, ih (by simpa using here), ← objects_cons]

end Set

theorem objects_perm {first second : List TaskRecord} (same : first.Perm second) :
    (objects first).Perm (objects second) :=
  (same.filter _).map _

end Ledger

/-- Every object that a command builds can be removed. -/
theorem instanceClass_of_taskFamily {build : Build} {command : UInt16} {wanted : TaskType}
    (family : taskFamily build command = some wanted) :
    (instanceClass build wanted).isSome = true := by
  cases build with
  | daemon =>
    cases wanted with
    | flashd =>
      dsimp only [taskFamily] at family
      split at family <;> cases family
    | _ => rfl
  | host =>
    cases wanted with
    | shell =>
      dsimp only [taskFamily] at family
      split at family <;> cases family
    | _ => rfl

/-- Every record was deleted after its object, and by the timer; every object that was built has
one owner, or was removed, and this once. -/
structure Owned (ledger : Ledger) : Prop where
  objectFirst : ∀ record ∈ ledger.freed ++ ledger.replaced, record.info.taskClass = none
  notReplaced : ledger.replaced = []
  accounted : ledger.created.Perm
    (Ledger.objects ledger.mapTask ++ Ledger.objects ledger.removing ++ ledger.removed)
  once : ledger.created.Nodup

/-- A task is started only on a channel that has none, and a task with an object is taken out of
the map only with a timer. -/
def Orderly (build : Build) (ledger : Ledger) : TaskEvent → Prop
  | .frame channelId command answer =>
    (needNewTaskInfo build command).1 = true → answer.newTaskInfo = true →
      ledger.query channelId = none
  | .clear channelIDInput timer =>
    ∀ record ∈ ledger.mapTask, Ledger.cleared channelIDInput record = true →
      record.info.taskClass.isSome = true → timer record.info.channelId = true
  | .retry _ _ => True

/-- What an orderly run keeps. -/
structure Owns (build : Build) (ledger : Ledger) : Prop where
  objectFirst : ∀ record ∈ ledger.freed, record.info.taskClass = none
  notReplaced : ledger.replaced = []
  accounted : ledger.created.Perm
    (Ledger.objects (ledger.mapTask ++ ledger.removing) ++ ledger.removed)
  channels : (ledger.mapTask.map (·.info.channelId)).Nodup
  running : ∀ record ∈ ledger.mapTask,
    record.info.taskStop = false ∧ record.info.hasInitial = record.info.taskClass.isSome
  held : ∀ record ∈ ledger.mapTask ++ ledger.removing,
    record.info.taskFree = false ∧
      (record.info.taskClass.isSome = true →
        (instanceClass build record.info.taskType).isSome = true)
  distinct : ((ledger.mapTask ++ ledger.removing).map TaskRecord.number ++ ledger.removed).Nodup
  numbered : ∀ number ∈ (ledger.mapTask ++ ledger.removing).map TaskRecord.number ++ ledger.removed,
    number < ledger.next

namespace Owns

open Ledger

variable {build : Build} {ledger : Ledger}

theorem empty (build : Build) : Owns build .empty := by
  constructor <;> simp [Ledger.empty]

theorem owned (owns : Owns build ledger) : Owned ledger where
  objectFirst := by
    rw [owns.notReplaced, append_nil]
    exact owns.objectFirst
  notReplaced := owns.notReplaced
  accounted := by
    rw [← objects_append]
    exact owns.accounted
  once := by
    have sub := (objects_sublist (ledger.mapTask ++ ledger.removing)).append_right ledger.removed
    exact owns.accounted.nodup_iff.mpr (owns.distinct.sublist sub)

/-! ### Commands -/

variable {record : TaskRecord}

section

variable (owns : Owns build ledger) (mem : record ∈ ledger.mapTask)
include owns mem

/-- A record of the map, and all others. -/
theorem perm_others : ledger.mapTask.Perm
    (ledger.mapTask.filter (·.info.channelId ≠ record.info.channelId) ++ [record]) :=
  Registry.perm_others owns.channels mem

/-- A record of the map is changed, and may get its object. -/
theorem put {info : TaskInformation} (created : List Nat) (channel : info.channelId = record.info.channelId)
    (running : info.taskStop = false ∧ info.hasInitial = info.taskClass.isSome)
    (held : info.taskFree = false ∧
      (info.taskClass.isSome = true → (instanceClass build info.taskType).isSome = true))
    (accounted : created.Perm
      (objects (ledger.mapTask.filter (·.info.channelId ≠ record.info.channelId) ++
        [⟨record.number, info⟩] ++ ledger.removing) ++ ledger.removed)) :
    Owns build { ledger.put ⟨record.number, info⟩ with created := created } := by
  have others := owns.perm_others mem
  have inMap : ∀ other ∈ (ledger.put ⟨record.number, info⟩).mapTask,
      other ∈ ledger.mapTask ∨ other = ⟨record.number, info⟩ := by
    intro other inside
    rcases mem_append.mp inside with old | new
    · exact .inl (mem_of_mem_filter old)
    · exact .inr (mem_singleton.mp new)
  have numbers : ((ledger.put ⟨record.number, info⟩).mapTask ++ ledger.removing).map
      number |>.Perm ((ledger.mapTask ++ ledger.removing).map number) := by
    have same := (others.append_right ledger.removing).map number
    refine List.Perm.trans (.of_eq ?_) same.symm
    simp [Ledger.put, channel]
  refine ⟨owns.objectFirst, owns.notReplaced, ?_, ?_, ?_, ?_, ?_, ?_⟩
  · rw [← channel] at accounted
    exact accounted
  · have same := others.map (·.info.channelId)
    refine (List.Perm.nodup_iff ?_).mp owns.channels
    refine same.trans (.of_eq ?_)
    simp [Ledger.put, channel]
  · intro other inside
    rcases inMap other inside with old | rfl
    · exact owns.running _ old
    · exact running
  · obtain ⟨map, waiting⟩ := forall_mem_append.mp owns.held
    refine forall_mem_append.mpr ⟨fun other here => ?_, waiting⟩
    rcases inMap other here with old | rfl
    · exact map _ old
    · exact held
  · exact (numbers.append_right ledger.removed).nodup_iff.mpr owns.distinct
  · intro number inside
    exact owns.numbered _ ((numbers.append_right ledger.removed).mem_iff.mp inside)

theorem redirectToTask (answer : Answer) (command : UInt16) :
    Owns build (ledger.redirectToTask build answer record command) := by
  have others := objects_perm ((owns.perm_others mem).append_right ledger.removing)
  have running := owns.running _ mem
  have held := owns.held _ (mem_append_left _ mem)
  rw [Ledger.redirectToTask]
  cases family : taskFamily build command with
  | none => exact owns
  | some wanted =>
    dsimp only
    split
    · exact owns
    case isFalse initial =>
      have noObject : record.info.taskClass.isSome = false := by
        rw [← running.2]
        exact Bool.eq_false_iff.mpr initial
      -- without an object, the record does not count
      have accounted := owns.accounted.trans (others.append_right ledger.removed)
      have none_yet : objects [record] = [] := by simp [objects, noObject]
      simp only [objects_append, none_yet, append_nil] at accounted
      cases memory : answer.newTask
      · simp only [construct, memory, Bool.false_eq_true, if_false]
        refine owns.put mem ledger.created rfl running ⟨held.1, ?_⟩ ?_
        · intro object
          rw [noObject] at object
          cases object
        · have still : objects [⟨record.number, { record.info with taskType := wanted }⟩] = [] := by
            simp [objects, noObject]
          simpa only [objects_append, still, append_nil] using accounted
      · simp only [construct, memory, if_true]
        refine owns.put mem _ rfl ⟨running.1, rfl⟩ ⟨held.1, fun _ => ?_⟩ ?_
        · exact instanceClass_of_taskFamily family
        · have more := accounted.append_right [record.number]
          rw [append_assoc, append_assoc] at more
          refine more.trans ?_
          rw [objects_append, objects_append, append_assoc, append_assoc]
          refine List.Perm.append_left _ ?_
          rw [← append_assoc]
          exact perm_append_comm

end

variable {channelId : UInt32}

/-- A channel without a task gets one. -/
theorem add (owns : Owns build ledger) {masterTask : Bool}
    (absent : ledger.query channelId = none) :
    Owns build (ledger.add ⟨ledger.next, new channelId masterTask⟩) := by
  have others : ∀ record ∈ ledger.mapTask, record.info.channelId ≠ channelId := by
    intro record inside
    simpa using find?_eq_none.mp absent record inside
  have kept : ledger.mapTask.filter (·.info.channelId ≠ channelId) = ledger.mapTask := by
    simpa using others
  have map : (ledger.add ⟨ledger.next, new channelId masterTask⟩).mapTask =
      ledger.mapTask ++ [⟨ledger.next, new channelId masterTask⟩] := by
    exact congrArg (· ++ [(⟨ledger.next, new _ _⟩ : TaskRecord)]) kept
  have numbers : (((ledger.mapTask ++
      [(⟨ledger.next, new channelId masterTask⟩ : TaskRecord)]) ++ ledger.removing).map number ++ ledger.removed).Perm
        (ledger.next ::
          ((ledger.mapTask ++ ledger.removing).map number ++ ledger.removed)) := by
    simp only [map_append, append_assoc]
    exact perm_middle
  constructor
  · exact owns.objectFirst
  · change ledger.replaced ++ (ledger.query channelId).toList = []
    rw [absent, owns.notReplaced]
    rfl
  · rw [map]
    change ledger.created.Perm (objects (_ ++ ledger.removing) ++ ledger.removed)
    have same := owns.accounted
    simpa [objects, new] using same
  · rw [map, map_append, map_singleton, ← concat_eq_append]
    apply owns.channels.concat
    intro inside
    obtain ⟨record, mem, same⟩ := mem_map.mp inside
    exact others _ mem same
  · rw [map]
    exact forall_mem_append.mpr ⟨owns.running, forall_mem_singleton.mpr ⟨rfl, rfl⟩⟩
  · obtain ⟨old, waiting⟩ := forall_mem_append.mp owns.held
    rw [map]
    refine forall_mem_append.mpr ⟨forall_mem_append.mpr ⟨old, ?_⟩, waiting⟩
    exact forall_mem_singleton.mpr ⟨rfl, fun held => by cases held⟩
  · rw [map]
    refine numbers.nodup_iff.mpr (nodup_cons.mpr ⟨fun inside => ?_, owns.distinct⟩)
    exact Nat.lt_irrefl _ (owns.numbered _ inside)
  · intro number inside
    rw [map] at inside
    rcases mem_cons.mp (numbers.mem_iff.mp inside) with rfl | old
    · exact Nat.lt_succ_self _
    · exact Nat.lt_succ_of_lt (owns.numbered _ old)

theorem frame (owns : Owns build ledger) {command : UInt16} {answer : Answer}
    (orderly : Orderly build ledger (.frame channelId command answer)) :
    Owns build (ledger.dispatchTaskData build answer channelId command) := by
  cases new : (needNewTaskInfo build command).1 with
  | true =>
    cases memory : answer.newTaskInfo with
    | false =>
      rw [ledger.dispatchTaskData_none new memory]
      exact owns
    | true =>
      rw [ledger.dispatchTaskData_new new memory]
      refine (owns.add (orderly new memory)).redirectToTask ?_ _ _
      exact mem_append_right _ (mem_singleton_self _)
  | false =>
    rw [ledger.dispatchTaskData_old new]
    cases found : ledger.query channelId with
    | none => exact owns
    | some record =>
      dsimp only
      split
      · exact owns
      · exact owns.redirectToTask (mem_of_find?_eq_some found) _ _

/-! ### The end of tasks -/

/-- A task that runs waits for its timer, if it gets one. -/
theorem beginRemoveTask_eq (owns : Owns build ledger) (timer : UInt32 → Bool)
    (mem : record ∈ ledger.mapTask) :
    beginRemoveTask timer record =
      if timer record.info.channelId then some ⟨record.number, { record.info with taskStop := true }⟩
      else none := by
  have runs : (record.info.taskStop || record.info.taskFree) = false := by
    rw [(owns.running record mem).1, (owns.held record (mem_append_left _ mem)).1]
    rfl
  rw [beginRemoveTask, Tasks.beginRemoveTask, runs]
  cases timer record.info.channelId <;> rfl

variable {timer : UInt32 → Bool}

/-- No object is lost when those that have one get a timer. -/
theorem objects_beginRemoveTask (owns : Owns build ledger)
    {records : List TaskRecord} (sub : ∀ record ∈ records, record ∈ ledger.mapTask)
    (timers : ∀ record ∈ records, record.info.taskClass.isSome = true →
    timer record.info.channelId = true) :
    objects (records.filterMap (beginRemoveTask timer)) = objects records := by
  induction records with
  | nil => rfl
  | cons record records ih =>
    have rest := ih (fun other inside => sub _ (mem_cons_of_mem _ inside))
      fun other inside => timers _ (mem_cons_of_mem _ inside)
    have first := owns.beginRemoveTask_eq timer (sub record mem_cons_self)
    have timed := timers _ mem_cons_self
    cases here : timer record.info.channelId with
    | true =>
      rw [here] at first
      rw [filterMap_cons_some first, objects_cons, objects_cons record]
      congr 1
      simp only [objects, filter_cons]
      cases record.info.taskClass.isSome <;> rfl
    | false =>
      rw [here] at first
      have noObject : record.info.taskClass.isSome = false := by
        rw [here] at timed
        exact Bool.eq_false_iff.mpr fun object => Bool.false_ne_true (timed object)
      rw [filterMap_cons_none first, rest]
      simp [objects, noObject]

theorem numbers_beginRemoveTask (timer : UInt32 → Bool) (records : List TaskRecord) :
    ((records.filterMap (beginRemoveTask timer)).map number).Sublist
    (records.map number) := by
  induction records with
  | nil => exact .slnil
  | cons record records ih =>
    cases begun : beginRemoveTask timer record with
    | none =>
      rw [filterMap_cons_none begun]
      exact ih.cons _
    | some waiting =>
      have same : waiting.number = record.number := by
        rw [beginRemoveTask, Option.map_eq_some_iff] at begun
        obtain ⟨_, -, rfl⟩ := begun
        rfl
      rw [filterMap_cons_some begun, map_cons, same]
      exact ih.cons_cons _

theorem clear (owns : Owns build ledger) {channelIDInput : UInt32}
    (orderly : Orderly build ledger (.clear channelIDInput timer)) :
    Owns build (ledger.clearOwnTasks timer channelIDInput) := by
  rw [Ledger.clearOwnTasks]
  generalize hTaken : ledger.mapTask.filter (cleared channelIDInput) = taken
  have sub : ∀ record ∈ taken, record ∈ ledger.mapTask := fun record inside =>
    mem_of_mem_filter (hTaken ▸ inside)
  have timers : ∀ record ∈ taken, record.info.taskClass.isSome = true →
      timer record.info.channelId = true := by
    intro record inside
    rw [← hTaken, mem_filter] at inside
    exact orderly _ inside.1 inside.2
  have waits : ∀ record ∈ taken.filterMap (beginRemoveTask timer), ∃ old ∈ ledger.mapTask,
      record = ⟨old.number, { old.info with taskStop := true }⟩ := by
    intro record inside
    obtain ⟨old, mem, begun⟩ := mem_filterMap.mp inside
    rw [owns.beginRemoveTask_eq timer (sub old mem)] at begun
    split at begun <;> cases begun
    exact ⟨old, sub old mem, rfl⟩
  -- the records that are kept and those that are taken are all that there were
  have parts : (ledger.mapTask.filter (!cleared channelIDInput ·) ++ (ledger.removing ++ taken)).Perm
      (ledger.mapTask ++ ledger.removing) := by
    rw [← append_assoc]
    refine perm_append_comm.trans ?_
    rw [← append_assoc, ← hTaken]
    exact (filter_append_perm _ _).append_right _
  have numbers := numbers_beginRemoveTask timer taken
  have fewer : ((ledger.mapTask.filter (!cleared channelIDInput ·) ++
      (ledger.removing ++ taken.filterMap (beginRemoveTask timer))).map number ++
        ledger.removed).Sublist
      ((ledger.mapTask.filter (!cleared channelIDInput ·) ++ (ledger.removing ++ taken)).map
        number ++ ledger.removed) := by
    simp only [map_append]
    exact (((numbers.append_left _).append_left _).append_right _)
  have whole := (parts.map number).append_right ledger.removed
  constructor
  · exact owns.objectFirst
  · exact owns.notReplaced
  · refine owns.accounted.trans ?_
    refine ((objects_perm parts).symm.append_right _).trans (.of_eq ?_)
    simp only [objects_append, owns.objects_beginRemoveTask sub timers]
  · exact owns.channels.sublist (filter_sublist.map _)
  · exact fun record inside => owns.running _ (mem_of_mem_filter inside)
  · obtain ⟨map, waiting⟩ := forall_mem_append.mp owns.held
    refine forall_mem_append.mpr ⟨fun record kept => map _ (mem_of_mem_filter kept), ?_⟩
    refine forall_mem_append.mpr ⟨waiting, fun record new => ?_⟩
    obtain ⟨old, mem, rfl⟩ := waits record new
    exact map old mem
  · exact (whole.nodup_iff.mpr owns.distinct).sublist fewer
  · exact fun number inside => owns.numbered number (whole.mem_iff.mp (fewer.subset inside))

/-- A record that waits, and all others. -/
theorem perm_waiting {place : Nat} (here : ledger.removing[place]? = some record) :
    ledger.removing.Perm (record :: ledger.removing.eraseIdx place) := by
  obtain ⟨inside, rfl⟩ := List.getElem?_eq_some_iff.mp here
  exact (getElem_cons_eraseIdx_perm inside).symm

section

variable (owns : Owns build ledger)
include owns

/-- The object is not ready. -/
theorem waitOn {place : Nat} (here : ledger.removing[place]? = some record) :
    Owns build { ledger with
      removing := ledger.removing.set place
        ⟨record.number, { record.info with isCleared := true }⟩ } := by
  have numbers : ((ledger.mapTask ++ ledger.removing.set place
      ⟨record.number, { record.info with isCleared := true }⟩).map number ++
        ledger.removed) = (ledger.mapTask ++ ledger.removing).map number ++
          ledger.removed := by
    rw [map_append, numbers_set here, ← map_append]
  refine { owns with accounted := ?_, held := ?_, distinct := ?_, numbered := ?_ }
  · have same : objects (ledger.removing.set place
        ⟨record.number, { record.info with isCleared := true }⟩) = objects ledger.removing :=
      objects_set here rfl
    rw [objects_append, same, ← objects_append]
    exact owns.accounted
  · obtain ⟨map, waiting⟩ := forall_mem_append.mp owns.held
    refine forall_mem_append.mpr ⟨map, fun other mem => ?_⟩
    rcases mem_or_eq_of_mem_set mem with old | rfl
    · exact waiting _ old
    · exact waiting record (mem_of_getElem? here)
  · rw [numbers]
    exact owns.distinct
  · rw [numbers]
    exact owns.numbered

/-- The record is deleted, after its object if it has one. -/
theorem finish {place : Nat} {record : TaskRecord}
    (here : ledger.removing[place]? = some record) {info : TaskInformation}
    (objectFirst : info.taskClass = none) :
    Owns build { ledger with
      removing := ledger.removing.eraseIdx place
      removed := ledger.removed ++ objects [record]
      freed := ledger.freed ++ [⟨record.number, info⟩] } := by
  have old := perm_waiting here
  have fewer : ((ledger.mapTask ++ ledger.removing.eraseIdx place).map number ++
      (ledger.removed ++ objects [record])).Sublist
        ((ledger.mapTask ++ ledger.removing.eraseIdx place).map number ++
          (ledger.removed ++ [record.number])) :=
    ((objects_sublist [record]).append_left _).append_left _
  have whole : ((ledger.mapTask ++ ledger.removing.eraseIdx place).map number ++
      (ledger.removed ++ [record.number])).Perm
        ((ledger.mapTask ++ ledger.removing).map number ++ ledger.removed) := by
    refine List.Perm.trans ?_ (((old.append_left ledger.mapTask).map _).symm.append_right _)
    simp only [map_append, append_assoc]
    refine List.Perm.append_left _ ?_
    rw [← append_assoc]
    exact perm_append_singleton _ _
  obtain ⟨map, waiting⟩ := forall_mem_append.mp owns.held
  refine { owns with
    objectFirst := forall_mem_append.mpr ⟨owns.objectFirst, forall_mem_singleton.mpr objectFirst⟩
    held := forall_mem_append.mpr ⟨map, fun other mem => waiting _ (mem_of_mem_eraseIdx mem)⟩
    accounted := ?_, distinct := ?_, numbered := ?_ }
  · refine owns.accounted.trans ((objects_perm (old.append_left _)).append_right _ |>.trans ?_)
    rw [objects_append, objects_append, objects_cons, append_assoc, append_assoc,
      append_assoc]
    refine List.Perm.append_left _ ?_
    rw [← append_assoc (objects (ledger.removing.eraseIdx place))]
    exact perm_append_comm
  · exact (whole.nodup_iff.mpr owns.distinct).sublist fewer
  · exact fun number mem => owns.numbered number (whole.mem_iff.mp (fewer.subset mem))

theorem retry (ready : Bool) (place : Nat) :
    Owns build (ledger.taskClassDeleteRetry build ready place) := by
  rw [taskClassDeleteRetry]
  cases here : ledger.removing[place]? with
  | none => exact owns
  | some record =>
    have held := owns.held _ (mem_append_right _ (mem_of_getElem? here))
    obtain ⟨_, turn⟩ := retryTask_eq ready held.1 held.2
    dsimp only
    rw [turn]
    cases object : record.info.taskClass with
    | none =>
      have done := @finish _ ledger owns _ _ here
        { record.info with isCleared := true, taskClass := none } rfl
      simpa [objects, object] using done
    | some object =>
      cases ready with
      | true =>
        have done := @finish _ ledger owns _ _ here
          { record.info with isCleared := true, taskClass := none } rfl
        simpa [objects, object] using done
      | false => simpa [object] using owns.waitOn here

/-- Orderly events keep the invariant. -/
theorem step {event : TaskEvent} (orderly : Orderly build ledger event) :
    Owns build (ledger.step build event) := by
  cases event with
  | frame channelId command answer => exact owns.frame orderly
  | clear channelIDInput timer => exact owns.clear orderly
  | retry place ready => exact owns.retry ready _

end

/-! ### Disorder -/

/-- A second task on a channel costs the first one its record. -/
theorem replaced_breaks {command : UInt16} {answer : Answer}
    (new : (needNewTaskInfo build command).1 = true) (memory : answer.newTaskInfo = true)
    {old : TaskRecord} (present : ledger.query channelId = some old) :
    ¬ Owned (ledger.dispatchTaskData build answer channelId command) := by
  intro owned
  have none := owned.notReplaced
  rw [ledger.dispatchTaskData_new new memory] at none
  have same : ∀ (before : Ledger) (record : TaskRecord),
      (before.redirectToTask build answer record command).replaced = before.replaced := by
    intro before record
    rw [Ledger.redirectToTask]
    split
    · rfl
    · split <;> rfl
  rw [same] at none
  have gone : ledger.replaced ++ (ledger.query channelId).toList = [] := none
  rw [present] at gone
  exact append_ne_nil_of_right_ne_nil _ (cons_ne_nil old []) gone

/-- Records with one number are one. -/
theorem eq_of_number (owns : Owns build ledger) {record other : TaskRecord}
    (mem : record ∈ ledger.mapTask ++ ledger.removing)
    (inside : other ∈ ledger.mapTask ++ ledger.removing) (same : other.number = record.number) :
    other = record :=
  inj_on_of_nodup_map (nodup_append.mp owns.distinct).1 inside mem same

theorem mem_objects {records : List TaskRecord} {number : Nat} (mem : number ∈ objects records) :
    ∃ record ∈ records, record.number = number := by
  obtain ⟨record, inside, same⟩ := mem_map.mp mem
  exact ⟨_, mem_of_mem_filter inside, same⟩

/-- A task that leaves the map without a timer leaves its object without an owner. -/
theorem stranded_breaks (owns : Owns build ledger) {channelIDInput : UInt32}
    (mem : record ∈ ledger.mapTask) (taken : cleared channelIDInput record = true)
    (object : record.info.taskClass.isSome = true) (noTimer : timer record.info.channelId = false) :
    ¬ Owned (ledger.clearOwnTasks timer channelIDInput) := by
  intro owned
  have here : record ∈ ledger.mapTask ++ ledger.removing := mem_append_left _ mem
  have built : record.number ∈ ledger.created := by
    refine owns.accounted.mem_iff.mpr (mem_append_left _ ?_)
    exact mem_map_of_mem (mem_filter.mpr ⟨here, object⟩)
  have disjoint := (nodup_append.mp owns.distinct).2.2
  have parts := owned.accounted.mem_iff.mp built
  rw [mem_append, mem_append] at parts
  rcases parts with (kept | waiting) | removed
  · obtain ⟨other, inside, same⟩ := mem_objects kept
    obtain ⟨old, notTaken⟩ := mem_filter.mp inside
    obtain rfl := owns.eq_of_number here (mem_append_left _ old) same
    rw [taken] at notTaken
    cases notTaken
  · rw [clearOwnTasks] at waiting
    obtain ⟨other, inside, same⟩ := mem_objects waiting
    rcases mem_append.mp inside with old | new
    · have numbers := (nodup_append.mp owns.distinct).1
      rw [map_append] at numbers
      exact (nodup_append.mp numbers).2.2 record.number (mem_map_of_mem mem)
        other.number (mem_map_of_mem old) same.symm
    · obtain ⟨old, inTaken, begun⟩ := mem_filterMap.mp new
      have oldMem := mem_of_mem_filter inTaken
      rw [owns.beginRemoveTask_eq timer oldMem] at begun
      split at begun
      case isTrue timed =>
        cases begun
        obtain rfl := owns.eq_of_number here (mem_append_left _ oldMem) same
        rw [noTimer] at timed
        cases timed
      case isFalse => cases begun
  · exact disjoint record.number (mem_map_of_mem here) record.number removed rfl

theorem not_orderly_breaks (owns : Owns build ledger) {event : TaskEvent}
    (disorder : ¬ Orderly build ledger event) : ¬ Owned (ledger.step build event) := by
  cases event with
  | frame channelId command answer =>
    rw [Orderly] at disorder
    push Not at disorder
    obtain ⟨new, memory, present⟩ := disorder
    obtain ⟨_, present⟩ := Option.ne_none_iff_exists'.mp present
    exact replaced_breaks new memory present
  | clear channelIDInput timer =>
    rw [Orderly] at disorder
    push Not at disorder
    obtain ⟨_, mem, taken, object, noTimer⟩ := disorder
    exact owns.stranded_breaks mem taken object (Bool.eq_false_iff.mpr noTimer)
  | retry place ready => exact absurd trivial disorder

/-! ### The end of the session -/

/-- A turn of the timer for an object that is ready is the last one of its record. -/
theorem removing_retry_ready (owns : Owns build ledger) {rest : List TaskRecord}
    (waiting : ledger.removing = record :: rest) :
    (ledger.taskClassDeleteRetry build true 0).removing = rest ∧
    (ledger.taskClassDeleteRetry build true 0).mapTask = ledger.mapTask ∧
    (ledger.taskClassDeleteRetry build true 0).created = ledger.created := by
  have first : ledger.removing[0]? = some record := by rw [waiting]; rfl
  have held := owns.held _ (mem_append_right _ (mem_of_getElem? first))
  obtain ⟨_, turn⟩ := retryTask_eq true held.1 held.2
  rw [taskClassDeleteRetry, first]
  dsimp only
  rw [turn, waiting]
  exact ⟨rfl, rfl, rfl⟩

/-- Turns enough for objects that are ready. -/
theorem retry_all (owns : Owns build ledger) {turns : Nat} (enough : ledger.removing.length = turns) :
    let ended := (List.replicate turns (TaskEvent.retry 0 true)).foldl (Ledger.step build) ledger
    Owns build ended ∧ ended.removing = [] ∧ ended.mapTask = ledger.mapTask ∧
      ended.created = ledger.created := by
  induction turns generalizing ledger with
  | zero => exact ⟨owns, eq_nil_of_length_eq_zero enough, rfl, rfl⟩
  | succ turns ih =>
    obtain ⟨_, _, waiting⟩ := exists_cons_of_length_eq_add_one enough
    obtain ⟨less, map, created⟩ := owns.removing_retry_ready waiting
    have next := owns.retry true 0
    have count : (ledger.taskClassDeleteRetry build true 0).removing.length = turns := by
      rw [less]
      rw [waiting, length_cons] at enough
      omega
    obtain ⟨still, none, sameMap, sameCreated⟩ := ih next count
    exact ⟨still, none, sameMap.trans map, sameCreated.trans created⟩

end Owns

/-- What ends a session: all tasks are taken out of the map, and the timer has a turn for each
one when its object is ready. -/
def closing (ledger : Ledger) : List TaskEvent :=
  .clear 0 (fun _ => true) ::
    List.replicate (ledger.clearOwnTasks (fun _ => true) 0).removing.length (.retry 0 true)

/-- Along every run, every record is deleted after its object and every object has an owner until
its one removal, if and only if all events are orderly; and then the end of the session removes
every object that was built, each once. -/
theorem ownership_exact (build : Build) (events : List TaskEvent) :
    ((∀ k, Owned ((events.take k).foldl (Ledger.step build) .empty)) ↔
      ExactRuns.AllFine (Ledger.step build) (Orderly build) .empty events) ∧
    (ExactRuns.AllFine (Ledger.step build) (Orderly build) .empty events →
      let ledger := events.foldl (Ledger.step build) .empty
      let ended := (closing ledger).foldl (Ledger.step build) ledger
      ended.removed.Perm ledger.created ∧ ended.removed.Nodup) := by
  refine ⟨ExactRuns.holds_iff (Owns _) (Owns.empty _) (fun owns orderly => owns.step orderly)
    (fun owns disorder => owns.not_orderly_breaks disorder) Owns.owned, ?_⟩
  intro orderly
  have owns : Owns build (events.foldl (Ledger.step build) .empty) :=
    ExactRuns.inv_foldl (Owns build) (Owns.empty build) (fun owns orderly => owns.step orderly)
      orderly
  generalize events.foldl (Ledger.step build) .empty = ledger at owns
  have cleared : Owns build (ledger.clearOwnTasks (fun _ => true) 0) :=
    owns.clear fun record mem taken object => rfl
  obtain ⟨ended, none, map, created⟩ := cleared.retry_all rfl
  have empty : (ledger.clearOwnTasks (fun _ => true) 0).mapTask = [] := by
    rw [Ledger.clearOwnTasks, filter_eq_nil_iff]
    simp [Ledger.cleared, toClear]
  have accounted := ended.accounted
  rw [none, map, empty] at accounted
  have all : (((closing ledger).foldl (Ledger.step build) ledger).removed).Perm ledger.created :=
    accounted.symm.trans (.of_eq created)
  refine ⟨all, all.nodup_iff.mpr owns.owned.once⟩

/-- Two commands in a row that start a file transfer on channel 7: the record of the first task is
deleted with its object alive, and no end of the session removes that object. -/
theorem secondTask_losesFirst :
    let start : TaskEvent := .frame 7 HdcCommand.fileInit.code ⟨true, true, true⟩
    let ledger := [start, start].foldl (Ledger.step .daemon) .empty
    let ended := (closing ledger).foldl (Ledger.step .daemon) ledger
    ledger.replaced.map (fun record => (record.number, record.info.taskClass)) = [(0, some .file)] ∧
      ledger.created = [0, 1] ∧ ended.mapTask = [] ∧ ended.removing = [] ∧ ended.removed = [1] := by
  decide

end Hdc.Session
