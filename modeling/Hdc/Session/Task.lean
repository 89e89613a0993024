import Hdc.Session.Stream

/-!
Tasks: from a frame to the object that handles it (`session.h`, `session.cpp`, and the
`RedirectToTask` and `RemoveInstanceTask` of `daemon.cpp` and `server.cpp`).

A session keeps one task for a channel. A command that starts something makes a new one; every other
command is handed to the task that is there. The object behind a task is built by the first command
that reaches it, as the class of that command's family, and later commands cast it to the class of
their own.

The state records every cast, with the class asked for and the class of the object: `delivered` for
commands, `released` for the end of a task.
-/

namespace Hdc.Session

open HdcCommand

/-! ### Data -/

/-- `TaskType`. It also names the class of the object: `HdcDaemonUnity` or
`HdcHostUnity`, `HdcShell`, `HdcFile`, and so on. -/
inductive TaskType where
  | unity
  | shell
  | file
  | forward
  | app
  | flashd
deriving DecidableEq, Repr

/-- `TaskInformation`. `taskClass` is what the object behind the pointer was built
as. -/
structure TaskInformation where
  taskType : TaskType
  channelId : UInt32
  hasInitial : Bool
  taskStop : Bool
  taskFree : Bool
  masterSlave : Bool
  taskClass : Option TaskType
  isCleared : Bool
deriving DecidableEq, Repr

/-- A new `TaskInformation`. -/
def TaskInformation.new (channelId : UInt32) (masterTask : Bool) : TaskInformation :=
  ⟨.unity, channelId, false, false, false, masterTask, none, false⟩

/-- The tasks that `ClearOwnTasks` is about: those of one channel, or all of them for 0. -/
def TaskInformation.toClear (channelIDInput : UInt32) (task : TaskInformation) : Bool :=
  channelIDInput = 0 || task.channelId = channelIDInput

/-- A command handed to an object: the class of the cast, and that of the object. -/
structure Delivery where
  channelId : UInt32
  command : UInt16
  wanted : TaskType
  object : TaskType
deriving DecidableEq, Repr

/-- The class that an object is stopped and deleted as: the one of a task type, or
`HdcTransferBase`, which `HdcFile` is derived from. -/
inductive InstanceClass where
  | own (taskType : TaskType)
  | transferBase
deriving DecidableEq, Repr

/-- An object stopped or deleted. -/
structure Release where
  channelId : UInt32
  wanted : InstanceClass
  object : TaskType
deriving DecidableEq, Repr

/-- The class of the cast is that of the object, or its base. -/
def Release.fits (release : Release) : Bool :=
  release.wanted = .own release.object || release.object = .file && release.wanted = .transferBase

/-- The tasks of a session: those that frames can reach, and those that wait for
their end. `made` are the channels that got a task. -/
structure Tasks where
  mapTask : List TaskInformation
  removing : List TaskInformation
  made : List UInt32
  sent : List (UInt32 × UInt16 × Bytes)
  delivered : List Delivery
  released : List Release
deriving DecidableEq, Repr

/-- A session without tasks. -/
def Tasks.empty : Tasks := ⟨[], [], [], [], [], []⟩

/-- What is outside, while a frame is handled: memory for a `TaskInformation` and
for the object, and whether the object takes the command. -/
structure Answer where
  newTaskInfo : Bool
  newTask : Bool
  commandDispatch : Bool
deriving DecidableEq, Repr

/-- The first command of a task: it gives the type, and builds the object if there is memory. -/
def TaskInformation.construct (task : TaskInformation) (answer : Answer) (wanted : TaskType) :
    TaskInformation :=
  if answer.newTask then
    { task with taskType := wanted, hasInitial := true, taskClass := some wanted }
  else { task with taskType := wanted }

theorem TaskInformation.channelId_construct (task : TaskInformation) (answer : Answer)
    (wanted : TaskType) : (task.construct answer wanted).channelId = task.channelId := by
  unfold construct
  split <;> rfl

/-! ### Which commands make a task, and whose they are -/

/-- The commands that start a task on the side that gets them. -/
def taskMasterInit (command : UInt16) : Bool :=
  match ofCode command with
  | some .fileInit | some .flashdFlashInit | some .flashdUpdateInit | some .flashdErase
  | some .flashdFormat | some .forwardInit | some .appInit | some .appUninstall
  | some .appSideload => true
  | _ => false

/-- `NeedNewTaskInfo`: whether a new task is made, and whether it is the master. -/
def needNewTaskInfo (build : Build) (command : UInt16) : Bool × Bool :=
  if build = .daemon ∧
      (command = shellInit.code ∨ command = unityExecuteEx.code ∨
        (unityCommandHead.code < command ∧
          command < unityCommandTail.code)) then
    (true, false)
  else if command = kernelWakeupSlavetask.code then (true, false)
  else if command = unityBugreportInit.code then (true, false)
  else if taskMasterInit command then (true, true)
  else (false, false)

/-- The switch of `RedirectToTask`. -/
def taskFamily (build : Build) (command : UInt16) : Option TaskType :=
  match build with
  | .daemon =>
    match ofCode command with
    | some .unityExecute | some .unityRemount | some .unityReboot | some .unityRunmode
    | some .unityHilog | some .unityRootrun | some .unityBugreportInit | some .jdwpList
    | some .jdwpTrack | some .unityExecuteEx => some .unity
    | some .shellInit | some .shellData => some .shell
    | some .fileCheck | some .fileData | some .fileFinish | some .fileInit | some .fileBegin
    | some .fileMode | some .dirMode => some .file
    | some .appCheck | some .appData | some .appUninstall => some .app
    | some .forwardInit | some .forwardCheck | some .forwardActiveMaster
    | some .forwardActiveSlave | some .forwardData | some .forwardFreeContext
    | some .forwardCheckResult => some .forward
    | _ => none
  | .host =>
    match ofCode command with
    | some .unityBugreportInit | some .unityBugreportData => some .unity
    | some .fileInit | some .fileBegin | some .fileCheck | some .fileData | some .fileFinish
    | some .fileMode | some .dirMode => some .file
    | some .forwardInit | some .forwardCheck | some .forwardCheckResult
    | some .forwardActiveMaster | some .forwardActiveSlave | some .forwardData
    | some .forwardFreeContext => some .forward
    | some .appInit | some .appSideload | some .appBegin | some .appFinish
    | some .appUninstall => some .app
    | some .flashdUpdateInit | some .flashdFlashInit | some .flashdCheck | some .flashdBegin
    | some .flashdData | some .flashdFinish | some .flashdErase | some .flashdFormat
    | some .flashdProgress => some .flashd
    | _ => none

/-- The switch of `RemoveInstanceTask`. -/
def instanceClass : Build → TaskType → Option InstanceClass
  | .daemon, .flashd => none
  | .daemon, .file => some .transferBase
  | .host, .shell => none
  | _, taskType => some (.own taskType)

/-! ### Dispatch -/

namespace Tasks

/-- `AdminTask` with `OP_QUERY`. -/
def query (tasks : Tasks) (channelId : UInt32) : Option TaskInformation :=
  tasks.mapTask.find? (·.channelId = channelId)

/-- The entry of a channel is replaced. -/
def put (tasks : Tasks) (task : TaskInformation) : Tasks :=
  { tasks with mapTask := tasks.mapTask.filter (·.channelId ≠ task.channelId) ++ [task] }

/-- `AdminTask` with `OP_ADD`. An entry that was there is deleted, its object is
not. -/
def add (tasks : Tasks) (task : TaskInformation) : Tasks :=
  { tasks.put task with made := tasks.made ++ [task.channelId] }

def send (tasks : Tasks) (channelId : UInt32) (command : UInt16) (payload : Bytes) : Tasks :=
  { tasks with sent := tasks.sent ++ [(channelId, command, payload)] }

/-- `CommandDispatch` of the object, after the cast, and `TaskFinish` when it says
no. -/
def deliver (tasks : Tasks) (answer : Answer) (channelId : UInt32) (command : UInt16)
    (wanted object : TaskType) : Tasks :=
  let tasks := { tasks with delivered := tasks.delivered ++ [⟨channelId, command, wanted, object⟩] }
  if answer.commandDispatch then tasks
  else tasks.send channelId kernelChannelClose.code [1]

/-- `TaskCommandDispatch`. The object of a master task wakes up its peer when it is
built. -/
def taskCommandDispatch (tasks : Tasks) (answer : Answer) (task : TaskInformation)
    (wanted : TaskType) (command : UInt16) : Bool × Tasks :=
  if !task.hasInitial then
    let tasks := tasks.put (task.construct answer wanted)
    if !answer.newTask then (false, tasks)
    else
      let tasks :=
        if task.masterSlave then
          tasks.send task.channelId kernelWakeupSlavetask.code []
        else tasks
      (true, tasks.deliver answer task.channelId command wanted wanted)
  else
    match task.taskClass with
    | none => (true, tasks)
    | some object => (true, tasks.deliver answer task.channelId command wanted object)

/-- `RedirectToTask`. -/
def redirectToTask (build : Build) (tasks : Tasks) (answer : Answer) (task : TaskInformation)
    (command : UInt16) : Bool × Tasks :=
  match taskFamily build command with
  | none => (true, tasks)
  | some wanted => tasks.taskCommandDispatch answer task wanted command

/-- `DispatchTaskData`. -/
def dispatchTaskData (build : Build) (tasks : Tasks) (answer : Answer) (channelId : UInt32)
    (command : UInt16) : Bool × Tasks :=
  let (tasks, hTaskInfo) :=
    if (needNewTaskInfo build command).1 then
      if answer.newTaskInfo then
        let task := TaskInformation.new channelId (needNewTaskInfo build command).2
        (tasks.add task, some task)
      else (tasks, none)
    else (tasks, tasks.query channelId)
  match hTaskInfo with
  | none => (true, tasks)
  | some task =>
    if task.taskStop || task.taskFree then (true, tasks)
    else tasks.redirectToTask build answer task command

section Dispatch

variable {build : Build} {answer : Answer} {channelId : UInt32} {command : UInt16}

theorem dispatchTaskData_new (tasks : Tasks) (new : (needNewTaskInfo build command).1 = true)
    (memory : answer.newTaskInfo = true) :
    tasks.dispatchTaskData build answer channelId command =
      let task := TaskInformation.new channelId (needNewTaskInfo build command).2
      (tasks.add task).redirectToTask build answer task command := by
  simp [dispatchTaskData, new, memory, TaskInformation.new]

theorem dispatchTaskData_old (tasks : Tasks) (old : (needNewTaskInfo build command).1 = false) :
    tasks.dispatchTaskData build answer channelId command =
      match tasks.query channelId with
      | none => (true, tasks)
      | some task =>
        if task.taskStop || task.taskFree then (true, tasks)
        else tasks.redirectToTask build answer task command := by
  simp [dispatchTaskData, old]

end Dispatch

/-! ### The end of a task -/

/-- `BeginRemoveTask`: the task, if it waits for its end now. -/
def beginRemoveTask (timer : Bool) (task : TaskInformation) : Option TaskInformation :=
  if task.taskStop || task.taskFree then none
  else if !timer then none
  else some { task with taskStop := true }

/-- `ClearOwnTasks`. -/
def clearOwnTasks (tasks : Tasks) (timer : UInt32 → Bool) (channelIDInput : UInt32) : Tasks :=
  { tasks with
    mapTask := tasks.mapTask.filter (!·.toClear channelIDInput)
    removing := tasks.removing ++ (tasks.mapTask.filter (·.toClear channelIDInput)).filterMap
      fun task => beginRemoveTask (timer task.channelId) task }

/-- `RemoveInstanceTask` with `OP_CLEAR` (`release` unset) and with `OP_REMOVE`, which
deletes an object that is ready: the result, the task, and the casts. -/
def removeInstanceTask (build : Build) (release ready : Bool) (task : TaskInformation) :
    Bool × TaskInformation × List Release :=
  match task.taskClass with
  | none => (true, task, [])
  | some object =>
    match instanceClass build task.taskType with
    | none => (build = .host, task, [])
    | some wanted =>
      let casts := [⟨task.channelId, wanted, object⟩]
      if !release then (true, task, casts)
      else if !ready then (false, task, casts)
      else (true, { task with taskClass := none }, casts)

/-- A turn of the timer for a task: whether it is done with, what is left of it, and the casts. -/
def retryTask (build : Build) (ready : Bool) (task : TaskInformation) :
    Bool × TaskInformation × List Release :=
  let (task, stopped) :=
    if task.isCleared then (task, [])
    else (removeInstanceTask build false ready { task with isCleared := true }).2
  -- `TryRemoveTask`
  let (ret, task, deleted) :=
    if task.taskFree then (true, task, [])
    else removeInstanceTask build true ready task
  (ret, task, stopped ++ deleted)

/-- `TaskClassDeleteRetry` for the task at a place of `removing`. -/
def taskClassDeleteRetry (build : Build) (tasks : Tasks) (ready : Bool) (place : Nat) : Tasks :=
  match tasks.removing[place]? with
  | none => tasks
  | some task =>
    let (ret, task, casts) := retryTask build ready task
    { tasks with
      removing :=
        if ret then tasks.removing.eraseIdx place else tasks.removing.set place task
      released := tasks.released ++ casts }

end Tasks

/-! ### Runs -/

/-- What can happen to the tasks of a session. -/
inductive TaskEvent where
  | frame (channelId : UInt32) (command : UInt16) (answer : Answer)
  | clear (channelId : UInt32) (timer : UInt32 → Bool)
  | retry (place : Nat) (ready : Bool)

def Tasks.step (build : Build) (tasks : Tasks) : TaskEvent → Tasks
  | .frame channelId command answer => (tasks.dispatchTaskData build answer channelId command).2
  | .clear channelId timer => tasks.clearOwnTasks timer channelId
  | .retry place ready => tasks.taskClassDeleteRetry build ready place

/-- The tasks after a run. -/
def Tasks.run (build : Build) (events : List TaskEvent) : Tasks :=
  events.foldl (Tasks.step build) .empty

end Hdc.Session
