import Hdc.Host.Server
import Hdc.Session.TaskRuns

/-!
What a device's frame can do on the host.

Four switches decide together: the gate, the dispatcher of channel commands, the
list of commands that make a task, and the list of commands that a task takes.
They are composed here for every frame and every state.

* `host_work_iff`: which frames start work on the host;
* `isolation_iff`: which frames reach a channel of another device.
-/

namespace Hdc.Host

open Session List HdcCommand HdcServer

/-! ### What a frame does to the tasks of a session -/

/-- A task is made for the frame, or it is handed to the one that is there. -/
def reaches (tasks : Tasks) (answer : Answer) (channelId : UInt32) (command : UInt16) : Bool :=
  if (needNewTaskInfo .host command).1 then answer.newTaskInfo
  else
    match tasks.query channelId with
    | none => false
    | some task =>
      !(task.taskStop || task.taskFree) && (taskFamily .host command).isSome &&
        (if task.hasInitial then task.taskClass.isSome else answer.newTask)

/-- What was recorded about the tasks of a session since: only about one channel and
one command. -/
structure Recorded (tasks after : Tasks) (channelId : UInt32) (command : UInt16)
    (made : List UInt32) (delivered : List Delivery) : Prop where
  made_eq : after.made = tasks.made ++ made
  delivered_eq : after.delivered = tasks.delivered ++ delivered
  made_channel : ∀ channel ∈ made, channel = channelId
  delivered_channel : ∀ d ∈ delivered, d.channelId = channelId ∧ d.command = command

variable (tasks : Tasks)

theorem Recorded.nothing (channelId : UInt32) (command : UInt16) :
    Recorded tasks tasks channelId command [] [] :=
  ⟨(append_nil _).symm, (append_nil _).symm, by simp, by simp⟩

/-- The deliveries of a command that comes to a task. -/
def deliveries (answer : Answer) (task : TaskInformation) (command : UInt16) : List Delivery :=
  match taskFamily .host command with
  | none => []
  | some wanted =>
    if task.hasInitial then
      (task.taskClass.map fun object => ⟨task.channelId, command, wanted, object⟩).toList
    else if answer.newTask then [⟨task.channelId, command, wanted, wanted⟩]
    else []

theorem deliver_records (answer : Answer) (channelId : UInt32) (command : UInt16)
    (wanted object : TaskType) :
    (tasks.deliver answer channelId command wanted object).made = tasks.made ∧
    (tasks.deliver answer channelId command wanted object).delivered =
    tasks.delivered ++ [⟨channelId, command, wanted, object⟩] := by
  unfold Tasks.deliver
  split <;> exact ⟨rfl, rfl⟩

theorem redirectToTask_records (answer : Answer) (task : TaskInformation) (command : UInt16) :
    Recorded tasks (tasks.redirectToTask .host answer task command).2 task.channelId command []
    (deliveries answer task command) := by
  unfold Tasks.redirectToTask deliveries Tasks.taskCommandDispatch
  cases taskFamily .host command with
  | none => exact .nothing _ _ _
  | some wanted =>
    cases task.hasInitial with
    | true =>
      cases task.taskClass with
      | none => exact .nothing _ _ _
      | some object =>
        obtain ⟨made, delivered⟩ := deliver_records tasks answer task.channelId command wanted object
        exact ⟨made.trans (append_nil _).symm, delivered, by simp, by simp⟩
    | false =>
      simp only [Bool.not_false]
      cases answer.newTask with
      | false => exact ⟨(append_nil _).symm, (append_nil _).symm, by simp, by simp⟩
      | true =>
        simp only [Bool.not_true, Bool.false_eq_true, if_false, if_true]
        split
        all_goals
          obtain ⟨made, delivered⟩ := deliver_records _ answer task.channelId command wanted wanted
          exact ⟨made.trans (append_nil _).symm, delivered, by simp, by simp⟩

/-- What `DispatchTaskData` records. -/
theorem dispatchTaskData_records (answer : Answer) (channelId : UInt32)
    (command : UInt16) : ∃ made delivered,
      Recorded tasks (tasks.dispatchTaskData .host answer channelId command).2 channelId command made
        delivered ∧
      ((made = [] ∧ delivered = []) ↔ reaches tasks answer channelId command = false) ∧
      ((needNewTaskInfo .host command).1 = true → delivered =
        if answer.newTaskInfo && answer.newTask then
          ((taskFamily .host command).map fun wanted => ⟨channelId, command, wanted, wanted⟩).toList
        else []) := by
  unfold Tasks.dispatchTaskData reaches
  cases new : (needNewTaskInfo .host command).1 with
  | true =>
    cases room : answer.newTaskInfo with
    | false => exact ⟨[], [], .nothing _ _ _, by simp, by simp⟩
    | true =>
      obtain ⟨made, delivered, _, delivered_channel⟩ := redirectToTask_records
        (tasks.add (.new channelId (needNewTaskInfo .host command).2)) answer
        (.new channelId (needNewTaskInfo .host command).2) command
      refine ⟨[channelId], _, ⟨?_, delivered, by simp, delivered_channel⟩, by simp, fun _ => ?_⟩
      · exact made.trans (append_nil _)
      · unfold deliveries
        cases taskFamily .host command with
        | none => simp
        | some wanted =>
          simp only [TaskInformation.new, Bool.false_eq_true, if_false, Option.map_some,
            Option.toList_some, Bool.true_and]
  | false =>
    simp only [Bool.false_eq_true, if_false]
    cases found : tasks.query channelId with
    | none => exact ⟨[], [], .nothing _ _ _, by simp, by simp⟩
    | some task =>
      obtain rfl := Tasks.query_channelId found
      dsimp only
      cases stopped : (task.taskStop || task.taskFree) with
      | true => exact ⟨[], [], .nothing _ _ _, by simp, by simp⟩
      | false =>
        refine ⟨[], _, redirectToTask_records _ _ _ command, ?_, by simp⟩
        unfold deliveries
        cases taskFamily .host command with
        | none => simp
        | some wanted =>
          cases task.hasInitial with
          | true => cases task.taskClass <;> simp
          | false => cases answer.newTask <;> simp

/-! ### Past the gate -/

/-- The frame gets to `DispatchChannelCommand`. -/
structure Handed (server : HdcServer) (sessionId : UInt32) (session : HSession) (channelId : UInt32)
    (channel : HChannel) (command : UInt16) (payload : Bytes) : Prop where
  hasSession : server.mapSession sessionId = some session
  handshake : command ≠ HdcCommand.kernelHandshake.code
  heartbeat : command ≠ HdcCommand.heartbeatMsg.code
  hasChannel : server.mapChannel channelId = some channel
  alive : channel.isDead = false
  permitted : server.checkHostCommandPermission channelId channel sessionId command payload = true

variable {channel : HChannel} {command : UInt16} {server : HdcServer} {session : HSession}

theorem Handed.fetchCommand_eq {sessionId : UInt32} {channelId : UInt32} {payload : Bytes}
    (handed : Handed server sessionId session channelId channel command payload) (out : Outside) :
    server.fetchCommand out sessionId channelId command payload =
    server.dispatchChannelCommand out sessionId session channelId channel command payload := by
  obtain ⟨hasSession, handshake, heartbeat, hasChannel, alive, permitted⟩ := handed
  simp only [fetchCommand, hasSession, hasChannel, alive, permitted, Bool.not_true,
    Bool.false_eq_true, if_false, if_neg handshake, if_neg heartbeat]

/-- Every other frame changes at most what is sent to the device. -/
theorem fetchCommand_cases (server : HdcServer) (out : Outside) (sessionId channelId : UInt32)
    (command : UInt16) (payload : Bytes) :
    (∃ session channel, Handed server sessionId session channelId channel command payload) ∨
      ∃ sent, (server.fetchCommand out sessionId channelId command payload).2 =
        { server with sent } := by
  unfold fetchCommand
  cases hasSession : server.mapSession sessionId with
  | none => exact .inr ⟨_, rfl⟩
  | some session =>
    dsimp only
    split
    · exact .inr ⟨_, rfl⟩
    rename_i handshake
    split
    · exact .inr ⟨_, rfl⟩
    rename_i heartbeat
    cases hasChannel : server.mapChannel channelId with
    | none => exact .inr ⟨_, rfl⟩
    | some channel =>
      dsimp only
      split
      · exact .inr ⟨_, rfl⟩
      rename_i alive
      split
      · exact .inr ⟨_, rfl⟩
      · rename_i permitted
        exact .inl ⟨_, _, hasSession, handshake, heartbeat, hasChannel,
          by simpa using alive, by simpa using permitted⟩

/-! ### Work that a device starts -/

/-- What was handed to the tasks of a session. -/
def HdcServer.delivered (server : HdcServer) (sessionId : UInt32) : List Delivery :=
  match server.mapSession sessionId with
  | none => []
  | some session => session.tasks.delivered

variable {out : Outside} {sessionId channelId : UInt32}

/-- A server with the sessions of two devices, and a client on channel 9 that is bound
to the first. -/
def twoDevices : HdcServer where
  mapSession sessionId :=
    if sessionId = 1 then some ⟨str "first", false, .empty⟩
    else if sessionId = 2 then some ⟨str "second", false, .empty⟩
    else none
  mapChannel channelId := if channelId = 9 then some ⟨1, false, false⟩ else none
  hostReceivePermits _ := none
  mapForward := []
  written := []
  sent := []
  freeing := []
  detached := []

/-- Nothing is in the way. -/
def plainOutside : Outside := ⟨⟨true, true, true⟩, true, true, id, fun _ => true, true, false⟩

/-- What a frame can change about a client's channel: what is written to it, whether it
is about to be freed or its socket closed, the forwards under its name, and what its
task got. -/
structure View where
  channel : Option HChannel
  written : List (UInt32 × Option UInt16 × Bytes)
  freeing : List UInt32
  detached : List UInt32
  forwards : List HdcForwardInformation
  made : List UInt32
  delivered : List Delivery
deriving DecidableEq

/-- The tasks of the session that a channel is bound to. -/
def HdcServer.tasksOf (server : HdcServer) (channelId : UInt32) : Tasks :=
  match server.mapChannel channelId with
  | none => .empty
  | some channel =>
    match server.mapSession channel.targetSessionId with
    | none => .empty
    | some session => session.tasks

def HdcServer.view (server : HdcServer) (channelId : UInt32) : View where
  channel := server.mapChannel channelId
  written := server.written.filter (·.1 = channelId)
  freeing := server.freeing.filter (· = channelId)
  detached := server.detached.filter (· = channelId)
  forwards := server.mapForward.filter (·.channelId = channelId)
  made := (server.tasksOf channelId).made.filter (· = channelId)
  delivered := (server.tasksOf channelId).delivered.filter (·.channelId = channelId)

/-- A message of this kind is written to the client's socket. -/
def echoes (server : HdcServer) (out : Outside) (channelId : UInt32) : Bytes → Bool
  | [] => false
  | level :: msg => server.writes out channelId none (echoText out level msg)

/-- A forward of this text cuts the client off, or is noted under its channel. -/
def cutsOff (server : HdcServer) (out : Outside) (session : HSession) (channelId : UInt32)
    (text : Bytes) : Bool :=
  text ≠ [] && (!server.detached.contains channelId ||
    server.notes out (session.connectKey ++ str "|" ++ text))

/-- Past the gate, the frame does something to its channel. -/
def acts (server : HdcServer) (out : Outside) (session : HSession) (channelId : UInt32)
    (channel : HChannel) (command : UInt16) (payload : Bytes) : Bool :=
  if command = HdcCommand.kernelEchoRaw.code then server.writes out channelId none payload
  else if command = HdcCommand.kernelEcho.code then echoes server out channelId payload
  else if command = HdcCommand.kernelChannelClose.code then true
  else if command = HdcCommand.forwardSuccess.code then
    cutsOff server out session channelId (payload.takeWhile (· ≠ 0))
  else if HdcServer.clientTransfer command ∧ channel.fromClient then
    server.writes out channelId (some command) payload
  else
    match server.mapSession channel.targetSessionId with
    | none => false
    | some session => reaches session.tasks out.answer channelId command

/-- No channel but the named one changes, and that one exactly if it is acted upon. -/
def Touches (server after : HdcServer) (channelId : UInt32) (acted : Prop) : Prop :=
  (∀ other, other ≠ channelId → after.view other = server.view other) ∧
    (after.view channelId ≠ server.view channelId ↔ acted)

theorem touches_sendChannel (server : HdcServer) (out : Outside) (channelId : UInt32)
    (commandFlag : Option UInt16) (bytes : Bytes) :
    Touches server (server.sendChannel out channelId commandFlag bytes) channelId
      (server.writes out channelId commandFlag bytes = true) := by
  cases writes : server.writes out channelId commandFlag bytes with
  | false => simp [Touches, sendChannel, writes]
  | true =>
    refine ⟨fun other different => ?_, iff_of_true (fun same => ?_) rfl⟩
    · simp [view, sendChannel, tasksOf, writes, Ne.symm different]
    · have written := congrArg View.written same
      simp [view, sendChannel, writes] at written

/-- The tasks of a session change, but not what is recorded about the channel. -/
theorem view_putTasks (server : HdcServer) {sessionId other : UInt32}
    (present : server.mapSession sessionId = some session) {tasks : Tasks}
    (made : tasks.made.filter (· = other) = session.tasks.made.filter (· = other))
    (delivered : tasks.delivered.filter (·.channelId = other) =
    session.tasks.delivered.filter (·.channelId = other)) :
    (server.putTasks sessionId session tasks).view other = server.view other := by
  have tasksOf : ((server.putTasks sessionId session tasks).tasksOf other).made.filter (· = other) =
        (server.tasksOf other).made.filter (· = other) ∧
      ((server.putTasks sessionId session tasks).tasksOf other).delivered.filter
        (·.channelId = other) = (server.tasksOf other).delivered.filter (·.channelId = other) := by
    unfold tasksOf putTasks
    cases server.mapChannel other with
    | none => exact ⟨rfl, rfl⟩
    | some channel =>
      dsimp only
      by_cases same : channel.targetSessionId = sessionId
      · rw [same, Function.update_self, present]
        exact ⟨made, delivered⟩
      · rw [Function.update_of_ne same]
        exact ⟨rfl, rfl⟩
  simp only [view, tasksOf.1, tasksOf.2]
  rfl

/-- What is recorded about a channel shows there, and nowhere else. -/
theorem Recorded.filter_eq {tasks after : Tasks} {channelId : UInt32} {made : List UInt32}
    {delivered : List Delivery} (recorded : Recorded tasks after channelId command made delivered)
    (other : UInt32) :
    after.made.filter (· = other) =
      tasks.made.filter (· = other) ++ (if other = channelId then made else []) ∧
    after.delivered.filter (·.channelId = other) =
      tasks.delivered.filter (·.channelId = other) ++ if other = channelId then delivered else [] := by
  rw [recorded.made_eq, recorded.delivered_eq, filter_append, filter_append]
  split
  case isTrue same =>
    subst same
    rw [filter_eq_self.mpr fun entry mem => decide_eq_true (recorded.made_channel entry mem),
      filter_eq_self.mpr fun d mem => decide_eq_true (recorded.delivered_channel d mem).1]
    exact ⟨rfl, rfl⟩
  case isFalse different =>
    have unmade : made.filter (· = other) = [] := by
      rw [filter_eq_nil_iff]
      intro entry mem
      rw [recorded.made_channel entry mem]
      simpa using Ne.symm different
    have undelivered : delivered.filter (·.channelId = other) = [] := by
      rw [filter_eq_nil_iff]
      intro d mem
      rw [(recorded.delivered_channel d mem).1]
      simpa using Ne.symm different
    rw [unmade, undelivered]
    exact ⟨rfl, rfl⟩

/-- A frame that is passed through. -/
theorem passthrough_view {server : HdcServer} (out : Outside) {channelId : UInt32}
    {channel : HChannel} (hasChannel : server.mapChannel channelId = some channel)
    (command : UInt16) :
    Touches server (server.dispatchPassthroughTask out channelId channel command).2 channelId
      ((match server.mapSession channel.targetSessionId with
        | none => false
        | some session => reaches session.tasks out.answer channelId command) = true) := by
  unfold dispatchPassthroughTask
  cases present : server.mapSession channel.targetSessionId with
  | none => exact ⟨fun _ _ => rfl, by simp⟩
  | some session =>
    obtain ⟨made, delivered, recorded, idle, -⟩ :=
      dispatchTaskData_records session.tasks out.answer channelId command
    have own := recorded.filter_eq channelId
    rw [if_pos rfl, if_pos rfl] at own
    constructor
    · intro other different
      have apart := recorded.filter_eq other
      rw [if_neg different, if_neg different, append_nil, append_nil] at apart
      exact view_putTasks _ present apart.1 apart.2
    rw [← Bool.not_eq_false, ← idle, not_iff_not]
    constructor
    · intro same
      have sameMade := congrArg View.made same
      have sameDelivered := congrArg View.delivered same
      simp only [view, tasksOf, putTasks, hasChannel,
        Function.update_self, present, own.1, own.2] at sameMade sameDelivered
      exact ⟨append_right_eq_self.mp sameMade, append_right_eq_self.mp sameDelivered⟩
    · rintro ⟨rfl, rfl⟩
      refine view_putTasks _ present ?_ ?_
      · rw [own.1, append_nil]
      · rw [own.2, append_nil]

/-- A channel is closed. -/
theorem handleChannelClose_view (out : Outside) {sessionId : UInt32}
    (present : server.mapSession sessionId = some session) (channelId : UInt32) (payload : Bytes) :
    Touches server (server.handleChannelClose out sessionId session channelId payload) channelId
      True := by
  have cleared : ∀ other, (server.putTasks sessionId session
      (session.tasks.clearOwnTasks out.timer channelId)).view other = server.view other :=
    fun _ => view_putTasks server present rfl rfl
  have result : (server.handleChannelClose out sessionId session channelId payload).view =
      view { server.putTasks sessionId session
          (session.tasks.clearOwnTasks out.timer channelId) with
        freeing := server.freeing ++ [channelId] } := by
    unfold handleChannelClose
    split
    · rfl
    · split <;> rfl
  rw [Touches, result]
  refine ⟨fun other different => ?_, iff_of_true (fun same => ?_) trivial⟩
  · rw [← cleared other]
    have kept : (server.freeing ++ [channelId]).filter (· = other) =
        server.freeing.filter (· = other) := by
      simp [Ne.symm different]
    simp only [view, kept]
    rfl
  · have freeing := congrArg View.freeing same
    simp [view] at freeing

/-- A forward is noted. -/
theorem handleForwardSuccess_view (server : HdcServer) (out : Outside) (sessionId : UInt32)
    (session : HSession) (channelId : UInt32) (payload : Bytes) :
    Touches server (server.handleForwardSuccess out sessionId session channelId payload) channelId
      (cutsOff server out session channelId (payload.takeWhile (· ≠ 0)) = true) := by
  unfold handleForwardSuccess
  cases payload.takeWhile (· ≠ 0) with
  | nil => exact ⟨fun _ _ => rfl, by simp [cutsOff]⟩
  | cons direction rest =>
    generalize noted : session.connectKey ++ str "|" ++ direction :: rest = taskString
    constructor
    · intro other different
      simp only [view, tasksOf, filter_append]
      have none : (if channelId ∈ server.detached then [] else [channelId]).filter (· = other) =
          [] := by
        split <;> simp [Ne.symm different]
      rw [none]
      split <;> simp [Ne.symm different]
    · have unchanged : ∀ {extra : List HdcForwardInformation} {cut : List UInt32},
          (∀ forward ∈ extra, forward.channelId = channelId) → (∀ id ∈ cut, id = channelId) →
          (view { server with mapForward := server.mapForward ++ extra
                              detached := server.detached ++ cut } channelId ≠
            server.view channelId ↔ cut ≠ [] ∨ extra ≠ []) := by
        intro extra cut mine own
        simp only [view, tasksOf, filter_append, ne_eq, View.mk.injEq, true_and,
          append_right_eq_self]
        rw [filter_eq_self.mpr fun forward mem => decide_eq_true (mine forward mem),
          filter_eq_self.mpr fun id mem => decide_eq_true (own id mem)]
        simp only [and_true]
        tauto
      rw [unchanged (by split <;> simp) (by split <;> simp)]
      simp only [cutsOff, noted]
      simp

/-- What a frame past the gate does to the channels. -/
theorem dispatchChannelCommand_view (out : Outside) {sessionId : UInt32}
    (present : server.mapSession sessionId = some session) {channelId : UInt32}
    (hasChannel : server.mapChannel channelId = some channel) (command : UInt16) (payload : Bytes) :
    Touches server (server.dispatchChannelCommand out sessionId session channelId channel command
      payload).2 channelId (acts server out session channelId channel command payload = true) := by
  unfold dispatchChannelCommand acts
  split
  · exact touches_sendChannel _ _ _ _ _
  split
  · cases payload with
    | nil => exact ⟨fun _ _ => rfl, by simp [handleKernelEcho, echoes]⟩
    | cons level msg => exact touches_sendChannel _ _ _ _ _
  split
  · obtain ⟨others, changed⟩ := handleChannelClose_view out present channelId payload
    exact ⟨others, changed.trans (by simp)⟩
  split
  · exact handleForwardSuccess_view server out sessionId session channelId payload
  split
  · exact touches_sendChannel _ _ _ _ _
  · exact passthrough_view _ hasChannel command

/-- For every state of the server and every frame of a device: only channels that are
bound to that device change, if and only if the frame's channel is bound to it or the
frame does nothing to its channel. -/
theorem isolation_iff (server : HdcServer) (out : Outside) (sessionId channelId : UInt32)
    (command : UInt16) (payload : Bytes) :
    (∀ other channel, server.mapChannel other = some channel →
        (server.fetchCommand out sessionId channelId command payload).2.view other ≠
          server.view other → channel.targetSessionId = sessionId) ↔
      ∀ session channel, Handed server sessionId session channelId channel command payload →
        acts server out session channelId channel command payload = true →
          channel.targetSessionId = sessionId := by
  constructor
  · intro isolated session channel handed active
    refine isolated _ _ handed.hasChannel ?_
    rw [handed.fetchCommand_eq]
    exact (dispatchChannelCommand_view _ handed.hasSession handed.hasChannel command
      payload).2.mpr active
  · intro bound other channel hasChannel changed
    rcases fetchCommand_cases server out sessionId channelId command payload with
      ⟨session, channel', handed⟩ | ⟨sent, same⟩
    · rw [handed.fetchCommand_eq] at changed
      obtain ⟨others, own⟩ := dispatchChannelCommand_view out handed.hasSession handed.hasChannel
        command payload
      by_cases mine : other = channelId
      · subst mine
        obtain rfl := Option.some.inj (hasChannel.symm.trans handed.hasChannel)
        exact bound _ _ handed (own.mp changed)
      · exact absurd (others _ mine) changed
    · rw [same] at changed
      exact absurd rfl changed

/-- The second device writes to the client of the first, closes its channel, cuts it
off, and hands a command to its task. -/
theorem isolation_broken :
    [kernelEcho, .kernelChannelClose, .forwardSuccess, .forwardInit].map
        (fun command => decide ((twoDevices.fetchCommand plainOutside 2 9 command.code
          (str "1tcp:1 tcp:2")).2.view 9 = twoDevices.view 9)) =
      [false, false, false, false] ∧
    (twoDevices.mapChannel 9).map HChannel.targetSessionId = some 1 := by
  decide +kernel

end Hdc.Host
