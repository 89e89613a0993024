import Hdc.Session.Task
import Mathlib.Algebra.BigOperators.Group.List.Basic

/-!
The exchange of `CMD_KERNEL_CHANNEL_CLOSE` between server and daemon (`FetchCommand` on both
sides, `HandleChannelClose`, `FreeChannel` and `DetachChannelInnerForTcp`).

Both sides answer a close with one of the next lower count. The server answers with a 0 where it
does not know the channel any more, and the release of a channel sends a 0 of its own. So the count
of a frame does not bound what follows it.

* `total_step`: a turn never adds to the frames that were sent and those that are still to come;
* `exchange_bounded`: what a whole run sends for a channel, and whose tasks a reception clears.
-/

namespace Hdc.Session.Close

open List

inductive Side where
  | server
  | daemon
deriving DecidableEq

def Side.other : Side → Side
  | .server => .daemon
  | .daemon => .server

/-- A `CMD_KERNEL_CHANNEL_CLOSE` on its way. -/
structure Frame where
  receiver : Side
  sessionId : UInt32
  channelId : UInt32
  count : UInt8
deriving DecidableEq

/-- What becomes of a channel of the server: `isDead` is set behind `alive`, `childCleared` in
`cleared`. In `detaching` a `SP_DEATCH_CHANNEL` is on its way to the thread of the session. -/
inductive Stage where
  | alive
  | freeing
  | detaching
  | cleared
deriving DecidableEq

structure Channel where
  targetSessionId : UInt32
  stage : Stage
deriving DecidableEq

/-- Server and daemon. Frames in flight may be received in any order; `sent` has all that were sent
since the start. -/
structure System where
  channels : UInt32 → Option Channel
  flight : List Frame
  sent : List Frame
  tasks : Side → UInt32 → Tasks

namespace System

def send (sys : System) (frame : Frame) : System :=
  { sys with flight := sys.flight ++ [frame], sent := sys.sent ++ [frame] }

def clearOwnTasks (sys : System) (timer : UInt32 → Bool) (side : Side)
    (sessionId channelId : UInt32) : System :=
  { sys with
    tasks := Function.update sys.tasks side (Function.update (sys.tasks side) sessionId
      ((sys.tasks side sessionId).clearOwnTasks timer channelId)) }

/-- A count that is not 0 goes back, one lower. -/
def answer (sys : System) (frame : Frame) : System :=
  if frame.count ≠ 0 then
    sys.send ⟨frame.receiver.other, frame.sessionId, frame.channelId, frame.count - 1⟩
  else sys

/-- `FetchCommand` for a close. `reported` is what `ReportCommandEvent` of the daemon says;
`CheckAuthStatus` and `CheckHostCommandPermission` let a close pass. -/
def fetchCommand (sys : System) (reported : Bool) (timer : UInt32 → Bool) (frame : Frame) :
    System :=
  match frame.receiver with
  | .daemon =>
    if !reported then sys
    else (sys.clearOwnTasks timer .daemon frame.sessionId frame.channelId).answer frame
  | .server =>
    match sys.channels frame.channelId with
    -- `HandleChannelClose`; the free that it pushes is an event of its own
    | some ⟨_, .alive⟩ =>
      (sys.clearOwnTasks timer .server frame.sessionId frame.channelId).answer frame
    | _ => sys.send ⟨.daemon, frame.sessionId, frame.channelId, 0⟩

def setChannel (sys : System) (channelId : UInt32) (channel : Option Channel) : System :=
  { sys with channels := Function.update sys.channels channelId channel }

end System

/-- A turn of a thread on either side. -/
inductive Event where
  | receive (i : Nat) (reported : Bool) (timer : UInt32 → Bool)
  | freeChannel (channelId : UInt32)
  /-- `detaches`: the channel has a handle in the session's loop and the message is sent. -/
  | freeChannelOpeate (channelId : UInt32) (detaches : Bool)
  | detachChannel (channelId : UInt32) (timer : UInt32 → Bool)
  | freeChannelFinally (channelId : UInt32)

namespace System

def step (sys : System) : Event → System
  | .receive i reported timer =>
    match sys.flight[i]? with
    | none => sys
    | some frame =>
      { sys with flight := sys.flight.eraseIdx i }.fetchCommand reported timer frame
  | .freeChannel channelId =>
    match sys.channels channelId with
    | some ⟨target, .alive⟩ => sys.setChannel channelId (some ⟨target, .freeing⟩)
    | _ => sys
  | .freeChannelOpeate channelId detaches =>
    match sys.channels channelId with
    | some ⟨target, .freeing⟩ =>
      sys.setChannel channelId (some ⟨target, if detaches then .detaching else .cleared⟩)
    | _ => sys
  | .detachChannel channelId timer =>
    match sys.channels channelId with
    | some ⟨target, .detaching⟩ =>
      ((sys.setChannel channelId (some ⟨target, .cleared⟩)).clearOwnTasks timer .server target
        channelId).send ⟨.daemon, target, channelId, 0⟩
    | _ => sys
  | .freeChannelFinally channelId =>
    match sys.channels channelId with
    | some ⟨_, .cleared⟩ => sys.setChannel channelId none
    | _ => sys

def run (start : System) (events : List Event) : System := events.foldl step start

end System

/-! ### What is still to come -/

/-- The answers to a frame: one for each count below its own, and one more where the 0 at their end
comes to the server, which may have lost the channel by then. -/
def Frame.weight (frame : Frame) : Nat :=
  frame.count.toNat + if frame.count.toNat % 2 = 0 ↔ frame.receiver = .server then 1 else 0

/-- The close that the release of a channel sends. -/
def releases : Option Channel → Nat
  | none | some ⟨_, .cleared⟩ => 0
  | some _ => 1

namespace System

variable (sys : System) (channelId : UInt32)

/-- The frames that were sent for a channel. -/
def exchanged : Nat := sys.sent.countP (·.channelId = channelId)

/-- The frames that may still be sent for it. -/
def outstanding : Nat :=
  ((sys.flight.filter (·.channelId = channelId)).map Frame.weight).sum +
    releases (sys.channels channelId)

def total : Nat := sys.exchanged channelId + sys.outstanding channelId

theorem total_send (frame : Frame) :
    (sys.send frame).total channelId =
      sys.total channelId + if frame.channelId = channelId then 1 + frame.weight else 0 := by
  by_cases same : frame.channelId = channelId
  · simp [total, exchanged, outstanding, send, filter_append, same]
    omega
  · simp [total, exchanged, outstanding, send, filter_append, same]

theorem total_eraseIdx {i : Nat} {frame : Frame} (here : sys.flight[i]? = some frame) :
    { sys with flight := sys.flight.eraseIdx i }.total channelId +
      (if frame.channelId = channelId then frame.weight else 0) = sys.total channelId := by
  obtain ⟨inside, rfl⟩ := List.getElem?_eq_some_iff.mp here
  have same := (((getElem_cons_eraseIdx_perm inside).filter
    (·.channelId = channelId)).map Frame.weight).sum_eq
  by_cases mine : sys.flight[i].channelId = channelId
  · simp only [filter_cons, mine, decide_true, if_true, map_cons, sum_cons] at same
    simp only [total, exchanged, outstanding, mine, if_true]
    omega
  · simp only [filter_cons, mine, decide_false, Bool.false_eq_true, if_false] at same
    simp only [total, exchanged, outstanding, mine, if_false]
    omega

/-- The answer is paid for by the frame. -/
theorem total_answer (frame : Frame) :
    (sys.answer frame).total channelId ≤
      sys.total channelId + if frame.channelId = channelId then frame.weight else 0 := by
  unfold answer
  split
  case isTrue answered =>
    have pos : 0 < frame.count.toNat := Nat.pos_of_ne_zero (UInt8.toNat_inj.not.mpr answered)
    have lower : (frame.count - 1).toNat = frame.count.toNat - 1 :=
      UInt8.toNat_sub_of_le _ _ (UInt8.le_iff_toNat_le.mpr pos)
    have weight : ∀ session channel,
        1 + Frame.weight ⟨frame.receiver.other, session, channel, frame.count - 1⟩ =
          frame.weight := by
      intro session channel
      simp only [Frame.weight, lower]
      cases frame.receiver <;> simp [Side.other] <;> split <;> split <;> omega
    rw [total_send, weight]
  case isFalse => exact Nat.le_add_right _ _

theorem one_le_weight {frame : Frame} (server : frame.receiver = .server) : 1 ≤ frame.weight := by
  simp only [Frame.weight, server, iff_true]
  split <;> omega

theorem total_fetchCommand (reported : Bool) (timer : UInt32 → Bool) (frame : Frame) :
    (sys.fetchCommand reported timer frame).total channelId ≤
      sys.total channelId + if frame.channelId = channelId then frame.weight else 0 := by
  unfold fetchCommand
  split
  case h_1 =>
    split
    · exact Nat.le_add_right _ _
    · exact total_answer _ _ _
  case h_2 server =>
    split
    · exact total_answer _ _ _
    · have paid := one_le_weight server
      have last : Frame.weight ⟨.daemon, frame.sessionId, frame.channelId, 0⟩ = 0 := rfl
      rw [total_send, last]
      split <;> omega

/-- A channel that goes on to its next stage without a frame. -/
theorem total_setChannel {channel : Option Channel} {at' : UInt32}
    (fewer : releases channel ≤ releases (sys.channels at')) :
    (sys.setChannel at' channel).total channelId ≤ sys.total channelId := by
  simp only [total, exchanged, outstanding, setChannel]
  by_cases same : channelId = at'
  · subst same
    rw [Function.update_self]
    omega
  · rw [Function.update_of_ne same]

/-- A turn never adds to the frames that were sent and those that are still to come. -/
theorem total_step (event : Event) : (sys.step event).total channelId ≤ sys.total channelId := by
  cases event with
  | receive i reported timer =>
    simp only [step]
    cases here : sys.flight[i]? with
    | none => exact Nat.le_refl _
    | some frame =>
      exact (total_fetchCommand _ _ _ _ _).trans (total_eraseIdx sys channelId here).le
  | freeChannel at' =>
    simp only [step]
    split
    case h_1 here => exact total_setChannel _ _ (by rw [here]; exact Nat.le_refl 1)
    case h_2 => exact Nat.le_refl _
  | freeChannelOpeate at' detaches =>
    simp only [step]
    split
    case h_1 here =>
      refine total_setChannel _ _ ?_
      rw [here]
      cases detaches
      · exact Nat.zero_le 1
      · exact Nat.le_refl 1
    case h_2 => exact Nat.le_refl _
  | detachChannel at' timer =>
    simp only [step]
    split
    case h_1 target here =>
      rw [total_send]
      simp only [total, exchanged, outstanding, setChannel, clearOwnTasks]
      by_cases same : at' = channelId
      · subst same
        have weight : Frame.weight ⟨.daemon, target, at', 0⟩ = 0 := by simp [Frame.weight]
        simp only [Function.update_self, here, releases, weight, if_true]
        omega
      · simp [Function.update_of_ne (Ne.symm same), same]
    case h_2 => exact Nat.le_refl _
  | freeChannelFinally at' =>
    simp only [step]
    split
    · exact total_setChannel _ _ (Nat.zero_le _)
    · exact Nat.le_refl _

theorem total_run (events : List Event) :
    (sys.run events).total channelId ≤ sys.total channelId := by
  induction events generalizing sys with
  | nil => exact Nat.le_refl _
  | cons event events ih => exact (ih (sys.step event)).trans (sys.total_step channelId event)

/-! ### Whose tasks are cleared -/

/-- Nothing but the tasks of the channel on this side of the session is cleared; 0 stands for all of
its channels. -/
theorem mem_clearOwnTasks {timer : UInt32 → Bool} {at' side : Side}
    {sessionId session cleared : UInt32} {task : TaskInformation}
    (mem : task ∈ (sys.tasks side session).mapTask)
    (other : side = at' → session = sessionId → cleared ≠ 0 ∧ task.channelId ≠ cleared) :
    task ∈ ((sys.clearOwnTasks timer at' sessionId cleared).tasks side session).mapTask := by
  by_cases there : side = at'
  · subst there
    by_cases same : session = sessionId
    · subst same
      obtain ⟨some, apart⟩ := other rfl rfl
      simpa [clearOwnTasks, Tasks.clearOwnTasks, TaskInformation.toClear, some, apart] using mem
    · simpa [clearOwnTasks, same] using mem
  · simpa [clearOwnTasks, there] using mem

theorem tasks_answer (frame : Frame) : (sys.answer frame).tasks = sys.tasks := by
  unfold answer
  split <;> rfl

theorem mem_fetchCommand {reported : Bool} {timer : UInt32 → Bool} {frame : Frame} {side : Side}
    {session : UInt32} {task : TaskInformation} (mem : task ∈ (sys.tasks side session).mapTask)
    (other : side = frame.receiver → session = frame.sessionId →
      frame.channelId ≠ 0 ∧ task.channelId ≠ frame.channelId) :
    task ∈ ((sys.fetchCommand reported timer frame).tasks side session).mapTask := by
  unfold fetchCommand
  split
  case h_1 daemon =>
    split
    · exact mem
    · rw [tasks_answer]
      exact sys.mem_clearOwnTasks mem (daemon ▸ other)
  case h_2 server =>
    split
    · rw [tasks_answer]
      exact sys.mem_clearOwnTasks mem (server ▸ other)
    · exact mem

end System

/-- For every channel, a run sends no more frames than the counts of the frames in flight at its
start allow, with one more for a chain of answers that ends at the server and one for the release of
the channel. A reception clears tasks of its channel only, in its session and on its side, but for
channel 0. -/
theorem exchange_bounded (start : System) (events : List Event) (channelId : UInt32) :
    (start.run events).exchanged channelId ≤
        start.exchanged channelId + start.outstanding channelId ∧
    ∀ i reported timer frame, (start.run events).flight[i]? = some frame →
      ∀ side session, ∀ task ∈ ((start.run events).tasks side session).mapTask,
        (side = frame.receiver → session = frame.sessionId →
          frame.channelId ≠ 0 ∧ task.channelId ≠ frame.channelId) →
        task ∈ (((start.run events).step (.receive i reported timer)).tasks side session).mapTask := by
  constructor
  · exact (Nat.le_add_right _ _).trans (start.total_run channelId events)
  · intro i reported timer frame here side session task mem other
    simp only [System.step, here]
    exact System.mem_fetchCommand _ mem other

/-- Session 1 with channel 5, for which one frame is on its way to the server, and a task of another
channel. -/
def oneFrame (channelId : UInt32) (count : UInt8) : System :=
  { channels := fun id => if id = 5 then some ⟨1, .alive⟩ else none
    flight := [⟨.server, 1, channelId, count⟩]
    sent := []
    tasks := fun _ _ => { Tasks.empty with mapTask := [.new 6 true] } }

/-- The server answers a count of 2 and releases the channel; when the 0 at the end comes back, the
channel is gone. -/
def releaseRun : List Event :=
  [.receive 0 true fun _ => true, .freeChannel 5, .freeChannelOpeate 5 true,
    .detachChannel 5 fun _ => true, .freeChannelFinally 5, .receive 0 true fun _ => true,
    .receive 1 true fun _ => true]

/-- After a count of 2 the bound of four frames is met, and the task of channel 6 is still there. -/
theorem exchange_bounded_release :
    ((oneFrame 5 2).run releaseRun).exchanged 5 ≤ 4 ∧
      TaskInformation.new 6 true ∈
        ((((oneFrame 5 2).run []).step (.receive 0 true fun _ => true)).tasks .server 1).mapTask :=
  ⟨(exchange_bounded (oneFrame 5 2) releaseRun 5).1.trans (by decide),
    (exchange_bounded (oneFrame 5 2) [] 5).2 0 true (fun _ => true) _ rfl .server 1 _
      (by decide) (by decide)⟩

/-- A count of 2 is followed by four frames and a 0 for an unknown channel by one; a close for
channel 0 that the daemon receives clears the tasks of other channels. -/
theorem count_exceeded :
    ((oneFrame 5 2).run releaseRun).exchanged 5 = 4 ∧
      ((oneFrame 7 0).run [.receive 0 true fun _ => true]).exchanged 7 = 1 ∧
      (({ oneFrame 0 0 with flight := [⟨.daemon, 1, 0, 0⟩] }.run
        [.receive 0 true fun _ => true]).tasks .daemon 1).mapTask = [] := by
  decide

end Hdc.Session.Close
