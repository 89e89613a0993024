import Hdc.Lib.ExactRuns
import Hdc.Usb.Package

/-!
The daemon's end of the cable (`daemon_usb.cpp`).

One read of the endpoint is outstanding at a time. What it brings is first taken for an
antique packet, then for a head, and handed to the session it is for: a head names its
session, anything else belongs to the current one. A session that is not there is set up,
and a new one ends the one before it. The endpoint, the memory and the session's stream
are outside; `ReadAnswer` is what they say during one read.

* `never_stalls_iff`: an antique packet is the one thing that stalls the reader.
-/

namespace Hdc.Usb

open RetErrCode

/-- A session of the daemon. `isDead` also stands for a child that was cleared. -/
structure DaemonSession where
  usb : UsbSession
  isDead : Bool
  isSoftReset : Bool
deriving DecidableEq, Repr

/-- The daemon: its sessions over USB, and the size of the read that is outstanding. -/
structure HdcDaemonUSB where
  currentSessionId : UInt32
  sessions : List DaemonSession
  isAlive : Bool
  nextReadSize : Option Nat
deriving DecidableEq, Repr

/-- What became of `PrepareNewSession`: no session, or one that has `pseudoUid` as its id if
none was given; with the memory for its start missing, it is there but not returned. -/
inductive PrepareAnswer where
  | noSession
  | noInfo (pseudoUid : UInt32)
  | up (pseudoUid : UInt32)
deriving DecidableEq, Repr

/-- What the outside says during one read: about a new session, about the write to the
session's stream, and whether the next read could be queued. -/
structure ReadAnswer where
  prepare : PrepareAnswer
  stream : StreamAnswer
  loopOk : Bool
deriving DecidableEq, Repr

/-- What a read brings. -/
inductive UsbRead where
  | bytes (data : Bytes)
  | interrupted
  | failed
deriving DecidableEq, Repr

def maxPacketSizeHispeed : Nat := 512
def maxUsbffsBulk : Nat := 512 * 1024

namespace HdcDaemonUSB

/-- `AdminSession(OP_QUERY)`. -/
def query (daemon : HdcDaemonUSB) (sessionId : UInt32) : Option DaemonSession :=
  daemon.sessions.find? (·.usb.sessionId = sessionId)

/-- A session with this id is changed in place. -/
def update (daemon : HdcDaemonUSB) (sessionId : UInt32) (change : DaemonSession → DaemonSession) :
    HdcDaemonUSB :=
  { daemon with
    sessions := daemon.sessions.map fun session =>
      if session.usb.sessionId = sessionId then change session else session }

/-- `FreeSession`, as far as reads see it. -/
def freeSession (daemon : HdcDaemonUSB) (sessionId : UInt32) : HdcDaemonUSB :=
  daemon.update sessionId fun session => { session with isDead := true }

/-- `ResetOldSession`; a session that is not there is left alone. -/
def resetOldSession (daemon : HdcDaemonUSB) (sessionId : UInt32) (isSoftReset : Bool) :
    HdcDaemonUSB :=
  let sessionId := if sessionId = 0 then daemon.currentSessionId else sessionId
  daemon.update sessionId fun session =>
    { session with isSoftReset := isSoftReset, isDead := true }

/-- `AdminUsbSession`: the first session of the map goes. -/
def adminUsbSession (daemon : HdcDaemonUSB) : HdcDaemonUSB :=
  match daemon.sessions.find? fun session =>
      daemon.sessions.all fun other => session.usb.sessionId ≤ other.usb.sessionId with
  | none => daemon
  | some session => daemon.freeSession session.usb.sessionId

/-- `AvailablePacket`: the id of the session, if a head names one. -/
def availablePacket (daemon : HdcDaemonUSB) (ioBuf : Bytes) : Int × UInt32 × HdcDaemonUSB :=
  if isUsbPacketHeader ioBuf then
    if hasOption (headOption ioBuf) usbOptionReset then
      (errIoSoftReset, 0, daemon.resetOldSession (headSessionId ioBuf) true)
    else
      (retSuccess, headSessionId ioBuf, daemon)
  else
    (retSuccess, 0, daemon)

/-- A session as `MallocSession` makes it. -/
def newSession (sessionId pseudoUid : UInt32) : DaemonSession where
  usb :=
    { sessionId := if sessionId = 0 then pseudoUid else sessionId
      serverOrDaemon := false, payloadSize := 0, resetIO := false, sent := [], stream := [] }
  isDead := false
  isSoftReset := false

/-- `PrepareNewSession`. -/
def prepareNewSession (daemon : HdcDaemonUSB) (sessionId : UInt32) :
    PrepareAnswer → Option DaemonSession × HdcDaemonUSB
  | .noSession => (none, daemon)
  | .noInfo pseudoUid =>
    (none, { daemon with
      currentSessionId := sessionId
      sessions := daemon.sessions ++ [newSession sessionId pseudoUid] })
  | .up pseudoUid =>
    (some (newSession sessionId pseudoUid), { daemon with
      currentSessionId := sessionId
      sessions := daemon.sessions ++ [newSession sessionId pseudoUid] })

/-- The end of `DispatchToWorkThread`, for the session it found or made. -/
def sendToSession (daemon : HdcDaemonUSB) (session : DaemonSession) (answer : ReadAnswer)
    (readBuf : Bytes) : Int × HdcDaemonUSB :=
  if session.isDead then
    (errSessionDead, daemon)
  else
    let sent := session.usb.sendToHdcStream (usbToHdcProtocol (.daemon answer.stream)) readBuf
    let daemon := daemon.update session.usb.sessionId fun session => { session with usb := sent.2 }
    if sent.1 < 0 then (errIoFail, daemon) else (sent.1, daemon)

/-- Data without a head is for the current session. -/
def target (daemon : HdcDaemonUSB) (sessionId : UInt32) : UInt32 :=
  if sessionId = 0 then daemon.currentSessionId else sessionId

/-- A session that is coming ends the one before it. -/
def endOther (daemon : HdcDaemonUSB) (sessionId : UInt32) : HdcDaemonUSB :=
  if daemon.currentSessionId ≠ 0 ∧ sessionId ≠ daemon.currentSessionId then
    { daemon.resetOldSession daemon.currentSessionId false with currentSessionId := 0 }
  else
    daemon

/-- `DispatchToWorkThread`. -/
def dispatchToWorkThread (daemon : HdcDaemonUSB) (sessionId : UInt32) (answer : ReadAnswer)
    (readBuf : Bytes) : Int × HdcDaemonUSB :=
  let sessionId := daemon.target sessionId
  let daemon := daemon.endOther sessionId
  match daemon.query sessionId with
  | some session => daemon.sendToSession session answer readBuf
  | none =>
    match daemon.prepareNewSession sessionId answer.prepare with
    | (none, daemon) => (errSessionNofound, daemon)
    | (some session, daemon) => daemon.sendToSession session answer readBuf

/-- `JumpAntiquePacket`. -/
def jumpAntiquePacket (buf : Bytes) : Bool :=
  decide (buf.length = 24) && decide (buf.take 4 = [0x43, 0x4e, 0x58, 0x4e])

/-- `OnUSBRead` gives up. -/
def stop (daemon : HdcDaemonUSB) : HdcDaemonUSB :=
  { daemon with isAlive := false, nextReadSize := none }

/-- `LoopUSBRead` for the size that is still missing. -/
def loopUSBRead (daemon : HdcDaemonUSB) (childRet : Int) (answer : ReadAnswer) : HdcDaemonUSB :=
  if answer.loopOk then
    { daemon with
      nextReadSize := some
        (if childRet = 0 then maxPacketSizeHispeed else min childRet.toNat maxUsbffsBulk) }
  else
    daemon.stop

/-- `OnUSBRead`. An antique packet is dropped, and no further read is queued. -/
def onUSBRead (daemon : HdcDaemonUSB) (read : UsbRead) (answer : ReadAnswer) : HdcDaemonUSB :=
  if daemon.isAlive = false then
    daemon.stop
  else
    match read with
    | .failed => daemon.adminUsbSession.stop
    | .interrupted => daemon.loopUSBRead 0 answer
    | .bytes bufPtr =>
      if bufPtr.length = 0 then
        daemon.loopUSBRead 0 answer
      else if jumpAntiquePacket bufPtr then
        { daemon with nextReadSize := none }
      else
        let available := daemon.availablePacket bufPtr
        if available.1 ≠ retSuccess then
          if available.1 ≠ errIoSoftReset then available.2.2.stop
          else available.2.2.loopUSBRead 0 answer
        else
          let dispatched := available.2.2.dispatchToWorkThread available.2.1 answer bufPtr
          if dispatched.1 < 0 then dispatched.2.stop
          else dispatched.2.loopUSBRead dispatched.1 answer

/-- The endpoint has something for a read that is outstanding. -/
def readStep (daemon : HdcDaemonUSB) (event : UsbRead × ReadAnswer) : HdcDaemonUSB :=
  if daemon.nextReadSize = none then daemon else daemon.onUSBRead event.1 event.2

def runReads (daemon : HdcDaemonUSB) (events : List (UsbRead × ReadAnswer)) : HdcDaemonUSB :=
  events.foldl readStep daemon

/-- What a session's stream got. -/
def streamOf (daemon : HdcDaemonUSB) (sessionId : UInt32) : Bytes :=
  ((daemon.query sessionId).map (·.usb.stream)).getD []

/-! ### The reader while it is alive -/

/-- Alive with a read submitted, or not alive with none at the poll queue: only then does
`WatchEPTimer` open the end points again. -/
def Polls (daemon : HdcDaemonUSB) : Prop :=
  daemon.isAlive = true ∧ daemon.nextReadSize ≠ none ∨
    daemon.isAlive = false ∧ daemon.nextReadSize = none
deriving Decidable

/-- The read does not bring an antique packet to a daemon that is alive. -/
def NotAntique (daemon : HdcDaemonUSB) (event : UsbRead × ReadAnswer) : Prop :=
  daemon.isAlive = true → ∀ data, event.1 = .bytes data → jumpAntiquePacket data = false

variable (daemon : HdcDaemonUSB) (sessionId : UInt32) (answer : ReadAnswer) (data : Bytes)

@[simp]
theorem isAlive_availablePacket : (daemon.availablePacket data).2.2.isAlive = daemon.isAlive := by
  unfold availablePacket
  split_ifs <;> rfl

@[simp]
theorem isAlive_sendToSession (session : DaemonSession) :
    (daemon.sendToSession session answer data).2.isAlive = daemon.isAlive := by
  unfold sendToSession
  split_ifs
  · rfl
  · simp only
    split_ifs <;> rfl

theorem isAlive_prepareNewSession (prepare : PrepareAnswer) :
    (daemon.prepareNewSession sessionId prepare).2.isAlive = daemon.isAlive := by
  cases prepare <;> rfl

@[simp]
theorem isAlive_dispatchToWorkThread :
    (daemon.dispatchToWorkThread sessionId answer data).2.isAlive = daemon.isAlive := by
  have other : (daemon.endOther (daemon.target sessionId)).isAlive = daemon.isAlive := by
    unfold endOther
    split_ifs <;> rfl
  simp only [dispatchToWorkThread]
  split
  · simp [other]
  · have kept := isAlive_prepareNewSession (daemon.endOther (daemon.target sessionId))
      (daemon.target sessionId) answer.prepare
    split <;> simp_all

theorem polls_stop : daemon.stop.Polls := .inr ⟨rfl, rfl⟩

theorem polls_loopUSBRead (alive : daemon.isAlive = true) (childRet : Int) :
    (daemon.loopUSBRead childRet answer).Polls := by
  unfold loopUSBRead
  split
  · exact .inl ⟨alive, Option.some_ne_none _⟩
  · exact polls_stop daemon

/-- Any read but an antique packet leads to another one, or to the watchdog. -/
theorem polls_onUSBRead {event : UsbRead × ReadAnswer} (fine : daemon.NotAntique event) :
    (daemon.onUSBRead event.1 event.2).Polls := by
  simp only [onUSBRead]
  split_ifs with dead
  · exact polls_stop daemon
  have alive : daemon.isAlive = true := by simpa using dead
  split
  · exact polls_stop _
  · exact polls_loopUSBRead _ _ alive _
  next data isBytes =>
    simp only [fine alive data isBytes, Bool.false_eq_true, if_false]
    split_ifs
    · exact polls_loopUSBRead _ _ alive _
    · exact polls_stop _
    · exact polls_loopUSBRead _ _ (by simpa using alive) _
    · exact polls_stop _
    · exact polls_loopUSBRead _ _ (by simpa using alive) _

/-- The reader never stalls in a run exactly if no antique packet comes while it is alive. -/
theorem never_stalls_iff (polls : daemon.Polls) (events : List (UsbRead × ReadAnswer)) :
    (∀ k, (daemon.runReads (events.take k)).Polls) ↔
      ExactRuns.AllFine readStep NotAntique daemon events := by
  apply ExactRuns.holds_iff Polls polls
  · intro now event polls fine
    unfold readStep
    split_ifs
    · exact polls
    · exact polls_onUSBRead now fine
  · intro now event polls bad
    simp only [NotAntique, not_forall, Bool.not_eq_false] at bad
    obtain ⟨alive, data, isBytes, antique⟩ := bad
    have reading : now.nextReadSize ≠ none := by simpa [Polls, alive] using polls
    have full : data.length = 24 := by simp_all [jumpAntiquePacket]
    simp [readStep, reading, onUSBRead, alive, isBytes, full, antique, Polls]
  · exact id

private def started : HdcDaemonUSB := ⟨0, [], true, some 512⟩

private def queued : ReadAnswer := ⟨.noSession, .written, true⟩

theorem never_stalls_interrupted :
    (started.runReads ([(.interrupted, queued)].take 1)).Polls :=
  (never_stalls_iff started (.inl ⟨rfl, nofun⟩) [(.interrupted, queued)]).mpr
    (ExactRuns.allFine_nil.cons fun _ _ isBytes => nomatch isBytes) 1

/-- After an antique packet the daemon is alive and has no read submitted. -/
theorem antique_stalls : ¬ (started.runReads
    [(.bytes ([0x43, 0x4e, 0x58, 0x4e] ++ List.replicate 20 0), queued)]).Polls := by
  decide

end HdcDaemonUSB

end Hdc.Usb
