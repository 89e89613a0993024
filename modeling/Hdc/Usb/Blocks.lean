import Hdc.Usb.Daemon

/-!
What one read of the daemon does to the streams of its sessions.

From above, nothing is known of the daemon: a read adds no more to any stream than it brings,
and one that is taken for a head or an antique packet adds nothing. From below, the session
is up, and what it takes is what it gets.

* `streamOf_runReads_le`: no run of reads adds more than its weight;
* `Standing.readStep`: a session that is up gets what is read, and stays up.
-/

namespace Hdc.Usb

open RetErrCode List UsbSession Nat

variable {id : UInt32}

namespace HdcDaemonUSB

/-! ### Sessions by their ids -/

theorem query_update {daemon : HdcDaemonUSB} {change : DaemonSession → DaemonSession}
    (sameId : ∀ session, session.usb.sessionId = id → (change session).usb.sessionId = id)
    (sessionId : UInt32) :
    (daemon.update id change).query sessionId =
      if sessionId = id then (daemon.query id).map change else daemon.query sessionId := by
  rw [query, update, query, query]
  induction daemon.sessions with
  | nil => split <;> rfl
  | cons session sessions ih =>
    rw [map_cons]
    by_cases here : session.usb.sessionId = id
    · have changed := sameId _ here
      rw [if_pos here]
      by_cases asked : sessionId = id
      · rw [if_pos asked, find?_cons_of_pos (by simp [changed, asked]),
          find?_cons_of_pos (by simp [here]), Option.map_some]
      · rw [if_neg asked] at ih ⊢
        rw [find?_cons_of_neg (by simpa [changed] using Ne.symm asked), ih,
          find?_cons_of_neg (by simpa [here] using Ne.symm asked)]
    · rw [if_neg here]
      by_cases asked : sessionId = id
      · rw [if_pos asked] at ih ⊢
        rw [find?_cons_of_neg (by simpa [asked] using here), ih,
          find?_cons_of_neg (by simpa using here)]
      · rw [if_neg asked] at ih ⊢
        rw [find?_cons, find?_cons, ih]

theorem streamOf_update_same {daemon : HdcDaemonUSB} {change : DaemonSession → DaemonSession}
    (sameUsb : ∀ session, (change session).usb = session.usb) (sessionId : UInt32) :
    (daemon.update id change).streamOf sessionId = daemon.streamOf sessionId := by
  rw [streamOf, streamOf,
    query_update (fun session here => by rw [sameUsb session, here]) sessionId]
  split
  next same =>
    rw [same, Option.map_map]
    congr 2
    funext session
    exact congrArg stream (sameUsb _)
  next => rfl

section

variable (daemon : HdcDaemonUSB)
include daemon

theorem streamOf_resetOldSession (id : UInt32) (isSoftReset : Bool) (sessionId : UInt32) :
    (daemon.resetOldSession id isSoftReset).streamOf sessionId = daemon.streamOf sessionId := by
  apply streamOf_update_same
  intro session
  rfl

theorem streamOf_adminUsbSession (sessionId : UInt32) :
    daemon.adminUsbSession.streamOf sessionId = daemon.streamOf sessionId := by
  rw [adminUsbSession]
  split
  · rfl
  · apply streamOf_update_same
    intro session
    rfl

theorem streamOf_stop (sessionId : UInt32) :
    daemon.stop.streamOf sessionId = daemon.streamOf sessionId := rfl

theorem streamOf_loopUSBRead (childRet : Int) (answer : ReadAnswer) (sessionId : UInt32) :
    (daemon.loopUSBRead childRet answer).streamOf sessionId = daemon.streamOf sessionId := by
  rw [loopUSBRead]
  split
  · rfl
  · rfl

/-- A session that is new has got nothing. -/
theorem streamOf_append_new (current id pseudoUid sessionId : UInt32) : ({ daemon with
        currentSessionId := current
        sessions := daemon.sessions ++ [newSession id pseudoUid] } : HdcDaemonUSB).streamOf
        sessionId = daemon.streamOf sessionId := by
  rw [streamOf, streamOf, query, query, find?_append]
  cases daemon.sessions.find? (·.usb.sessionId = sessionId) with
  | some session => rfl
  | none =>
    rw [find?_singleton]
    split
    · rfl
    · rfl

end

/-! ### No read adds more than it brings -/

/-- What a read can add to a stream. -/
def weight : UsbRead → Nat
  | .bytes data => if isUsbPacketHeader data || jumpAntiquePacket data then 0 else data.length
  | _ => 0

end HdcDaemonUSB

theorem UsbSession.sendToHdcStream_spec (session : UsbSession) (transport : Bytes → Written)
    (appendData : Bytes) :
    (session.sendToHdcStream transport appendData).2.sessionId = session.sessionId ∧
    (session.sendToHdcStream transport appendData).2.stream.length ≤ session.stream.length +
    (if isUsbPacketHeader appendData then 0 else appendData.length) := by
  have reset : ∀ id, (session.preSendUsbSoftReset id).sessionId = session.sessionId ∧
      (session.preSendUsbSoftReset id).stream = session.stream := by
    intro id
    rw [preSendUsbSoftReset]
    split
    · exact ⟨rfl, rfl⟩
    · exact ⟨rfl, rfl⟩
  cases head : isUsbPacketHeader appendData with
  | true =>
    rw [sendToHdcStream_head _ _ head, checkPacketOption]
    split
    · exact ⟨(reset _).1, le_of_eq (congrArg List.length (reset _).2)⟩
    · exact ⟨rfl, le_refl _⟩
  | false =>
    by_cases nothing : session.payloadSize = 0
    · rw [sendToHdcStream_idle _ head nothing]
      refine ⟨(reset 0).1, ?_⟩
      rw [(reset 0).2]
      exact le_add_right _ _
    · have taken : (session.stream ++ appendData.take (transport appendData).passed).length ≤
          session.stream.length + appendData.length := by
        rw [length_append, length_take]
        omega
      rw [sendToHdcStream_body _ head nothing]
      dsimp only
      split
      · exact ⟨rfl, taken⟩
      · exact ⟨rfl, taken⟩

/-- The outside does its part: the stream takes everything, the next read is queued, and a
session that is asked for comes up. -/
structure ReadAnswer.Works (answer : ReadAnswer) : Prop where
  written : answer.stream = .written
  queued : answer.loopOk = true
  comesUp : ∃ pseudoUid, answer.prepare = .up pseudoUid

namespace HdcDaemonUSB

variable {daemon : HdcDaemonUSB} {session : DaemonSession}

/-- What was read goes to one session. -/
theorem streamOf_sendToSession_le
    (behind : session.usb.stream.length ≤ (daemon.streamOf session.usb.sessionId).length)
    (answer : ReadAnswer) (readBuf : Bytes) (sessionId : UInt32) :
    ((daemon.sendToSession session answer readBuf).2.streamOf sessionId).length ≤
    (daemon.streamOf sessionId).length +
    (if isUsbPacketHeader readBuf then 0 else readBuf.length) := by
  have spec := session.usb.sendToHdcStream_spec (usbToHdcProtocol (.daemon answer.stream)) readBuf
  have updated : ∀ d : HdcDaemonUSB, d = daemon.update session.usb.sessionId (fun other =>
        { other with usb := (session.usb.sendToHdcStream
          (usbToHdcProtocol (.daemon answer.stream)) readBuf).2 }) →
      (d.streamOf sessionId).length ≤ (daemon.streamOf sessionId).length +
        (if isUsbPacketHeader readBuf then 0 else readBuf.length) := by
    rintro d rfl
    rw [streamOf, query_update (fun _ _ => spec.1)]
    split
    next same =>
      rw [same]
      rw [streamOf] at behind ⊢
      cases found : daemon.query session.usb.sessionId with
      | none => exact Nat.zero_le _
      | some other =>
        rw [found] at behind
        exact spec.2.trans (Nat.add_le_add_right behind _)
    next => exact Nat.le_add_right _ _
  rw [sendToSession]
  split
  · exact Nat.le_add_right _ _
  · dsimp only
    split
    · exact updated _ rfl
    · exact updated _ rfl

theorem streamOf_query (found : daemon.query id = some session) :
    daemon.streamOf session.usb.sessionId = session.usb.stream := by
  have same : session.usb.sessionId = id := by
    have named := find?_some found
    simpa using named
  rw [streamOf, same, found, Option.map_some, Option.getD_some]

theorem streamOf_endOther (daemon : HdcDaemonUSB) (id sessionId : UInt32) :
    (daemon.endOther id).streamOf sessionId = daemon.streamOf sessionId := by
  rw [endOther]
  split
  · exact streamOf_resetOldSession daemon _ _ _
  · rfl

theorem streamOf_dispatch_le (daemon : HdcDaemonUSB) (id : UInt32) (answer : ReadAnswer)
    (readBuf : Bytes) (sessionId : UInt32) :
    ((daemon.dispatchToWorkThread id answer readBuf).2.streamOf sessionId).length ≤
    (daemon.streamOf sessionId).length +
    (if isUsbPacketHeader readBuf then 0 else readBuf.length) := by
  rw [dispatchToWorkThread, ← streamOf_endOther daemon (daemon.target id) sessionId]
  split
  next session found =>
    exact streamOf_sendToSession_le (le_of_eq (by rw [streamOf_query found])) ..
  next =>
    cases answer.prepare with
    | noSession => exact le_add_right _ _
    | noInfo pseudoUid =>
      refine le_trans (le_of_eq (congrArg List.length ?_)) (le_add_right _ _)
      exact streamOf_append_new ..
    | up pseudoUid =>
      rw [← streamOf_append_new (daemon.endOther (daemon.target id)) (daemon.target id)
        (daemon.target id) pseudoUid sessionId]
      exact streamOf_sendToSession_le (zero_le _) ..

/-- A read adds no more than its weight to any stream. -/
theorem streamOf_readStep_le (daemon : HdcDaemonUSB) (event : UsbRead × ReadAnswer)
    (sessionId : UInt32) :
    ((daemon.readStep event).streamOf sessionId).length ≤
    (daemon.streamOf sessionId).length + weight event.1 := by
  obtain ⟨read, answer⟩ := event
  rw [readStep]
  split
  · exact le_add_right _ _
  cases read with
  | failed =>
    rw [onUSBRead]
    split
    · exact le_add_right _ _
    rw [streamOf_stop, streamOf_adminUsbSession]
    exact le_add_right _ _
  | interrupted =>
    rw [onUSBRead]
    split
    · exact le_add_right _ _
    rw [streamOf_loopUSBRead]
    exact le_add_right _ _
  | bytes data =>
    rw [onUSBRead]
    split
    · exact le_add_right _ _
    split
    · rw [streamOf_loopUSBRead]
      exact le_add_right _ _
    split
    · exact le_add_right _ _
    next modern =>
      have avail : (daemon.availablePacket data).2.2.streamOf sessionId =
          daemon.streamOf sessionId := by
        rw [availablePacket]
        split
        · split
          · exact streamOf_resetOldSession ..
          · rfl
        · rfl
      have heavy : weight (.bytes data) =
          if isUsbPacketHeader data then 0 else data.length := by
        simp [weight, modern]
      have dispatched := streamOf_dispatch_le (daemon.availablePacket data).2.2
        (daemon.availablePacket data).2.1 answer data sessionId
      rw [avail, ← heavy] at dispatched
      dsimp only
      split
      · split
        · rw [streamOf_stop, avail]
          exact le_add_right _ _
        · rw [streamOf_loopUSBRead, avail]
          exact le_add_right _ _
      · split
        · exact dispatched
        · rw [streamOf_loopUSBRead]
          exact dispatched

theorem streamOf_runReads_le (daemon : HdcDaemonUSB) (events : List (UsbRead × ReadAnswer))
    (sessionId : UInt32) :
    ((daemon.runReads events).streamOf sessionId).length ≤
    (daemon.streamOf sessionId).length + ((events.map Prod.fst).map weight).sum := by
  induction events generalizing daemon with
  | nil => exact le_refl _
  | cons event events ih =>
    have step := streamOf_readStep_le daemon event sessionId
    have rest := ih (daemon.readStep event)
    rw [map_cons, map_cons, sum_cons]
    change ((runReads (daemon.readStep event) events).streamOf sessionId).length ≤ _
    omega

/-! ### A session that is up -/

/-- The session is current, alive and expects `payload` bytes; its stream has got `stream`,
and a read is outstanding. -/
structure Standing (daemon : HdcDaemonUSB) (sessionId payload : UInt32) (stream : Bytes) : Prop where
  current : daemon.currentSessionId = sessionId
  alive : daemon.isAlive = true
  reading : daemon.nextReadSize ≠ none
  found : ∃ session, daemon.query sessionId = some session ∧ session.isDead = false ∧
    session.usb.sessionId = sessionId ∧ session.usb.payloadSize = payload ∧
    session.usb.stream = stream

/-- A session that takes `data` and then expects `payload` bytes. -/
def Takes (sessionId : UInt32) (data : Bytes) (payload : UInt32) (stream : Bytes)
    (payload' : UInt32) (stream' : Bytes) : Prop :=
  ∀ usb : UsbSession, usb.sessionId = sessionId → usb.payloadSize = payload → usb.stream = stream →
    ∃ usb' : UsbSession,
      usb.sendToHdcStream (usbToHdcProtocol (.daemon .written)) data = (asInt payload', usb') ∧
        usb'.sessionId = sessionId ∧ usb'.payloadSize = payload' ∧ usb'.stream = stream'

theorem asInt_nonneg {value : UInt32} (small : value.toNat < 2 ^ 31) : 0 ≤ asInt value := by
  rw [asInt, if_pos small]
  exact Int.natCast_nonneg _

variable {answer : ReadAnswer} {data : Bytes}

/-- What is done for the session that was found. -/
theorem sendToSession_standing {sessionId payload payload' : UInt32} {stream stream' : Bytes}
    (current : daemon.currentSessionId = sessionId) (alive : daemon.isAlive = true)
    (found : daemon.query sessionId = some session) (undead : session.isDead = false)
    (mine : session.usb.sessionId = sessionId) (size : session.usb.payloadSize = payload)
    (got : session.usb.stream = stream)
    (takes : Takes sessionId data payload stream payload' stream')
    (small : payload'.toNat < 2 ^ 31) (works : answer.Works) :
    ∃ after, daemon.sendToSession session answer data = (asInt payload', after) ∧
    (after.loopUSBRead (asInt payload') answer).Standing sessionId payload' stream' := by
  obtain ⟨usb', sent, mine', size', got'⟩ := takes session.usb mine size got
  have nonneg := asInt_nonneg small
  refine ⟨daemon.update sessionId fun other => { other with usb := usb' }, ?_, ?_⟩
  · rw [HdcDaemonUSB.sendToSession, undead, if_neg (by decide), works.written, sent, mine]
    rw [if_neg (Int.not_lt.mpr nonneg)]
  · rw [loopUSBRead, works.queued]
    refine ⟨current, alive, nofun, { session with usb := usb' }, ?_, undead, mine', size', got'⟩
    change (daemon.update sessionId _).query sessionId = _
    rw [query_update (fun _ _ => mine'), if_pos rfl, found, Option.map_some]

/-- What `OnUSBRead` does with a buffer that `AvailablePacket` lets through. -/
theorem onUSBRead_bytes (alive : daemon.isAlive = true) (full : data ≠ [])
    (modern : jumpAntiquePacket data = false)
    (available : daemon.availablePacket data = (retSuccess, id, daemon)) {childRet : Int}
    {after : HdcDaemonUSB}
    (dispatched : daemon.dispatchToWorkThread id answer data = (childRet, after))
    (nonneg : 0 ≤ childRet) :
    daemon.onUSBRead (.bytes data) answer = after.loopUSBRead childRet answer := by
  have some : ¬ data.length = 0 := fun none => full (length_eq_zero_iff.mp none)
  rw [onUSBRead, alive, if_neg (by decide), if_neg some, modern, if_neg (by decide), available]
  dsimp only
  rw [if_neg (by decide), dispatched]
  rw [if_neg (Int.not_lt.mpr nonneg)]

/-- One read for a session that is up. A head has to be one of the session's own. -/
theorem Standing.readStep {sessionId payload payload' : UInt32}
    {stream stream' : Bytes} (standing : daemon.Standing sessionId payload stream)
    (full : data ≠ []) (modern : jumpAntiquePacket data = false)
    (named : isUsbPacketHeader data = true → headSessionId data = sessionId ∧
    hasOption (headOption data) usbOptionReset = false)
    (takes : Takes sessionId data payload stream payload' stream')
    (small : payload'.toNat < 2 ^ 31) (works : answer.Works) :
    (daemon.readStep (.bytes data, answer)).Standing sessionId payload' stream' := by
  obtain ⟨current, alive, reading, _, found, undead, mine, size, got⟩ := standing
  obtain ⟨after, sent, next⟩ := sendToSession_standing current alive found undead mine size got
    takes small works
  obtain ⟨id, available, target⟩ : ∃ id, daemon.availablePacket data = (_, id, daemon) ∧
      daemon.target id = sessionId := by
    cases head : isUsbPacketHeader data with
    | true =>
      obtain ⟨own, plain⟩ := named head
      refine ⟨sessionId, ?_, ?_⟩
      · rw [availablePacket, head, if_pos rfl, plain, if_neg (by decide), own]
      · rw [HdcDaemonUSB.target, current, ite_self]
    | false =>
      refine ⟨0, ?_, ?_⟩
      · rw [availablePacket, head, if_neg (by decide)]
      · rw [HdcDaemonUSB.target, if_pos rfl, current]
  have dispatched : daemon.dispatchToWorkThread id answer data = (asInt payload', after) := by
    have stays : daemon.endOther sessionId = daemon := by
      rw [endOther, current, if_neg (fun both => both.2 rfl)]
    rw [dispatchToWorkThread, target, stays, found]
    exact sent
  rw [HdcDaemonUSB.readStep, if_neg reading,
    onUSBRead_bytes alive full modern available dispatched (asInt_nonneg small)]
  exact next

end HdcDaemonUSB

end Hdc.Usb
