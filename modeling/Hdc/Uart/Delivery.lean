import Hdc.Lib.StopAndWait
import Hdc.Uart.Wire

/-!
What the serial link delivers.

For packets of one session each direction is a stop-and-wait link in the sense of
`StopAndWait`: `Carries` relates the two tables, the wires and the counters to a
state of that protocol, and each turn of a thread is one of its steps or none.

* `System.Ok`: what holds in every state, whatever was lost or freed;
* `System.Linked`: as long as the session is not freed at either end and the
  indices have not run out, each direction is in a state of the protocol;
* `delivery_in_order`: what one end dispatches is a prefix of what the other
  submitted.
-/

namespace Hdc.Uart

open List Function Endpoint Hdc.Uart.System UInt32

open Hdc.Session (Build)

/-! ### One direction as a stop-and-wait link -/

/-- The payload of a message, if it has one. -/
def carried (message : UInt32 × UartHead × Bytes) : Option Bytes :=
  if message.2.2 = [] then none else some message.2.2

/-- The indices that the sending end has given out. -/
def indices (link : StopAndWait.State UInt32 (UartHead × Bytes)) (sender : Endpoint) :
    List UInt32 :=
  link.submitted.map Prod.fst ++ sender.sending.map fun call => call.head.packageIndex

/-- A direction of the link as a state of the protocol: packages of the sender's
table are the messages that wait, those on the wire are in flight, and the
responses are on the wire back or in the receiver's table. -/
structure Carries (sender receiver : Endpoint) (out back : List HandleOutputPkg)
    (link : StopAndWait.State UInt32 (UartHead × Bytes)) : Prop where
  todo : link.todo = (normal sender.outPkgs).map HandleOutputPkg.message
  flight : link.flight = (normal out).map HandleOutputPkg.message
  acks : link.acks = (answers (back ++ receiver.outPkgs)).map fun pkg => pkg.head.packageIndex
  last : link.last = receiver.hUART.dispatchedPackageIndex
  got : link.got.filterMap carried = receiver.dispatched
  submitted : link.submitted.filterMap carried = sender.submitted
  nodup : (indices link sender).Nodup
  bound : ∀ i ∈ indices link sender, i ≠ 0 ∧ i.toNat ≤ sender.hUART.packageIndex

/-- As long as neither end has freed the session and the sender's indices fit
their field, the direction follows the protocol. -/
def Linked (sender receiver : Endpoint) (out back : List HandleOutputPkg) : Prop :=
  sender.freed = false → receiver.freed = false → sender.hUART.packageIndex < 2 ^ 32 →
    ∃ link, StopAndWait.Inv 0 link ∧ Carries sender receiver out back link

namespace Linked

variable {sessionId : UInt32} {buffer : Bytes} {sender receiver : Endpoint}
  {out back : List HandleOutputPkg}

section

variable (linked : Linked sender receiver out back)
include linked

/-- A turn of the sender that the protocol does not see. -/
theorem sender_idle {sender' : Endpoint}
    (freed : sender'.freed = false → sender.freed = false)
    (messages : (normal sender'.outPkgs).map HandleOutputPkg.message =
    (normal sender.outPkgs).map HandleOutputPkg.message)
    (submitted : sender'.submitted = sender.submitted) (sending : sender'.sending = sender.sending)
    (packageIndex : sender'.hUART.packageIndex = sender.hUART.packageIndex) :
    Linked sender' receiver out back := by
  intro senderLive receiverLive fits
  obtain ⟨link, inv, carries⟩ := linked (freed senderLive) receiverLive (packageIndex ▸ fits)
  have same : indices link sender' = indices link sender := by rw [indices, indices, sending]
  exact ⟨_, inv, { carries with
    todo := carries.todo.trans messages.symm
    submitted := carries.submitted.trans submitted.symm
    nodup := same ▸ carries.nodup
    bound := by rw [same, packageIndex]; exact carries.bound }⟩

variable {back' : List HandleOutputPkg}

/-- A turn of the receiver that the protocol does not see; responses may move from
its table to the wire. -/
theorem receiver_idle {receiver' : Endpoint}
    (freed : receiver'.freed = false → receiver.freed = false)
    (responses : answers (back' ++ receiver'.outPkgs) = answers (back ++ receiver.outPkgs))
    (dispatched : receiver'.dispatched = receiver.dispatched)
    (index : receiver'.hUART.dispatchedPackageIndex = receiver.hUART.dispatchedPackageIndex) :
    Linked sender receiver' out back' := by
  intro senderLive receiverLive fits
  obtain ⟨_, inv, carries⟩ := linked senderLive (freed receiverLive) fits
  exact ⟨_, inv, { carries with
    acks := by rw [responses]; exact carries.acks
    last := carries.last.trans index.symm
    got := carries.got.trans dispatched.symm }⟩

/-- Packets of the wrong kind on a wire do not count. -/
theorem of_wires {out' : List HandleOutputPkg}
    (data : normal out' = normal out) (responses : answers back' = answers back) :
    Linked sender receiver out' back' := by
  intro senderLive receiverLive fits
  obtain ⟨_, inv, carries⟩ := linked senderLive receiverLive fits
  exact ⟨_, inv, { carries with
    flight := data ▸ carries.flight
    acks := by rw [answers_append, responses, ← answers_append]; exact carries.acks }⟩

/-- Packets to the receiver get lost. -/
theorem lose_out {out' : List HandleOutputPkg}
    (kept : out'.Sublist out) : Linked sender receiver out' back := by
  intro senderLive receiverLive fits
  obtain ⟨link, inv, carries⟩ := linked senderLive receiverLive fits
  have data : ((normal out').map HandleOutputPkg.message).Sublist link.flight := by
    rw [carries.flight]
    exact (kept.filter _).map _
  exact ⟨_, (StopAndWait.Step.loseData data).inv inv, { carries with flight := rfl }⟩

/-- Packets back to the sender get lost. -/
theorem lose_back (kept : back'.Sublist back) : Linked sender receiver out back' := by
  intro senderLive receiverLive fits
  obtain ⟨link, inv, carries⟩ := linked senderLive receiverLive fits
  have responses : ((answers (back' ++ receiver.outPkgs)).map
      fun pkg => pkg.head.packageIndex).Sublist link.acks := by
    rw [carries.acks]
    exact ((kept.append_right _).filter _).map _
  exact ⟨_, (StopAndWait.Step.loseAck responses).inv inv, { carries with acks := rfl }⟩

end

/-- The next index is new as long as it fits its field. -/
theorem next_index {link : StopAndWait.State UInt32 (UartHead × Bytes)}
    (carries : Carries sender receiver out back link)
    (fits : sender.hUART.packageIndex + 1 < 2 ^ 32) :
    (ofNat (sender.hUART.packageIndex + 1) :: indices link sender).Nodup ∧
    ∀ i ∈ ofNat (sender.hUART.packageIndex + 1) :: indices link sender,
    i ≠ 0 ∧ i.toNat ≤ sender.hUART.packageIndex + 1 := by
  have value : (ofNat (sender.hUART.packageIndex + 1)).toNat =
      sender.hUART.packageIndex + 1 :=
    (toNat_ofNat' ..).trans (Nat.mod_eq_of_lt fits)
  refine ⟨nodup_cons.mpr ⟨fun old => ?_, carries.nodup⟩, fun i mem => ?_⟩
  · have := (carries.bound _ old).2
    omega
  · rcases mem_cons.mp mem with rfl | old
    · refine ⟨fun zero => ?_, Nat.le_of_eq value⟩
      rw [zero] at value
      cases value
    · exact ⟨(carries.bound i old).1, Nat.le_succ_of_le (carries.bound i old).2⟩

/-- `SendUARTData` begins its next package. -/
theorem beginPackage (linked : Linked sender receiver out back) (data : Bytes) :
    Linked (sender.beginPackage data) receiver out back := by
  intro senderLive receiverLive fits
  obtain ⟨link, inv, carries⟩ := linked senderLive receiverLive (Nat.lt_of_succ_lt fits)
  obtain ⟨distinct, bound⟩ := next_index carries fits
  have given : (indices link (sender.beginPackage data)).Perm
      (ofNat (sender.hUART.packageIndex + 1) :: indices link sender) := by
    simpa [indices, Endpoint.beginPackage, Endpoint.nextPackage, Sending.next, UartHead.new] using
      perm_append_singleton _ (indices link sender)
  exact ⟨_, inv, { carries with
    nodup := given.nodup_iff.mpr distinct
    bound := fun i mem => bound i (given.mem_iff.mp mem) }⟩

/-- A package with a new index goes to the end of the sender's table. -/
theorem push {link : StopAndWait.State UInt32 (UartHead × Bytes)} (inv : StopAndWait.Inv 0 link)
    (carries : Carries sender receiver out back link) {sender' : Endpoint} {head : UartHead}
    {payload : Bytes}
    (orderly : Orderly sessionId sender.outPkgs) (made : head.Made sessionId payload)
    (kind : head.isResponsePackage = false)
    (outPkgs : sender'.outPkgs = requestSendPackage sender.outPkgs head payload)
    (submitted : sender'.submitted =
    sender.submitted ++ if payload = [] then [] else [payload])
    (given : (link.submitted.map Prod.fst ++ head.packageIndex ::
    sender'.sending.map fun call => call.head.packageIndex).Nodup)
    (bound : ∀ i ∈ link.submitted.map Prod.fst ++ head.packageIndex ::
    sender'.sending.map (fun call => call.head.packageIndex),
    i ≠ 0 ∧ i.toNat ≤ sender'.hUART.packageIndex) :
    ∃ link, StopAndWait.Inv 0 link ∧ Carries sender' receiver out back link := by
  have fresh : head.packageIndex ∉ link.submitted.map Prod.fst := fun old =>
    (nodup_append.mp given).2.2 _ old _ mem_cons_self rfl
  have used := (bound _ (mem_append_right _ mem_cons_self)).1
  have index : (head.updateCheckSum payload).packageIndex = head.packageIndex :=
    (updateCheckSum_fields head payload).2.1
  have response : (HandleOutputPkg.new (head.updateCheckSum payload) payload).response = false :=
    (isResponsePackage_updateCheckSum head payload).trans kind
  have apart : head.packageIndex ∉ (normal sender.outPkgs).map fun pkg => pkg.head.packageIndex := by
    intro queued
    refine fresh ?_
    rw [StopAndWait.State.submitted, carries.todo, map_append, map_map]
    exact mem_append_right _ queued
  have table : normal sender'.outPkgs =
      normal sender.outPkgs ++ [HandleOutputPkg.new (head.updateCheckSum payload) payload] := by
    rw [outPkgs, requestSendPackage_granted orderly made kind apart, normal_append, normal_cons,
      response]
    rfl
  let message : UInt32 × UartHead × Bytes :=
    (HandleOutputPkg.new (head.updateCheckSum payload) payload).message
  have number : message.1 = head.packageIndex := index
  have whole : ({ link with todo := link.todo ++ [message] } :
      StopAndWait.State UInt32 (UartHead × Bytes)).submitted = link.submitted ++ [message] := by
    simp [StopAndWait.State.submitted]
  have all : indices { link with todo := link.todo ++ [message] } sender' =
      link.submitted.map Prod.fst ++ head.packageIndex ::
        sender'.sending.map fun call => call.head.packageIndex := by
    rw [indices, whole, map_append, append_assoc, map_singleton, number]
    rfl
  refine ⟨_, StopAndWait.Step.inv (.submit _ (number ▸ fresh) (number ▸ used)) inv,
    { carries with todo := ?_, submitted := ?_, nodup := all ▸ given, bound := ?_ }⟩
  · rw [table, map_append, carries.todo]
    rfl
  · rw [whole, filterMap_append, carries.submitted, submitted]
    by_cases empty : payload = []
    · simp [carried, message, HandleOutputPkg.message, HandleOutputPkg.new, empty]
    · simp [carried, message, HandleOutputPkg.message, HandleOutputPkg.new, empty]
  · rw [all]
    exact bound

/-- The slot goes to a waiting call. -/
theorem takeSlot (linked : Linked sender receiver out back) (ok : sender.Ok sessionId buffer)
    (i : Nat) : Linked (sender.takeSlot i) receiver out back := by
  unfold Endpoint.takeSlot
  split
  case h_2 => exact linked
  case h_1 call _ waits =>
    obtain ⟨made, some⟩ := ok.sending call (mem_of_getElem? waits)
    have kind := Bool.eq_false_iff.mpr fun kind => some (made.answer kind).2.2
    have asked : Linked
        { sender with
          sending := sender.sending.eraseIdx i
          slot := true
          outPkgs := requestSendPackage sender.outPkgs call.head call.payload
          submitted := sender.submitted ++ [call.payload] } receiver out back := by
      intro senderLive receiverLive fits
      obtain ⟨link, inv, carries⟩ := linked senderLive receiverLive fits
      -- The index moves from the waiting calls to the submitted packages.
      have moved : (indices link sender).Perm (link.submitted.map Prod.fst ++
          call.head.packageIndex :: (sender.sending.eraseIdx i).map
            fun call => call.head.packageIndex) := by
        obtain ⟨within, at'⟩ := List.getElem?_eq_some_iff.mp waits
        have taken := getElem_cons_eraseIdx_perm within
        rw [at'] at taken
        exact (taken.symm.map fun call => call.head.packageIndex).append_left _
      exact push inv carries ok.orderly made kind rfl (by rw [if_neg some])
        (moved.nodup_iff.mp carries.nodup) fun index mem =>
        carries.bound index (moved.mem_iff.mpr mem)
    simp only [Endpoint.request]
    split
    · exact asked
    · exact asked.beginPackage _

/-- The sender asks for its peer's session to be freed. -/
theorem requestFree (linked : Linked sender receiver out back) (ok : sender.Ok sessionId buffer) :
    Linked sender.requestFree receiver out back := by
  intro senderLive receiverLive fits
  obtain ⟨link, inv, carries⟩ := linked senderLive receiverLive (Nat.lt_of_succ_lt fits)
  obtain ⟨distinct, bound⟩ := next_index carries fits
  refine push inv carries ok.orderly (ok.session ▸ free_made _ _)
    (by rw [isResponsePackage_new]; decide) rfl
    (by simp [Endpoint.requestFree, Endpoint.responseUartTrans])
    (perm_middle.nodup_iff.mpr distinct) fun i mem => bound i (perm_middle.mem_iff.mp mem)

variable {ep : Endpoint}

theorem freed_of_lost (ok : ep.Ok sessionId buffer) (lost : ¬ ep.found = true) : ep.freed = true := by
  cases freed : ep.freed with
  | true => rfl
  | false => exact absurd (ok.found freed) lost

/-- A transfer error frees a session that was not freed before. -/
theorem onTransferError_freed (ok : ep.Ok sessionId buffer) : ep.onTransferError.freed = true := by
  unfold onTransferError
  split
  · rfl
  case isFalse lost => exact freed_of_lost ok lost

/-- Once freed, a session of either end has no obligations. -/
theorem of_sender_freed (freed : sender.freed = true) : Linked sender receiver out back :=
  fun live => absurd (freed.symm.trans live) (by decide)

theorem of_receiver_freed (freed : receiver.freed = true) : Linked sender receiver out back :=
  fun _ live => absurd (freed.symm.trans live) (by decide)

/-- A pass of the writing thread frees the session, or changes the table only. -/
theorem pass_cases (ok : ep.Ok sessionId buffer) (written : HandleOutputPkg → Int) (now : Nat) :
    ∃ pass, Passed ep.outPkgs pass ∧ (ep.sendPkgInUARTOutMap written now).2 = pass.sent ∧
    ((ep.sendPkgInUARTOutMap written now).1.freed = true ∨
    (ep.sendPkgInUARTOutMap written now).1 = { ep with outPkgs := pass.outPkgs }) := by
  have passed := sendLoop_pass (ep.sendUARTRaw written) now ep.outPkgs ok.orderly
  refine ⟨_, passed, rfl, ?_⟩
  simp only [sendPkgInUARTOutMap]
  split
  · exact .inl (onTransferError_freed { ok with orderly := ok.orderly.passed passed })
  · exact .inr rfl

/-- The sender's writing thread makes a pass. -/
theorem write_sender (linked : Linked sender receiver out back) (ok : sender.Ok sessionId buffer)
    (written : HandleOutputPkg → Int) (now : Nat) :
    Linked (sender.sendPkgInUARTOutMap written now).1 receiver
    (out ++ (sender.sendPkgInUARTOutMap written now).2) back := by
  obtain ⟨pass, passed, sent, freed | same⟩ := pass_cases ok written now
  · exact of_sender_freed freed
  · rw [same, sent]
    have idle : Linked { sender with outPkgs := pass.outPkgs } receiver out back :=
      linked.sender_idle id passed.messages rfl rfl rfl
    rcases passed.data with none | ⟨first, isFirst, one⟩
    · exact idle.of_wires (by rw [normal_append, none, append_nil]) rfl
    · intro senderLive receiverLive fits
      obtain ⟨link, inv, carries⟩ := idle senderLive receiverLive fits
      have waits : link.todo.head? = some first.message := by
        rw [carries.todo, passed.messages, head?_map, isFirst]
        rfl
      refine ⟨_, (StopAndWait.Step.send waits).inv inv, { carries with flight := ?_ }⟩
      rw [normal_append, one, map_append, carries.flight]
      rfl

/-- The receiver's writing thread makes a pass. -/
theorem write_receiver (linked : Linked sender receiver out back)
    (ok : receiver.Ok sessionId buffer) (written : HandleOutputPkg → Int) (now : Nat) :
    Linked sender (receiver.sendPkgInUARTOutMap written now).1 out
    (back ++ (receiver.sendPkgInUARTOutMap written now).2) := by
  obtain ⟨pass, passed, sent, freed | same⟩ := pass_cases ok written now
  · exact of_receiver_freed freed
  · rw [same, sent]
    refine linked.receiver_idle id ?_ rfl rfl
    rw [answers_append, answers_append, answers_append, append_assoc]
    exact congrArg _ passed.answers

/-! ### Packets arrive -/

theorem dispatchPackageData_freed (ep : Endpoint) (accept : Nat → Bool) (packageIndex : UInt32)
    (payload : Bytes) : (ep.dispatchPackageData accept packageIndex payload).freed = ep.freed := by
  simp only [dispatchPackageData]
  split
  · rfl
  · split <;> rfl

theorem prepareSession_freed (ep : Endpoint) : ep.prepareSession.freed = ep.freed := by
  unfold prepareSession
  split <;> rfl

/-- A packet frees the session if it asks for that. -/
theorem live_of_receive {pkg : HandleOutputPkg} {accept : Nat → Bool} (ok : ep.Ok sessionId buffer)
    (live : (ep.receive accept pkg).freed = false) :
    ep.freed = false ∧ pkg.head.has .free = false := by
  rw [← Bool.or_eq_false_iff, ← live]
  symm
  have restarted : (if pkg.head.has .free then ep.restartession else ep).freed =
      (ep.freed || pkg.head.has .free) := by
    cases pkg.head.has .free with
    | false => simp
    | true =>
      simp only [if_true, Bool.or_true, restartession]
      split
      · rfl
      case isFalse lost => exact freed_of_lost ok lost
  rw [← restarted]
  simp only [receive]
  generalize (if pkg.head.has .free then ep.restartession else ep) = ep₁
  have kept : (if pkg.head.isResponsePackage then ep₁.processResponse pkg.head
      else ep₁.responseUartTrans pkg.head.packageIndex .ack).freed = ep₁.freed := by
    split <;> rfl
  split
  · exact kept
  · rw [dispatchPackageData_freed, prepareSession_freed, kept]

variable {pkg : HandleOutputPkg}

/-- A response arrives. -/
theorem receive_answer (ep : Endpoint) (accept : Nat → Bool) (formed : pkg.WellFormed sessionId)
    (kind : pkg.response = true) : ep.receive accept pkg = ep.processResponse pkg.head := by
  obtain ⟨-, free, empty⟩ := formed.answer kind
  have kind : pkg.head.isResponsePackage = true := kind
  simp [receive, free, kind, empty]

/-- Data arrives at an end whose session is there. -/
theorem receive_data (found : ep.found = true) (accept : Nat → Bool)
    (formed : pkg.WellFormed sessionId) (kind : pkg.response = false)
    (free : pkg.head.has .free = false) :
    pkg.payload ≠ [] ∧ ep.receive accept pkg =
    (ep.responseUartTrans pkg.head.packageIndex .ack).dispatchPackageData accept
    pkg.head.packageIndex pkg.payload := by
  have some : pkg.payload ≠ [] := by
    intro empty
    rw [(formed.data kind).mpr empty] at free
    cases free
  have kind : pkg.head.isResponsePackage = false := kind
  simp [receive, free, kind, some, prepareSession, responseUartTrans,
    found]

/-- A response from the table is an ACK for its packet. -/
theorem ack_table (ep : Endpoint) (packageIndex : UInt32) :
    normal (ep.responseUartTrans packageIndex .ack).outPkgs = normal ep.outPkgs ∧
    ((answers (ep.responseUartTrans packageIndex .ack).outPkgs).map
    (fun pkg => pkg.head.packageIndex) =
    (answers ep.outPkgs).map (fun pkg => pkg.head.packageIndex) ∨
    (answers (ep.responseUartTrans packageIndex .ack).outPkgs).map
    (fun pkg => pkg.head.packageIndex) =
    (answers ep.outPkgs).map (fun pkg => pkg.head.packageIndex) ++ [packageIndex]) := by
  have kind : (UartHead.new ep.sessionId UartProtocolOption.ack.bit 0
      packageIndex).isResponsePackage = true := by
    rw [isResponsePackage_new]
    decide
  obtain ⟨others, same | added⟩ := @requestSendPackage_answer ep.outPkgs [] _ kind
  · exact ⟨others, .inl (congrArg _ same)⟩
  · refine ⟨others, .inr ?_⟩
    rw [responseUartTrans, added, map_append]
    exact congrArg (_ ++ [·]) (updateCheckSum_fields _ _).2.1

/-- What the sender dispatches is not seen in its own direction; if that fails, it
asks for the peer's session to be freed. -/
theorem dispatch_sender (linked : Linked sender receiver out back) (ok : sender.Ok sessionId buffer)
    (accept : Nat → Bool) (packageIndex : UInt32) (payload : Bytes) :
    Linked (sender.dispatchPackageData accept packageIndex payload) receiver out back := by
  have given : Linked
      { sender with
        hUART := { sender.hUART with dispatchedPackageIndex := packageIndex }
        dispatched := sender.dispatched ++ [payload] } receiver out back :=
    linked.sender_idle id rfl rfl rfl rfl
  have givenOk : Endpoint.Ok sessionId buffer
      { sender with
        hUART := { sender.hUART with dispatchedPackageIndex := packageIndex }
        dispatched := sender.dispatched ++ [payload] } := { ok with }
  simp only [dispatchPackageData]
  split
  · exact linked
  · split
    · exact given
    · exact given.requestFree givenOk

/-- A packet arrives at the sending end. -/
theorem receive_sender (linked : Linked sender receiver out (pkg :: back))
    (ok : sender.Ok sessionId buffer) (formed : pkg.WellFormed sessionId) (accept : Nat → Bool) :
    Linked (sender.receive accept pkg) receiver out back := by
  intro senderLive
  obtain ⟨notFreed, notFree⟩ := live_of_receive ok senderLive
  revert senderLive
  cases kind : pkg.response with
  | true =>
    -- An ACK takes the package it names from the table.
    have table := processResponsePackage_ack formed.session (formed.answer kind).1 sender.outPkgs
      ok.orderly.formed
    rw [receive_answer sender accept formed kind]
    intro _ receiverLive fits
    obtain ⟨link, inv, carries⟩ := linked notFreed receiverLive fits
    have arrived : link.acks = pkg.head.packageIndex ::
        (answers (back ++ receiver.outPkgs)).map fun pkg => pkg.head.packageIndex := by
      rw [carries.acks, cons_append, answers_cons, kind]
      rfl
    have erased : (link.todo.eraseP fun x => x.1 = pkg.head.packageIndex) =
        (normal (processResponsePackage pkg.head sender.outPkgs)).map HandleOutputPkg.message := by
      rw [table.2, carries.todo, eraseP_map]
      rfl
    have whole := inv.ack_submitted (arrived ▸ mem_cons_self)
    refine ⟨_, (StopAndWait.Step.ack arrived).inv inv,
      { carries with todo := erased, acks := rfl, submitted := ?_, nodup := ?_, bound := ?_ }⟩
    · rw [StopAndWait.State.submitted, whole]
      exact carries.submitted
    · rw [indices, StopAndWait.State.submitted, whole]
      exact carries.nodup
    · rw [indices, StopAndWait.State.submitted, whole]
      exact carries.bound
  | false =>
    obtain ⟨-, received⟩ := receive_data (ok.found notFreed) accept formed kind notFree
    rw [received]
    have responses : answers back = answers (pkg :: back) := by
      rw [answers_cons, kind]
      rfl
    have idle := linked.of_wires rfl responses
    have acked : Linked (sender.responseUartTrans pkg.head.packageIndex .ack) receiver out back :=
      idle.sender_idle id (congrArg _ (ack_table sender pkg.head.packageIndex).1) rfl rfl rfl
    exact acked.dispatch_sender (ok.responseAck _) _ _ _

theorem answers_requestFree (ep : Endpoint) : answers ep.requestFree.outPkgs = answers ep.outPkgs :=
  answers_requestSendPackage _ (by rw [isResponsePackage_new]; decide)

/-- What a dispatch shows to the other end. -/
theorem dispatchPackageData_seen (ep : Endpoint) (accept : Nat → Bool) (packageIndex : UInt32)
    (payload : Bytes) :
    (ep.dispatchPackageData accept packageIndex payload).hUART.dispatchedPackageIndex =
        packageIndex ∧
      (ep.dispatchPackageData accept packageIndex payload).dispatched =
        (if ep.hUART.dispatchedPackageIndex = packageIndex then ep.dispatched
          else ep.dispatched ++ [payload]) ∧
      answers (ep.dispatchPackageData accept packageIndex payload).outPkgs = answers ep.outPkgs := by
  unfold dispatchPackageData
  by_cases again : ep.hUART.dispatchedPackageIndex = packageIndex
  · rw [if_pos again, if_pos again]
    exact ⟨again, rfl, rfl⟩
  · rw [if_neg again]
    split
    · exact ⟨rfl, rfl, rfl⟩
    · exact ⟨rfl, rfl, answers_requestFree _⟩

/-- A packet arrives at the receiving end. -/
theorem receive_receiver (linked : Linked sender receiver (pkg :: out) back)
    (ok : receiver.Ok sessionId buffer) (formed : pkg.WellFormed sessionId) (accept : Nat → Bool) :
    Linked sender (receiver.receive accept pkg) out back := by
  intro senderLive receiverLive
  obtain ⟨notFreed, notFree⟩ := live_of_receive ok receiverLive
  revert receiverLive
  revert senderLive
  cases kind : pkg.response with
  | true =>
    have table := processResponsePackage_ack formed.session (formed.answer kind).1 receiver.outPkgs
      ok.orderly.formed
    rw [receive_answer receiver accept formed kind]
    have data : normal out = normal (pkg :: out) := by
      rw [normal_cons, kind]
      rfl
    refine (linked.of_wires data rfl).receiver_idle id ?_ rfl rfl
    rw [answers_append, answers_append]
    exact congrArg _ table.1
  | false =>
    obtain ⟨some, received⟩ := receive_data (ok.found notFreed) accept formed kind notFree
    rw [received]
    intro senderLive _ fits
    obtain ⟨link, inv, carries⟩ := linked senderLive notFreed fits
    have arrived : link.flight = pkg.message :: (normal out).map HandleOutputPkg.message := by
      rw [carries.flight, normal_cons, kind]
      rfl
    obtain ⟨-, responses⟩ := ack_table receiver pkg.head.packageIndex
    have answered : (answers (back ++ (receiver.responseUartTrans pkg.head.packageIndex
          .ack).outPkgs)).map (fun pkg => pkg.head.packageIndex) = link.acks ∨
        (answers (back ++ (receiver.responseUartTrans pkg.head.packageIndex .ack).outPkgs)).map
          (fun pkg => pkg.head.packageIndex) = link.acks ++ [pkg.message.1] := by
      rw [carries.acks, answers_append, answers_append, map_append, map_append,
        append_assoc]
      exact responses.imp (congrArg _) (congrArg _)
    have stepped := (StopAndWait.Step.receive arrived answered).inv inv
    obtain ⟨index, given, others⟩ := dispatchPackageData_seen
      (receiver.responseUartTrans pkg.head.packageIndex .ack) accept pkg.head.packageIndex pkg.payload
    have responses : answers (back ++ ((receiver.responseUartTrans pkg.head.packageIndex
        .ack).dispatchPackageData accept pkg.head.packageIndex pkg.payload).outPkgs) =
        answers (back ++ (receiver.responseUartTrans pkg.head.packageIndex .ack).outPkgs) := by
      rw [answers_append, answers_append, others]
    refine ⟨_, stepped, { carries with flight := rfl, acks := ?_, last := index.symm, got := ?_ }⟩
    · exact (congrArg (List.map _) responses).symm
    · rw [given]
      show List.filterMap carried (if link.last = pkg.head.packageIndex then link.got
        else link.got ++ [pkg.message]) = if receiver.hUART.dispatchedPackageIndex =
          pkg.head.packageIndex then receiver.dispatched else receiver.dispatched ++ [pkg.payload]
      rw [carries.last, ← carries.got]
      split
      · rfl
      · rw [filterMap_append]
        simp [carried, HandleOutputPkg.message, some]

/-- Packets arrive at the sending end one after the other. -/
theorem receives_sender (accept : Nat → Bool) (pkgs : List HandleOutputPkg)
    (linked : Linked sender receiver out (pkgs ++ back)) (ok : sender.Ok sessionId buffer)
    (formed : ∀ pkg ∈ pkgs, pkg.WellFormed sessionId) :
    Linked (pkgs.foldl (receive accept) sender) receiver out back := by
  induction pkgs generalizing sender with
  | nil => exact linked
  | cons pkg pkgs ih =>
    have mine := formed _ mem_cons_self
    exact ih (linked.receive_sender ok mine _) (ok.receive _ mine) fun other mem =>
      formed other (mem_cons_of_mem _ mem)

/-- Packets arrive at the receiving end one after the other. -/
theorem receives_receiver (accept : Nat → Bool) (pkgs : List HandleOutputPkg)
    (linked : Linked sender receiver (pkgs ++ out) back) (ok : receiver.Ok sessionId buffer)
    (formed : ∀ pkg ∈ pkgs, pkg.WellFormed sessionId) :
    Linked sender (pkgs.foldl (receive accept) receiver) out back := by
  induction pkgs generalizing receiver with
  | nil => exact linked
  | cons pkg pkgs ih =>
    have mine := formed _ mem_cons_self
    exact ih (linked.receive_receiver ok mine _) (ok.receive _ mine) fun other mem =>
      formed other (mem_cons_of_mem _ mem)

/-- A call of `SendUARTData` at the receiving end. -/
theorem takeSlot_receiver (linked : Linked sender receiver out back)
    (ok : receiver.Ok sessionId buffer) (i : Nat) :
    Linked sender (receiver.takeSlot i) out back := by
  unfold Endpoint.takeSlot
  split
  case h_2 => exact linked
  case h_1 call _ waits =>
    obtain ⟨made, some⟩ := ok.sending call (mem_of_getElem? waits)
    have kind := Bool.eq_false_iff.mpr fun kind => some (made.answer kind).2.2
    have responses := @answers_requestSendPackage receiver.outPkgs call.payload _ kind
    have same : ∀ outPkgs, answers outPkgs = answers receiver.outPkgs →
        answers (back ++ outPkgs) = answers (back ++ receiver.outPkgs) := by
      intro outPkgs equal
      rw [answers_append, answers_append, equal]
    simp only [Endpoint.request]
    split
    · exact linked.receiver_idle id (same _ responses) rfl rfl
    · exact linked.receiver_idle id (same _ responses) rfl rfl

end Linked

/-! ### Runs -/

/-- What holds in every state, whatever was lost or freed. -/
structure System.Ok (sessionId : UInt32) (sys : System) : Prop where
  ep : ∀ side, (sys.ep side).Ok sessionId ((bytesOf (sys.wire side)).take (sys.offset side))
  wire : ∀ side, ∀ pkg ∈ sys.wire side, pkg.WellFormed sessionId
  inside : ∀ side, Inside (sys.offset side) (sys.wire side)

/-- Both directions follow the protocol. -/
def System.Linked (sys : System) : Prop :=
  ∀ side, Uart.Linked (sys.ep side) (sys.ep (otherEnd side)) (sys.wire (otherEnd side))
    (sys.wire side)

theorem System.start_ok (sessionId : UInt32) : (start sessionId).Ok sessionId :=
  ⟨fun side => .new side _, fun _ _ mem => absurd mem not_mem_nil, fun _ => rfl⟩

theorem System.start_linked (sessionId : UInt32) : (start sessionId).Linked := by
  intro side _ _ _
  exact ⟨.initial 0, .initial 0, rfl, rfl, rfl, rfl, rfl, rfl, nodup_nil,
    fun _ mem => absurd mem not_mem_nil⟩

/-- The two directions, seen from one end. -/
theorem System.linked_iff (sys : System) (side : Build) : sys.Linked ↔
    Uart.Linked (sys.ep side) (sys.ep (otherEnd side)) (sys.wire (otherEnd side)) (sys.wire side) ∧
    Uart.Linked (sys.ep (otherEnd side)) (sys.ep side) (sys.wire side)
    (sys.wire (otherEnd side)) := by
  constructor
  · intro linked
    have back := linked (otherEnd side)
    rw [otherEnd_otherEnd] at back
    exact ⟨linked _, back⟩
  · rintro ⟨there, back⟩ end'
    rcases eq_or_eq_otherEnd side end' with rfl | rfl
    · exact there
    · rw [otherEnd_otherEnd]
      exact back

variable {ep : Endpoint} {sessionId : UInt32} {sys : System}

/-- A turn at one end and the wire to it. -/
theorem System.Ok.update (ok : sys.Ok sessionId) (side : Build) {wire : List HandleOutputPkg}
    {offset : Nat} (epOk : ep.Ok sessionId ((bytesOf wire).take offset))
    (formed : ∀ pkg ∈ wire, pkg.WellFormed sessionId) (inside : Inside offset wire) :
    System.Ok sessionId ⟨Function.update sys.ep side ep, Function.update sys.wire side wire,
      Function.update sys.offset side offset⟩ := by
  refine ⟨fun end' => ?_, fun end' => ?_, fun end' => ?_⟩
  all_goals by_cases same : end' = side
  · subst same
    simpa only [update_self] using epOk
  · simpa only [update_of_ne same] using ok.ep end'
  · subst same
    simpa only [update_self] using formed
  · simpa only [update_of_ne same] using ok.wire end'
  · subst same
    simpa only [update_self] using inside
  · simpa only [update_of_ne same] using ok.inside end'

/-- A turn at one end that touches no wire. -/
theorem System.Ok.setEp (ok : sys.Ok sessionId) (side : Build)
    (epOk : ep.Ok sessionId ((bytesOf (sys.wire side)).take (sys.offset side))) :
    (sys.setEp side ep).Ok sessionId := by
  simpa only [System.setEp, update_eq_self] using ok.update side epOk (ok.wire _) (ok.inside _)

theorem System.Linked.setEp (side : Build)
    (asSender : Uart.Linked ep (sys.ep (otherEnd side)) (sys.wire (otherEnd side)) (sys.wire side))
    (asReceiver : Uart.Linked (sys.ep (otherEnd side)) ep (sys.wire side)
    (sys.wire (otherEnd side))) : (sys.setEp side ep).Linked := by
  rw [System.linked_iff _ side]
  simp only [System.setEp, update_self, update_of_ne (otherEnd_ne side)]
  exact ⟨asSender, asReceiver⟩

theorem inside_zero (pkgs : List HandleOutputPkg) : Inside 0 pkgs := by
  cases pkgs with
  | nil => exact rfl
  | cons pkg pkgs =>
    show 0 < (pkg.head.toBytes ++ pkg.payload).length
    rw [length_append, length_toBytes, headSize]
    omega

/-- More packets behind those on the wire. -/
theorem Inside.append {offset : Nat} {pkgs : List HandleOutputPkg} (inside : Inside offset pkgs)
    (more : List HandleOutputPkg) : Inside offset (pkgs ++ more) ∧
    (bytesOf (pkgs ++ more)).take offset = (bytesOf pkgs).take offset := by
  cases pkgs with
  | nil =>
    have zero := inside
    subst zero
    exact ⟨inside_zero _, rfl⟩
  | cons pkg pkgs =>
    exact ⟨inside, (take_bytesOf inside _).trans (take_bytesOf inside _).symm⟩

/-- A packet that no read has begun is lost. -/
theorem Inside.eraseIdx {offset i : Nat} {pkgs : List HandleOutputPkg} (inside : Inside offset pkgs)
    (notBegun : 0 < i ∨ offset = 0) : Inside offset (pkgs.eraseIdx i) ∧
    (bytesOf (pkgs.eraseIdx i)).take offset = (bytesOf pkgs).take offset := by
  rcases notBegun with behind | rfl
  · cases pkgs with
    | nil => exact ⟨inside, rfl⟩
    | cons pkg pkgs =>
      obtain ⟨j, rfl⟩ := Nat.exists_eq_succ_of_ne_zero (Nat.pos_iff_ne_zero.mp behind)
      exact ⟨inside, (take_bytesOf inside _).trans (take_bytesOf inside _).symm⟩
  · exact ⟨inside_zero _, rfl⟩

/-- What a pass writes is well formed. -/
theorem sent_wellFormed {buffer : Bytes} (ok : ep.Ok sessionId buffer)
    (written : HandleOutputPkg → Int) (now : Nat) :
    ∀ pkg ∈ (ep.sendPkgInUARTOutMap written now).2, pkg.WellFormed sessionId := by
  intro pkg mem
  have passed := sendLoop_pass (ep.sendUARTRaw written) now ep.outPkgs ok.orderly
  exact ok.orderly.formed _ (passed.sent _ mem)

theorem System.Ok.write (ok : sys.Ok sessionId) (side : Build) (written : HandleOutputPkg → Int)
    (now : Nat) : (sys.step (.write side written now)).Ok sessionId := by
  have passed := (ok.ep side).sendPkgInUARTOutMap written now
  have sent := sent_wellFormed (ok.ep side) written now
  obtain ⟨inside, begun⟩ := (ok.inside (otherEnd side)).append ((sys.ep side).sendPkgInUARTOutMap written now).2
  have wire := ok.update (otherEnd side) (begun ▸ ok.ep _)
    (fun pkg mem => (mem_append.mp mem).elim (ok.wire _ _) (sent _)) inside
  rw [update_eq_self, update_eq_self] at wire
  refine wire.setEp side ?_
  simpa only [update_of_ne (otherEnd_ne side).symm] using passed

theorem System.Linked.write (linked : sys.Linked) (ok : sys.Ok sessionId) (side : Build)
    (written : HandleOutputPkg → Int) (now : Nat) :
    (sys.step (.write side written now)).Linked := by
  obtain ⟨there, back⟩ := (sys.linked_iff side).mp linked
  rw [System.linked_iff _ side]
  simp only [System.step, System.setEp, update_self,
    update_of_ne (otherEnd_ne side), update_of_ne (otherEnd_ne side).symm]
  exact ⟨there.write_sender (ok.ep _) _ _, back.write_receiver (ok.ep _) _ _⟩

/-- A read and what it leaves on the wire. -/
theorem System.Ok.read (ok : sys.Ok sessionId) (side : Build) (count : Nat) (accept : Nat → Bool) :
    (sys.step (.read side count accept)).Ok sessionId := by
  simp only [step]
  split
  case isFalse => exact ok
  case isTrue =>
    obtain ⟨whole, left, inside, read⟩ := @readUart_packets accept _ _
      (fun pkg mem => (ok.wire side pkg mem).toSound) _ count (ok.ep side).buffer
    generalize advance (sys.offset side + count) (sys.wire side) = rest at *
    have formed := left ▸ ok.wire side
    have received := (ok.ep side).receives accept whole fun pkg mem =>
      formed pkg (mem_append_left _ mem)
    rw [read]
    exact ok.update side { received with buffer := rfl }
      (fun pkg mem => formed _ (mem_append_right _ mem)) inside

theorem System.Linked.read (linked : sys.Linked) (ok : sys.Ok sessionId) (side : Build)
    (count : Nat) (accept : Nat → Bool) : (sys.step (.read side count accept)).Linked := by
  simp only [step]
  split
  case isFalse => exact linked
  case isTrue =>
    obtain ⟨whole, left, -, read⟩ := @readUart_packets accept _ _
      (fun pkg mem => (ok.wire side pkg mem).toSound) _ count (ok.ep side).buffer
    have formed : ∀ pkg ∈ whole, pkg.WellFormed sessionId := fun pkg mem =>
      ok.wire side pkg (left ▸ mem_append_left _ mem)
    obtain ⟨there, back⟩ := (sys.linked_iff side).mp linked
    rw [left] at there back
    rw [linked_iff _ side, read]
    simp only [update_self, update_of_ne (otherEnd_ne side)]
    refine ⟨(there.receives_sender _ whole (ok.ep _) formed).sender_idle id rfl rfl rfl rfl,
      (back.receives_receiver _ whole (ok.ep _) formed).receiver_idle id rfl rfl rfl⟩

theorem System.Ok.lose (ok : sys.Ok sessionId) (side : Build) (i : Nat) :
    (sys.step (.lose side i)).Ok sessionId := by
  simp only [step]
  split
  case isFalse => exact ok
  case isTrue notBegun =>
    obtain ⟨inside, bytes⟩ := (ok.inside side).eraseIdx notBegun
    have wire := ok.update side (bytes ▸ ok.ep side)
      (fun pkg mem => ok.wire side pkg (mem_of_mem_eraseIdx mem)) inside
    rwa [update_eq_self, update_eq_self] at wire

theorem System.Linked.lose (linked : sys.Linked) (side : Build) (i : Nat) :
    (sys.step (.lose side i)).Linked := by
  simp only [step]
  split
  case isFalse => exact linked
  case isTrue =>
    obtain ⟨there, back⟩ := (sys.linked_iff side).mp linked
    rw [linked_iff _ side]
    simp only [update_self, update_of_ne (otherEnd_ne side)]
    exact ⟨there.lose_back (eraseIdx_sublist _ _), back.lose_out (eraseIdx_sublist _ _)⟩

/-- A turn keeps the general invariant. -/
theorem System.step_ok (ok : sys.Ok sessionId) (event : Event) : (sys.step event).Ok sessionId := by
  cases event with
  | submit side data =>
    simp only [step]
    split
    · exact ok.setEp _ ((ok.ep _).sendUARTData data.2)
    · exact ok
  | takeSlot side i => exact ok.setEp _ ((ok.ep _).takeSlot i)
  | write side written now => exact ok.write _ _ _
  | read side count accept => exact ok.read _ _ _
  | lose side i => exact ok.lose _ i
  | fetchFailed side => exact ok.setEp _ (ok.ep _).fetchFailed
  | remove side => exact ok.setEp _ (ok.ep _).removed

/-- A turn is a step of the protocol in each direction, or none. -/
theorem System.step_linked (ok : sys.Ok sessionId) (linked : sys.Linked) (event : Event) :
    (sys.step event).Linked := by
  have directions : ∀ side, _ ∧ _ := fun side => (sys.linked_iff side).mp linked
  cases event with
  | submit side data =>
    obtain ⟨there, back⟩ := directions side
    simp only [step]
    split
    · have called : Uart.Linked { sys.ep side with calls := (sys.ep side).calls ++ [data.1] } _ _ _ :=
        there.sender_idle id rfl rfl rfl rfl
      exact .setEp _ (called.beginPackage data) (back.receiver_idle id rfl rfl rfl)
    · exact linked
  | takeSlot side i =>
    obtain ⟨there, back⟩ := directions side
    exact .setEp _ (there.takeSlot (ok.ep _) i) (back.takeSlot_receiver (ok.ep _) i)
  | write side written now => exact linked.write ok _ _ _
  | read side count accept => exact linked.read ok _ _ _
  | lose side i => exact linked.lose _ i
  | fetchFailed side =>
    exact .setEp _ (.of_sender_freed rfl) (.of_receiver_freed rfl)
  | remove side =>
    obtain ⟨there, back⟩ := directions side
    simp only [step, removed]
    split
    case isTrue freed => exact .setEp _ (.of_sender_freed freed) (.of_receiver_freed freed)
    case isFalse => exact .setEp _ there back

theorem System.run_ok_linked (sessionId : UInt32) (events : List Event) :
    (run sessionId events).Ok sessionId ∧ (run sessionId events).Linked := by
  have along : ∀ sys : System, sys.Ok sessionId → sys.Linked →
      (events.foldl step sys).Ok sessionId ∧ (events.foldl step sys).Linked := by
    induction events with
    | nil => exact fun sys ok linked => ⟨ok, linked⟩
    | cons event events ih =>
      intro sys ok linked
      exact ih _ (step_ok ok _) (step_linked ok linked _)
  exact along _ (start_ok _) (start_linked _)

/-- In every state of every run, at most one package of the session waits for its
response at either end; as long as an end has not freed the session, what it has
submitted are the first pieces of its calls' data, those of each call in order; and
as long as the session has not been freed at either end and the sender's indices fit
their field, what an end was given is a prefix of what the other submitted. -/
theorem delivery_in_order (sessionId : UInt32) (events : List Event) (side : Build) :
    (((run sessionId events).ep side).outPkgs.filter fun pkg =>
        pkg.sessionId = sessionId ∧ pkg.pkgStatus = .waitResponse).length ≤ 1 ∧
      (((run sessionId events).ep side).freed = false →
        ∃ shares, Shares ((run sessionId events).ep side).calls
          ((run sessionId events).ep side).submitted ((run sessionId events).ep side).sending
          shares) ∧
      (((run sessionId events).ep side).freed = false →
        ((run sessionId events).ep (otherEnd side)).freed = false →
        ((run sessionId events).ep side).hUART.packageIndex < 2 ^ 32 →
        ((run sessionId events).ep (otherEnd side)).dispatched <+:
          ((run sessionId events).ep side).submitted) := by
  obtain ⟨ok, linked⟩ := run_ok_linked sessionId events
  refine ⟨?_, (ok.ep side).shares, fun senderLive receiverLive fits => ?_⟩
  · have orderly := (ok.ep side).orderly
    have mine : ((run sessionId events).ep side).outPkgs.filter (fun pkg =>
        pkg.sessionId = sessionId ∧ pkg.pkgStatus = .waitResponse) =
        ((run sessionId events).ep side).outPkgs.filter
          (fun pkg => pkg.pkgStatus = .waitResponse) := by
      refine filter_congr fun pkg mem => ?_
      simp [(orderly.formed pkg mem).session]
    rw [mine]
    exact orderly.waitResponse_le_one
  · obtain ⟨_, inv, carries⟩ := linked side senderLive receiverLive fits
    rw [← carries.got, ← carries.submitted]
    obtain ⟨later, whole⟩ := inv.got_prefix
    exact ⟨later.filterMap carried, by rw [← whole, filterMap_append]⟩

/-- A call of `SendUARTData` at the daemon with one byte of data. -/
def submitByte (byte : UInt8) : Event := .submit .daemon ⟨[byte], cons_ne_nil _ _⟩

/-- A pass that writes what it can. -/
def writeAll (side : Build) : Event := .write side (fun _ => 1) 0

/-- A read of everything there is. -/
def readAll (side : Build) : Event := .read side 100 fun _ => true

/-- A run that loses a packet and an ACK and sends the first package three times. -/
def lossyRun : List Event :=
  [submitByte 0, .takeSlot .daemon 0, submitByte 1, writeAll .daemon, .lose .host 0,
    .write .daemon (fun _ => 1) 1000, .write .daemon (fun _ => 1) 1000, readAll .host,
    writeAll .host, .lose .daemon 0, .write .daemon (fun _ => 1) 2000,
    .write .daemon (fun _ => 1) 2000, readAll .host, writeAll .host, readAll .daemon,
    .takeSlot .daemon 0, writeAll .daemon, readAll .host]

/-- Both payloads of the run with losses arrive, once and in order. -/
theorem delivery_in_order_lossy :
    (∃ shares, Shares [[0], [1]] [[0], [1]] [] shares) ∧
      ((run 7 lossyRun).ep .host).dispatched <+:
        ((run 7 lossyRun).ep .daemon).submitted ∧
      ((run 7 lossyRun).ep .host).dispatched = [[0], [1]] := by
  obtain ⟨-, shares, ordered⟩ := delivery_in_order 7 lossyRun .daemon
  have calls : ((run 7 lossyRun).ep .daemon).calls = [[0], [1]] := by decide +kernel
  have submitted : ((run 7 lossyRun).ep .daemon).submitted = [[0], [1]] := by decide +kernel
  have sending : ((run 7 lossyRun).ep .daemon).sending = [] := by decide +kernel
  have live : ((run 7 lossyRun).ep .daemon).freed = false := by decide +kernel
  have held := shares live
  rw [calls, submitted, sending] at held
  exact ⟨held, ordered live (by decide +kernel) (by decide +kernel), by decide +kernel⟩

/-! ### Runs with a gap -/

/-- A run in which a dispatch at the host fails. The host asks for the daemon's
session to be freed, which empties the daemon's table with an unacknowledged
package in it; the call that waits behind it is let through. -/
def freeRun : List Event :=
  [submitByte 0, .takeSlot .daemon 0, writeAll .daemon,
    .read .host 100 fun _ => false, writeAll .host, .read .daemon 24 fun _ => true,
    submitByte 1, .takeSlot .daemon 0, writeAll .daemon, .lose .host 0,
    submitByte 2, readAll .daemon, .takeSlot .daemon 0, writeAll .daemon, readAll .host]

/-- The waiting call of `submitByte`. -/
def oneByte (byte : UInt8) (packageIndex : UInt32) : Sending :=
  { head := .new 7 UartProtocolOption.tail.bit 1 packageIndex
    payload := [byte], rest := [] }

/-- Two ends, and the packets on the way to each. -/
def link (daemon host : Endpoint) (toDaemon toHost : List HandleOutputPkg) : System where
  ep | .daemon => daemon | .host => host
  wire | .daemon => toDaemon | .host => toHost
  offset _ := 0

section

variable {daemon host : Endpoint} {toDaemon toHost : List HandleOutputPkg}

theorem link_setEp (ep : Endpoint) :
    (link daemon host toDaemon toHost).setEp .daemon ep = link ep host toDaemon toHost := by
  rw [setEp, link, link]
  congr 1
  funext side
  cases side <;> rfl

theorem link_write_daemon : (link daemon host toDaemon toHost).step (writeAll .daemon) =
    link (daemon.sendPkgInUARTOutMap (fun _ => 1) 0).1 host toDaemon
      (toHost ++ (daemon.sendPkgInUARTOutMap (fun _ => 1) 0).2) := by
  rw [writeAll, step, link_setEp, link, link]
  congr 1
  funext side
  cases side <;> rfl

theorem link_write_host : (link daemon host toDaemon toHost).step (writeAll .host) =
    link daemon (host.sendPkgInUARTOutMap (fun _ => 1) 0).1
      (toDaemon ++ (host.sendPkgInUARTOutMap (fun _ => 1) 0).2) toHost := by
  rw [writeAll, step, link, link, setEp]
  congr 1
  · funext side
    cases side <;> rfl
  · funext side
    cases side <;> rfl

/-- An end of session 7 that works, with nothing in its buffer. -/
structure Endpoint.Ready (side : Build) (ep : Endpoint) : Prop where
  build : ep.build = side
  session : ep.sessionId = 7
  found : ep.found = true
  opened : ep.devOpened = true
  buffer : ep.dataReadBuf = []

/-- A short packet is read at once. -/
theorem readUart_short {pkg : HandleOutputPkg} (sound : pkg.Sound) (short : pkg.payload.length ≤ 1)
    {ep : Endpoint} (empty : ep.dataReadBuf = []) :
    advance (0 + 100) [pkg] = (0, []) ∧
      ep.readUart (fun _ => true) (((bytesOf [pkg]).drop 0).take 100) =
        { ep.receive (fun _ => true) pkg with dataReadBuf := [] } := by
  have size : ¬ 0 + 100 < pkg.msgSendBuf.length := by
    rw [length_msgSendBuf sound, UartHead.packetSize, sound.size, headSize]
    omega
  have all : advance (0 + 100) [pkg] = (0, []) := by rw [advance, if_neg size, advance]
  obtain ⟨whole, packets, -, read⟩ := @readUart_packets (fun _ => true) ep [pkg]
    (fun other mem => mem_singleton.mp mem ▸ sound) 0 100 empty
  rw [all] at packets read
  refine ⟨all, ?_⟩
  rw [read, ← append_nil whole, ← packets]
  rfl

section

variable {pkg : HandleOutputPkg} (sound : pkg.Sound) (short : pkg.payload.length ≤ 1)
include sound short

theorem link_read_host (ready : host.Ready .host) {after : Endpoint}
    (received : host.receive (fun _ => true) pkg = after) (empty : after.dataReadBuf = []) :
    (link daemon host toDaemon [pkg]).step (readAll .host) = link daemon after toDaemon [] := by
  obtain ⟨all, read⟩ := readUart_short sound short ready.buffer
  rw [received, ← empty] at read
  have opened : ((link daemon host toDaemon [pkg]).ep .host).devOpened = true := ready.opened
  rw [readAll, step, if_pos opened]
  simp only [link, all, read]
  congr 1
  all_goals
    funext side
    cases side <;> rfl

theorem link_read_daemon (ready : daemon.Ready .daemon) {after : Endpoint}
    (received : daemon.receive (fun _ => true) pkg = after) (empty : after.dataReadBuf = []) :
    (link daemon host [pkg] toHost).step (readAll .daemon) = link after host [] toHost := by
  obtain ⟨all, read⟩ := readUart_short sound short ready.buffer
  rw [received, ← empty] at read
  have opened : ((link daemon host [pkg] toHost).ep .daemon).devOpened = true := ready.opened
  rw [readAll, step, if_pos opened]
  simp only [link, all, read]
  congr 1
  all_goals
    funext side
    cases side <;> rfl

end

end

/-! ### One package and its response -/

section

variable (byte : UInt8) (index : UInt32)

/-- The package of a call with one byte. -/
def dataPkg : HandleOutputPkg := .new ((oneByte byte index).head.updateCheckSum [byte]) [byte]

/-- The response to it. -/
def ackPkg : HandleOutputPkg :=
  .new ((UartHead.new 7 UartProtocolOption.ack.bit 0 index).updateCheckSum []) []

theorem dataPkg_formed : (dataPkg byte index).WellFormed 7 :=
  (@data_made [byte] 7 index _ (.inr rfl) (cons_ne_nil _ _) (Nat.le_of_ble_eq_true rfl)).wellFormed

theorem ackPkg_formed : (ackPkg index).WellFormed 7 := (ack_made 7 index).wellFormed

theorem dataPkg_response : (dataPkg byte index).response = false := by
  refine (isResponsePackage_updateCheckSum _ _).trans ?_
  rw [oneByte, isResponsePackage_new]
  decide

theorem ackPkg_response : (ackPkg index).response = true := by
  refine (isResponsePackage_updateCheckSum _ _).trans ?_
  rw [isResponsePackage_new]
  decide

theorem dataPkg_index : (dataPkg byte index).head.packageIndex = index :=
  (updateCheckSum_fields _ _).2.1

theorem ackPkg_index : (ackPkg index).head.packageIndex = index :=
  (updateCheckSum_fields _ _).2.1

/-- The package as it waits for its response. -/
def sentPkg : HandleOutputPkg :=
  { dataPkg byte index with pkgStatus := .waitResponse, sendTimePoint := 0 }

variable {daemon host : Endpoint}

theorem write_dataPkg (ready : daemon.Ready .daemon)
    (outPkgs : daemon.outPkgs = [dataPkg byte index]) :
    daemon.sendPkgInUARTOutMap (fun _ => 1) 0 =
      ({ daemon with outPkgs := [sentPkg byte index] }, [dataPkg byte index]) := by
  have status : (dataPkg byte index).pkgStatus = .waitSend := rfl
  have raw : daemon.sendUARTRaw (fun _ => 1) (dataPkg byte index) = .sent := by
    simp [sendUARTRaw, ready.build, ready.found, ready.opened, dataPkg_response]
  simp [sendPkgInUARTOutMap, outPkgs, sendLoop, status, raw, dataPkg_response, Pass.keep,
    Pass.wrote, sentPkg]

theorem write_ackPkg (ready : host.Ready .host) (outPkgs : host.outPkgs = [ackPkg index]) :
    host.sendPkgInUARTOutMap (fun _ => 1) 0 = ({ host with outPkgs := [] }, [ackPkg index]) := by
  have status : (ackPkg index).pkgStatus = .waitSend := rfl
  have raw : host.sendUARTRaw (fun _ => 1) (ackPkg index) = .sent := by
    simp [sendUARTRaw, ready.build, ready.found, ready.opened]
  simp [sendPkgInUARTOutMap, outPkgs, sendLoop, status, raw, ackPkg_response, Pass.wrote]

theorem receive_dataPkg (ready : host.Ready .host) (outPkgs : host.outPkgs = []) :
    host.receive (fun _ => true) (dataPkg byte index) =
      { host with
        outPkgs := [ackPkg index]
        hUART := { host.hUART with dispatchedPackageIndex := index }
        dispatched := if host.hUART.dispatchedPackageIndex = index then host.dispatched
          else host.dispatched ++ [[byte]] } := by
  have kind : (dataPkg byte index).head.isResponsePackage = false := dataPkg_response byte index
  have free : (dataPkg byte index).head.has .free = false := Bool.eq_false_iff.mpr fun free =>
    absurd (((dataPkg_formed byte index).data kind).mp free) (cons_ne_nil _ _)
  have payload : (dataPkg byte index).payload = [byte] := rfl
  have answer : requestSendPackage [] (.new 7 UartProtocolOption.ack.bit 0 index) [] =
      [ackPkg index] := rfl
  simp only [receive, kind, free, dataPkg_index, payload, Bool.false_eq_true, if_false, cons_ne_nil,
    responseUartTrans, ready.session, outPkgs, answer, prepareSession, ready.found, true_or, if_true,
    dispatchPackageData]
  split
  case isTrue same => rw [← same]
  case isFalse => rfl

theorem receive_ackPkg (outPkgs : daemon.outPkgs = [sentPkg byte index]) :
    daemon.receive (fun _ => true) (ackPkg index) =
      { daemon with outPkgs := [], slot := false } := by
  have kind : (ackPkg index).head.isResponsePackage = true := ackPkg_response index
  obtain ⟨ack, free, payload⟩ := (ackPkg_formed index).answer kind
  have key : (sentPkg byte index).key = (ackPkg index).head.toPkgIdentityString false := by
    refine (key_eq_session_iff (dataPkg_formed byte index).session
      (ackPkg_formed index).session false).mpr ⟨dataPkg_response byte index, ?_⟩
    exact (dataPkg_index byte index).trans (ackPkg_index index).symm
  simp [receive, kind, free, ack, payload, processResponse, processResponsePackage,
    responseTarget, outPkgs, key]

/-- A package is sent, dispatched unless its index is the last one, and acknowledged. -/
theorem foldl_link (daemonReady : daemon.Ready .daemon) (hostReady : host.Ready .host)
    (outPkgs : daemon.outPkgs = [dataPkg byte index]) (empty : host.outPkgs = []) :
    [writeAll .daemon, readAll .host, writeAll .host, readAll .daemon].foldl step
        (link daemon host [] []) =
      link { daemon with outPkgs := [], slot := false }
        { host with
          hUART := { host.hUART with dispatchedPackageIndex := index }
          dispatched := if host.hUART.dispatchedPackageIndex = index then host.dispatched
            else host.dispatched ++ [[byte]] } [] [] := by
  have short : (dataPkg byte index).payload.length ≤ 1 := Nat.le_refl 1
  have none : (ackPkg index).payload.length ≤ 1 := Nat.zero_le 1
  -- the host answers, and its answer is written at once
  obtain ⟨answered, received⟩ : ∃ answered, host.receive (fun _ => true) (dataPkg byte index) =
    answered := ⟨_, rfl⟩
  have shape := received.symm.trans (receive_dataPkg byte index hostReady empty)
  have answeredReady : answered.Ready .host := by
    rw [shape]
    exact ⟨hostReady.build, hostReady.session, hostReady.found, hostReady.opened, hostReady.buffer⟩
  have table : answered.outPkgs = [ackPkg index] := by rw [shape]
  -- the daemon waits for it
  obtain ⟨waiting, waits⟩ : ∃ waiting : Endpoint,
    waiting = { daemon with outPkgs := [sentPkg byte index] } := ⟨_, rfl⟩
  have waitingReady : waiting.Ready .daemon := by
    rw [waits]
    exact ⟨daemonReady.build, daemonReady.session, daemonReady.found, daemonReady.opened,
      daemonReady.buffer⟩
  have acked := receive_ackPkg byte index (congrArg Endpoint.outPkgs waits)
  rw [foldl_cons, link_write_daemon, write_dataPkg byte index daemonReady outPkgs, nil_append,
    ← waits, foldl_cons, link_read_host (dataPkg_formed byte index).toSound short hostReady received
      answeredReady.buffer, foldl_cons, link_write_host, write_ackPkg index answeredReady table,
    nil_append, foldl_cons, foldl_nil, link_read_daemon (ackPkg_formed index).toSound none
      waitingReady acked waitingReady.buffer, shape, waits, ← empty]

end

/-! ### A call that is overtaken -/

/-- The daemon with calls that wait, and an empty table. -/
def restingDaemon (packageIndex : Nat) (sending : List Sending) (calls submitted : List Bytes) :
    Endpoint :=
  { Endpoint.new .daemon 7 with hUART := ⟨0, packageIndex⟩, sending, calls, submitted }

/-- Nothing is on the wires; `last` and `dispatched` are the host's. -/
def resting (packageIndex : Nat) (sending : List Sending) (calls submitted : List Bytes)
    (last : UInt32) (dispatched : List Bytes) : System :=
  link (restingDaemon packageIndex sending calls submitted)
    { Endpoint.new .host 7 with hUART := ⟨last, 0⟩, dispatched } [] []

/-- A waiting call gets the slot, and its package is sent and acknowledged. -/
def exchange (i : Nat) : List Event :=
  [.takeSlot .daemon i, writeAll .daemon, readAll .host, writeAll .host, readAll .daemon]

section

variable {n i : Nat} {sending : List Sending} {calls submitted dispatched : List Bytes}
  {last index : UInt32} {byte : UInt8}

theorem foldl_exchange (waits : sending[i]? = some (oneByte byte index)) :
    (exchange i).foldl step (resting n sending calls submitted last dispatched) =
      resting n (sending.eraseIdx i) calls (submitted ++ [[byte]]) index
        (if last = index then dispatched else dispatched ++ [[byte]]) := by
  have took : (restingDaemon n sending calls submitted).takeSlot i =
      { restingDaemon n (sending.eraseIdx i) calls (submitted ++ [[byte]]) with
        slot := true, outPkgs := [dataPkg byte index] } := by
    have here : (restingDaemon n sending calls submitted).sending[i]? = some (oneByte byte index) :=
      waits
    have free : (restingDaemon n sending calls submitted).slot = false := rfl
    rw [takeSlot, here, free]
    rfl
  rw [exchange, foldl_cons, step, resting, link_setEp]
  change List.foldl step (link ((restingDaemon n sending calls submitted).takeSlot i) _ [] []) _ = _
  rw [took]
  exact foldl_link byte index ⟨rfl, rfl, rfl, rfl, rfl⟩ ⟨rfl, rfl, rfl, rfl, rfl⟩ rfl rfl

/-- A call of one byte. -/
theorem step_submitByte :
    (resting n sending calls submitted last dispatched).step (submitByte byte) =
      resting (n + 1) (sending ++ [oneByte byte (ofNat (n + 1))]) (calls ++ [[byte]]) submitted last
        dispatched := by
  rw [submitByte, step, resting, link_setEp]
  rfl

/-- The call that waits is overtaken by others, one after the other. -/
theorem foldl_overtakes {call : Sending} (count : Nat) (fresh : last ≠ ofNat (n + 1)) :
    (List.replicate (count + 1) (submitByte 2 :: exchange 1)).flatten.foldl step
        (resting n [call] calls submitted last dispatched) =
      resting (n + count + 1) [call] (calls ++ List.replicate (count + 1) [2])
        (submitted ++ List.replicate (count + 1) [2]) (ofNat (n + count + 1))
        (dispatched ++ List.replicate (count + 1) [2]) := by
  induction count generalizing n calls submitted last dispatched with
  | zero =>
    rw [replicate_succ, replicate_zero, flatten_cons, flatten_nil, append_nil, foldl_cons,
      step_submitByte, foldl_exchange rfl, if_neg fresh]
    rfl
  | succ count ih =>
    have apart : ofNat (n + 1) ≠ ofNat (n + 1 + 1) := by
      intro same
      have numbers := congrArg UInt32.toNat same
      rw [toNat_ofNat', toNat_ofNat'] at numbers
      omega
    rw [replicate_succ, flatten_cons, foldl_append, foldl_cons, step_submitByte,
      foldl_exchange rfl, if_neg fresh]
    have more : ∀ list : List Bytes, list ++ [[2]] ++ List.replicate (count + 1) [2] =
        list ++ List.replicate (count + 1 + 1) [2] := fun list => append_assoc ..
    have number : n + 1 + count + 1 = n + (count + 1) + 1 := by omega
    refine (ih apart).trans ?_
    rw [more, more, more, number]

end

/-- A call takes index 1 and waits while others send as many packages as there are indices; then it
gets the slot, and one more package follows. -/
def overtakenRun : List Event :=
  submitByte 1 :: ((List.replicate (4294967295 + 1) (submitByte 2 :: exchange 1)).flatten ++
    (exchange 0 ++ submitByte 3 :: exchange 0))

theorem run_overtaken :
    ∃ n calls, run 7 overtakenRun = resting n [] calls
      (List.replicate 4294967296 [2] ++ [[1]] ++ [[3]]) 2
      (List.replicate 4294967296 [2] ++ [[3]]) := by
  have begin' : System.start 7 = resting 0 [] [] [] 0 [] := by
    rw [resting, link, System.start]
    congr 1
    all_goals
      funext side
      cases side <;> rfl
  rw [run, overtakenRun, begin', foldl_cons, step_submitByte, foldl_append, nil_append,
    foldl_overtakes 4294967295 (by decide), foldl_append, foldl_exchange rfl, if_pos (by decide),
    foldl_cons, step_submitByte, foldl_exchange rfl, if_neg (by decide)]
  exact ⟨_, _, rfl⟩

/-- What the host was given is not a prefix of what the daemon submitted when the
host asks for the session to be freed; nor, with no session freed, when the index
has come round: the package with index 1 is then dropped as a duplicate. No
package is retried in either run, and at most two calls wait at a time. -/
theorem delivery_gap :
    (¬ ((run 7 freeRun).ep .host).dispatched <+:
        ((run 7 freeRun).ep .daemon).submitted) ∧
    (¬ ((run 7 overtakenRun).ep .host).dispatched <+:
        ((run 7 overtakenRun).ep .daemon).submitted) ∧
      ((run 7 overtakenRun).ep .host).freed = false ∧
      ((run 7 overtakenRun).ep .daemon).freed = false := by
  obtain ⟨_, _, ends⟩ := run_overtaken
  refine ⟨by decide +kernel, ?_⟩
  rw [ends]
  refine ⟨?_, rfl, rfl⟩
  change ¬ List.replicate 4294967296 [2] ++ [[3]] <+: List.replicate 4294967296 [2] ++ [[1]] ++ [[3]]
  rw [append_assoc, prefix_append_right_inj]
  decide

end Hdc.Uart
