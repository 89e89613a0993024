import Hdc.Uart.Table

/-!
Two ends of a serial link with packets in between.

The wire to either end is a queue of packets. Reads take bytes from its front and
may stop in the middle of a packet; a packet that no read has begun may be lost.
The threads of both ends take turns in any order.

* `Endpoint.Ok`: what every turn of an end keeps, whatever was lost or freed;
* `readUart_packets`: a read processes the packets that are complete with it, in
  order, and keeps the rest.
-/

namespace Hdc.Uart

open List

open Hdc.Session (Build)

/-! ### The system -/

/-- The end that one talks to. -/
def otherEnd : Build → Build
  | .host => .daemon
  | .daemon => .host

@[simp] theorem otherEnd_otherEnd (side : Build) : otherEnd (otherEnd side) = side := by
  cases side <;> rfl

theorem otherEnd_ne (side : Build) : otherEnd side ≠ side := by
  cases side <;> decide

theorem eq_or_eq_otherEnd (side end' : Build) : end' = side ∨ end' = otherEnd side := by
  cases side <;> cases end' <;> decide

/-- Both ends, the packets on the way to each, and how much of the first of them
was read. -/
structure System where
  ep : Build → Endpoint
  wire : Build → List HandleOutputPkg
  offset : Build → Nat

/-- A turn of one thread, or a loss. Data given to `SendUARTData` is never empty:
it is a packet of the session layer. -/
inductive Event where
  | submit (side : Build) (data : { data : Bytes // data ≠ [] })
  | takeSlot (side : Build) (i : Nat)
  | write (side : Build) (written : HandleOutputPkg → Int) (now : Nat)
  | read (side : Build) (count : Nat) (accept : Nat → Bool)
  | lose (side : Build) (i : Nat)
  | fetchFailed (side : Build)
  | remove (side : Build)

/-- The bytes of packets in a row. -/
def bytesOf (pkgs : List HandleOutputPkg) : Bytes :=
  (pkgs.map HandleOutputPkg.msgSendBuf).flatten

/-- The packets that are left when `n` bytes have been read from the front, and
how much of the first of these is among the bytes. -/
def advance : Nat → List HandleOutputPkg → Nat × List HandleOutputPkg
  | _, [] => (0, [])
  | n, pkg :: pkgs =>
    if n < pkg.msgSendBuf.length then (n, pkg :: pkgs)
    else advance (n - pkg.msgSendBuf.length) pkgs

namespace System

def setEp (sys : System) (side : Build) (ep : Endpoint) : System :=
  { sys with ep := Function.update sys.ep side ep }

/-- One turn. -/
def step (sys : System) : Event → System
  | .submit side data =>
    if (sys.ep side).found then sys.setEp side ((sys.ep side).sendUARTData data) else sys
  | .takeSlot side i => sys.setEp side ((sys.ep side).takeSlot i)
  | .write side written now =>
    let pass := (sys.ep side).sendPkgInUARTOutMap written now
    { sys.setEp side pass.1 with
      wire := Function.update sys.wire (otherEnd side) (sys.wire (otherEnd side) ++ pass.2) }
  | .read side count accept =>
    if (sys.ep side).devOpened then
      let bytes := ((bytesOf (sys.wire side)).drop (sys.offset side)).take count
      let left := advance (sys.offset side + count) (sys.wire side)
      { ep := Function.update sys.ep side ((sys.ep side).readUart accept bytes)
        wire := Function.update sys.wire side left.2
        offset := Function.update sys.offset side left.1 }
    else
      sys
  | .lose side i =>
    if 0 < i ∨ sys.offset side = 0 then
      { sys with wire := Function.update sys.wire side ((sys.wire side).eraseIdx i) }
    else
      sys
  | .fetchFailed side => sys.setEp side (sys.ep side).fetchFailed
  | .remove side => sys.setEp side (sys.ep side).removed

/-- A new session at both ends. -/
def start (sessionId : UInt32) : System where
  ep side := Endpoint.new side sessionId
  wire _ := []
  offset _ := 0

/-- A run from a new session. -/
def run (sessionId : UInt32) (events : List Event) : System :=
  events.foldl step (start sessionId)

end System

/-! ### What the calls put into the table -/

/-- A list that several lists were merged to, each of them in its own order. -/
inductive Merged {α : Type} : List (List α) → List α → Prop where
  | nil : Merged [] []
  | more {parts : List (List α)} {whole : List α} (merged : Merged parts whole) :
      Merged (parts ++ [[]]) whole
  | take {before after : List (List α)} {part whole : List α} (x : α)
      (merged : Merged (before ++ part :: after) whole) :
      Merged (before ++ (part ++ [x]) :: after) (whole ++ [x])

/-- Of the pieces of each call's data the first ones were submitted, in order, and the call waits
with the others, if there are any. -/
structure Shares (calls submitted : List Bytes) (sending : List Sending)
    (shares : List (List Bytes × List Bytes)) : Prop where
  cut : shares.map (fun share => share.1 ++ share.2) = calls.map cut
  merged : Merged (shares.map Prod.fst) submitted
  waiting : ((shares.map Prod.snd).filter (· ≠ [])).Perm (sending.map Sending.pieces)

namespace Shares

variable {calls submitted : List Bytes} {sending : List Sending}
  {shares : List (List Bytes × List Bytes)}

/-- A new call has submitted nothing. -/
theorem call (held : Shares calls submitted sending shares) {call : Sending} {data : Bytes}
    (pieces : call.pieces = Uart.cut data) :
    Shares (calls ++ [data]) submitted (sending ++ [call]) (shares ++ [([], Uart.cut data)]) where
  cut := by
    rw [map_append, map_append, held.cut]
    rfl
  merged := by
    rw [map_append]
    exact held.merged.more
  waiting := by
    have some : Uart.cut data ≠ [] := by rw [← pieces]; exact cons_ne_nil _ _
    rw [map_append, map_append, filter_append, map_singleton, map_singleton, pieces,
      filter_cons_of_pos (by simpa using some)]
    exact held.waiting.append_right _

/-- The call that gets the slot submits one piece more, and waits with what is left then. -/
theorem submit (held : Shares calls submitted sending shares) {i : Nat} {call : Sending}
    (waits : sending[i]? = some call) {next : List Sending}
    (left : next.map Sending.pieces = [call.pieces.tail].filter (· ≠ [])) :
    ∃ shares, Shares calls (submitted ++ [call.payload]) (sending.eraseIdx i ++ next) shares := by
  obtain ⟨within, here⟩ := List.getElem?_eq_some_iff.mp waits
  have taken : (sending.map Sending.pieces).Perm
      (call.pieces :: (sending.eraseIdx i).map Sending.pieces) := by
    rw [← here]
    exact (getElem_cons_eraseIdx_perm within).symm.map _
  have mem : call.pieces ∈ (shares.map Prod.snd).filter (· ≠ []) :=
    held.waiting.mem_iff.mpr (taken.mem_iff.mpr mem_cons_self)
  obtain ⟨⟨first, _⟩, shareMem, rfl⟩ := mem_map.mp (mem_filter.mp mem).1
  obtain ⟨before, after, rfl⟩ := append_of_mem shareMem
  obtain ⟨cuts, merged, waiting⟩ := held
  rw [map_append, map_cons] at cuts merged waiting
  refine ⟨before ++ (first ++ [call.payload], call.pieces.tail) :: after, ?_, ?_, ?_⟩
  · rw [← cuts, map_append, map_cons, append_assoc]
    rfl
  · rw [map_append, map_cons]
    exact merged.take _
  · -- without this call, the others wait as before
    have others := waiting.trans taken
    rw [filter_append, filter_cons_of_pos (by simp [Sending.pieces])] at others
    rw [map_append, map_append, map_cons, left, filter_append, ← singleton_append, filter_append,
      ← append_assoc]
    refine perm_append_comm.append_right _ |>.trans ?_
    rw [append_assoc]
    exact perm_append_comm.trans ((perm_middle.symm.trans others).cons_inv.append_right _)

end Shares

/-! ### What holds in every state -/

/-- An end of the session, in any state, with the bytes it has read of an
incomplete packet. -/
structure Endpoint.Ok (sessionId : UInt32) (buffer : Bytes) (ep : Endpoint) : Prop where
  buffer : ep.dataReadBuf = buffer
  session : ep.sessionId = sessionId
  orderly : Orderly sessionId ep.outPkgs
  found : ep.freed = false → ep.found = true
  sending : ∀ call ∈ ep.sending, call.head.Made sessionId call.payload ∧ call.payload ≠ []
  shares : ep.freed = false → ∃ shares, Shares ep.calls ep.submitted ep.sending shares

namespace Endpoint.Ok

variable {sessionId : UInt32} {buffer : Bytes} {ep : Endpoint}

theorem new (build : Build) (sessionId : UInt32) : (Endpoint.new build sessionId).Ok sessionId [] :=
  ⟨rfl, rfl, .nil _, fun _ => rfl, by simp [Endpoint.new], fun _ => ⟨[], rfl, .nil, .nil⟩⟩

/-- The package that a call begins is made like the others. -/
theorem sending_beginPackage (session : ep.sessionId = sessionId)
    (made : ∀ call ∈ ep.sending, call.head.Made sessionId call.payload ∧ call.payload ≠ [])
    {data : Bytes} (some : data ≠ []) : ∀ call ∈ (ep.beginPackage data).sending,
    call.head.Made sessionId call.payload ∧ call.payload ≠ [] := by
  intro call mem
  rcases mem_append.mp mem with old | new
  · exact made call old
  · rw [mem_singleton.mp new]
    refine ⟨session ▸ nextPackage_made ep some, ?_⟩
    cases data with
    | nil => exact absurd rfl some
    | cons byte rest => exact cons_ne_nil _ _

section

variable (ok : ep.Ok sessionId buffer)
include ok

theorem sendUARTData {data : Bytes} (some : data ≠ []) :
    (ep.sendUARTData data).Ok sessionId buffer where
  __ := ok
  sending := sending_beginPackage ok.session ok.sending some
  shares live := by
    obtain ⟨_, held⟩ := ok.shares live
    exact ⟨_, held.call (pieces_nextPackage { ep with calls := ep.calls ++ [data] } data)⟩

theorem takeSlot (i : Nat) : (ep.takeSlot i).Ok sessionId buffer := by
  unfold Endpoint.takeSlot
  split
  case h_2 => exact ok
  case h_1 call _ found =>
    have orderly := ok.orderly.request (ok.sending call (mem_of_getElem? found)).1
    have others : ∀ other ∈ ep.sending.eraseIdx i,
        other.head.Made sessionId other.payload ∧ other.payload ≠ [] :=
      fun other mem => ok.sending other (mem_of_mem_eraseIdx mem)
    simp only [Endpoint.request]
    split
    case isTrue done =>
      refine ⟨ok.buffer, ok.session, orderly, ok.found, others, fun live => ?_⟩
      obtain ⟨_, held⟩ := ok.shares live
      rw [← append_nil (ep.sending.eraseIdx i)]
      exact held.submit found (by rw [Sending.pieces, if_pos done]; rfl)
    case isFalse more =>
      have begun := @sending_beginPackage _ { ep with sending := ep.sending.eraseIdx i }
        ok.session others _ more
      refine ⟨ok.buffer, ok.session, orderly, ok.found, begun, fun live => ?_⟩
      obtain ⟨_, held⟩ := ok.shares live
      refine held.submit found ?_
      have pieces := pieces_nextPackage ep call.rest
      have some : cut call.rest ≠ [] := by rw [← pieces]; exact cons_ne_nil _ _
      rw [Sending.pieces, if_neg more, tail_cons, filter_cons_of_pos (by simpa using some), ← pieces]
      rfl

theorem requestFree : ep.requestFree.Ok sessionId buffer :=
  { ok with orderly := ok.orderly.request (ok.session ▸ free_made _ _) }

theorem responseAck (packageIndex : UInt32) :
    (ep.responseUartTrans packageIndex .ack).Ok sessionId buffer :=
  { ok with orderly := ok.orderly.request (ok.session ▸ ack_made _ _) }

theorem fetchFailed : ep.fetchFailed.Ok sessionId buffer :=
  { ok with
    orderly := ok.requestFree.orderly
    found := fun no => nomatch no
    shares := fun no => nomatch no }

/-- Clearing a table that holds one session leaves nothing. -/
theorem clearUARTOutMap : ep.clearUARTOutMap.outPkgs = [] := by
  refine filter_eq_nil_iff.mpr fun pkg mem => ?_
  simp [(ok.orderly.formed pkg mem).session, ok.session]

theorem onTransferError : ep.onTransferError.Ok sessionId buffer := by
  unfold Endpoint.onTransferError
  split
  · refine { ok with
      orderly := ?_
      found := fun no => nomatch no
      shares := fun no => nomatch no }
    have empty := ok.clearUARTOutMap
    exact (show Endpoint.outPkgs _ = [] from empty) ▸ Orderly.nil _
  · exact ok

theorem restartession : ep.restartession.Ok sessionId buffer := by
  unfold Endpoint.restartession
  split
  · exact { ok with
      orderly := ok.clearUARTOutMap ▸ Orderly.nil _
      found := fun no => nomatch no
      shares := fun no => nomatch no }
  · exact ok

theorem removed : ep.removed.Ok sessionId buffer := by
  unfold Endpoint.removed
  split
  case isTrue freed =>
    have live : ep.freed ≠ false := fun no => absurd (freed.symm.trans no) (by decide)
    exact ⟨ok.buffer, ok.session, ok.clearUARTOutMap ▸ Orderly.nil _, fun no => absurd no live,
      by simp, fun no => absurd no live⟩
  · exact ok

theorem sendPkgInUARTOutMap (written : HandleOutputPkg → Int) (now : Nat) :
    (ep.sendPkgInUARTOutMap written now).1.Ok sessionId buffer := by
  have passed := sendLoop_pass (ep.sendUARTRaw written) now ep.outPkgs ok.orderly
  have after : Endpoint.Ok sessionId buffer
      { ep with outPkgs := (sendLoop (ep.sendUARTRaw written) now [] ep.outPkgs).outPkgs } :=
    { ok with orderly := ok.orderly.passed passed }
  simp only [Endpoint.sendPkgInUARTOutMap]
  split
  · exact after.onTransferError
  · exact after

theorem dispatchPackageData (accept : Nat → Bool) (packageIndex : UInt32)
    (payload : Bytes) : (ep.dispatchPackageData accept packageIndex payload).Ok sessionId buffer := by
  have given : Endpoint.Ok sessionId buffer
      { ep with
        hUART := { ep.hUART with dispatchedPackageIndex := packageIndex }
        dispatched := ep.dispatched ++ [payload] } := { ok with }
  simp only [Endpoint.dispatchPackageData]
  split
  · exact ok
  · split
    · exact given
    · exact given.requestFree

theorem prepareSession : ep.prepareSession.Ok sessionId buffer := by
  unfold Endpoint.prepareSession
  split
  · exact ok
  · exact { ok with found := fun _ => rfl }

theorem receive (accept : Nat → Bool) {pkg : HandleOutputPkg}
    (formed : pkg.WellFormed sessionId) : (ep.receive accept pkg).Ok sessionId buffer := by
  simp only [Endpoint.receive]
  have freed : (if pkg.head.has .free then ep.restartession else ep).Ok sessionId buffer := by
    split
    · exact ok.restartession
    · exact ok
  generalize (if pkg.head.has .free then ep.restartession else ep) = ep₁ at freed
  have answered : (if pkg.head.isResponsePackage then ep₁.processResponse pkg.head
      else ep₁.responseUartTrans pkg.head.packageIndex .ack).Ok sessionId buffer := by
    split
    case isTrue response =>
      exact { freed with orderly := freed.orderly.acked formed.session (formed.answer response).1 }
    · exact freed.responseAck _
  generalize (if pkg.head.isResponsePackage then ep₁.processResponse pkg.head
      else ep₁.responseUartTrans pkg.head.packageIndex .ack) = ep₂ at answered
  split
  · exact answered
  · exact answered.prepareSession.dispatchPackageData _ _ _

theorem receives (accept : Nat → Bool) (pkgs : List HandleOutputPkg)
    (formed : ∀ pkg ∈ pkgs, pkg.WellFormed sessionId) :
    (pkgs.foldl (Endpoint.receive accept) ep).Ok sessionId buffer := by
  induction pkgs generalizing ep with
  | nil => exact ok
  | cons pkg pkgs ih =>
    exact ih (ok.receive _ (formed _ mem_cons_self)) fun other mem =>
      formed other (mem_cons_of_mem _ mem)

end

end Endpoint.Ok

/-! ### Reads -/

/-- An offset into the first of some packets. -/
def Inside (offset : Nat) : List HandleOutputPkg → Prop
  | [] => offset = 0
  | pkg :: _ => offset < pkg.msgSendBuf.length

/-- Bytes from the front are whole packets and a part of the next. -/
theorem advance_spec (n : Nat) (pkgs : List HandleOutputPkg) :
    ∃ whole, pkgs = whole ++ (advance n pkgs).2 ∧
    (bytesOf pkgs).take n = bytesOf whole ++ (bytesOf (advance n pkgs).2).take (advance n pkgs).1 ∧
    Inside (advance n pkgs).1 (advance n pkgs).2 := by
  induction pkgs generalizing n with
  | nil => exact ⟨[], rfl, by simp [bytesOf, advance], rfl⟩
  | cons pkg pkgs ih =>
    rw [advance]
    split
    case isTrue inside => exact ⟨[], rfl, rfl, inside⟩
    case isFalse beyond =>
      obtain ⟨whole, split, bytes, inside⟩ := ih (n - pkg.msgSendBuf.length)
      refine ⟨pkg :: whole, congrArg (pkg :: ·) split, ?_, inside⟩
      have front : bytesOf (pkg :: pkgs) = pkg.msgSendBuf ++ bytesOf pkgs := rfl
      have front' : bytesOf (pkg :: whole) = pkg.msgSendBuf ++ bytesOf whole := rfl
      rw [front, front', take_append, take_of_length_le (Nat.not_lt.mp beyond), bytes,
        append_assoc]

/-- The part of a packet that was read is there whatever comes behind it. -/
theorem take_bytesOf {offset : Nat} {pkg : HandleOutputPkg} (inside : offset < pkg.msgSendBuf.length)
    (others : List HandleOutputPkg) :
    (bytesOf (pkg :: others)).take offset = pkg.msgSendBuf.take offset := by
  rw [show bytesOf (pkg :: others) = pkg.msgSendBuf ++ bytesOf others from rfl,
    take_append_of_le_length (Nat.le_of_lt inside)]

/-- What a read does: the packets that are complete now are processed in order. -/
theorem readUart_packets (accept : Nat → Bool) {ep : Endpoint} {pkgs : List HandleOutputPkg}
    (sound : ∀ pkg ∈ pkgs, pkg.Sound) {offset count : Nat}
    (begun : ep.dataReadBuf = (bytesOf pkgs).take offset) :
    ∃ whole, pkgs = whole ++ (advance (offset + count) pkgs).2 ∧
      Inside (advance (offset + count) pkgs).1 (advance (offset + count) pkgs).2 ∧
      ep.readUart accept (((bytesOf pkgs).drop offset).take count) =
        { whole.foldl (Endpoint.receive accept) ep with
          dataReadBuf :=
            (bytesOf (advance (offset + count) pkgs).2).take (advance (offset + count) pkgs).1 } := by
  obtain ⟨whole, split, bytes, inside⟩ := advance_spec (offset + count) pkgs
  refine ⟨whole, split, inside, ?_⟩
  have buffer : ep.dataReadBuf ++ ((bytesOf pkgs).drop offset).take count =
      bytesOf whole ++
        (bytesOf (advance (offset + count) pkgs).2).take (advance (offset + count) pkgs).1 := by
    rw [begun, ← bytes, take_add]
  generalize advance (offset + count) pkgs = left at *
  have rest : ∀ ep' : Endpoint, ep'.packageProcess accept ((bytesOf left.2).take left.1) =
      (ep', (bytesOf left.2).take left.1) := by
    intro ep'
    cases next : left.2 with
    | nil =>
      rw [Endpoint.packageProcess, if_pos (by simp [bytesOf, headSize])]
    | cons pkg others =>
      rw [next] at inside
      have inside : left.1 < pkg.msgSendBuf.length := inside
      have mine : pkg ∈ pkgs := by rw [split, next]; simp
      rw [take_bytesOf inside]
      refine packageProcess_partial _ _ (sound _ mine) (take_append_drop _ _) ?_
      exact fun done => absurd (drop_eq_nil_iff.mp done) (Nat.not_le.mpr inside)
  rw [Endpoint.readUart, buffer]
  have wholeSound : ∀ pkg ∈ whole, pkg.Sound := fun pkg mem =>
    sound pkg (split ▸ mem_append_left _ mem)
  have processed := packageProcess_packets accept whole ep wholeSound
    ((bytesOf left.2).take left.1)
  rw [show bytesOf whole = (whole.map HandleOutputPkg.msgSendBuf).flatten from rfl, processed, rest]

end Hdc.Uart
