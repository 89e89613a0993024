import Hdc.Session.Stream
import Hdc.Uart.Package

/-!
One end of a serial link (`uart.cpp`, `daemon_uart.cpp`, `host_uart.cpp`).

Four threads meet at the table of outgoing packages: callers of `SendUARTData` cut their data into
packages and wait for the session's slot, the writing thread runs `SendPkgInUARTOutMap`, the reading
thread runs `PackageProcess` on what it read, and a session that cannot go on asks the other side to
free its own. Each of them is a function on `Endpoint` here, one call at a time, as the table's lock
orders them. Packets of other sessions on the same wire are not part of it.

* `packageProcess_packet`, `packageProcess_partial`: what a read does is settled packet by packet,
  however the bytes are cut into reads.
-/

namespace Hdc.Uart

open List UartHead UInt32

open Hdc.Session (Build)
open RetErrCode

/-! ### State -/

/-- The counters of `HdcUART`. `packageIndex` has 64 bits in the source and is
cut to the 32 bits of the head, which is the same for any width above. -/
structure HdcUART where
  dispatchedPackageIndex : UInt32
  packageIndex : Nat
deriving DecidableEq, Repr

/-- A new session's `HdcUART`. -/
def HdcUART.new : HdcUART := ⟨0, 0⟩

/-- A call of `SendUARTData` that waits for the slot: the package it has built
and the data behind it. -/
structure Sending where
  head : UartHead
  payload : Bytes
  rest : Bytes
deriving DecidableEq, Repr

/-- One end of the link. `slot` says that the session is in `hasWaitPkg`, `found`
that `GetSession` finds it. The last four fields record what the end has done:
`FreeSession` was called, `SendUARTData` was called with these data, these payloads
were submitted (past the slot), these were given to `DispatchToWorkThread`. -/
structure Endpoint where
  build : Build
  sessionId : UInt32
  outPkgs : List HandleOutputPkg
  slot : Bool
  hUART : HdcUART
  found : Bool
  devOpened : Bool
  sending : List Sending
  dataReadBuf : Bytes
  freed : Bool
  calls : List Bytes
  submitted : List Bytes
  dispatched : List Bytes
deriving DecidableEq, Repr

open Endpoint

/-- An end with a new session. -/
def Endpoint.new (build : Build) (sessionId : UInt32) : Endpoint :=
  { build, sessionId, outPkgs := [], slot := false, hUART := .new, found := true,
    devOpened := true, sending := [], dataReadBuf := [], freed := false, calls := [],
    submitted := [], dispatched := [] }

/-- `MAX_UART_SIZE_IOBUF - sizeof(UartHead)`. -/
def packageDataMaxSize : Nat := 4096 - 24

/-- `WAIT_RESPONSE_TIME_OUT_MS`. -/
def waitResponseTimeOutMs : Nat := 1000

/-- `PACKET_FLAG`. -/
def packetFlag : UInt8 × UInt8 := (72, 87)

/-- The constructor of `UartHead`. -/
def UartHead.new (sessionId : UInt32) (option : UInt16) (dataSize packageIndex : UInt32) :
    UartHead :=
  ⟨packetFlag, option, sessionId, dataSize, packageIndex, 0, 0⟩

/-! ### Submitting -/

/-- The package that a turn of the loop of `SendUARTData` builds: the next piece of
data behind a head. -/
def Sending.next (sessionId : UInt32) (packageIndex : Nat) (data : Bytes) : Sending :=
  let payload := data.take packageDataMaxSize
  let option := if packageDataMaxSize < data.length then 0 else UartProtocolOption.tail.bit
  { head := .new sessionId option (ofNat payload.length) (ofNat packageIndex)
    payload, rest := data.drop packageDataMaxSize }

/-- One turn of that loop up to `RequestSendPackage`, with the next index. -/
def Endpoint.nextPackage (ep : Endpoint) (data : Bytes) : Endpoint × Sending :=
  let packageIndex := ep.hUART.packageIndex + 1
  ({ ep with hUART := { ep.hUART with packageIndex } }, .next ep.sessionId packageIndex data)

/-- A call of `SendUARTData` waits for the slot with the next package of its data. -/
def Endpoint.beginPackage (ep : Endpoint) (data : Bytes) : Endpoint :=
  let (ep, sending) := ep.nextPackage data
  { ep with sending := ep.sending ++ [sending] }

/-- `SendUARTData` is called. -/
def Endpoint.sendUARTData (ep : Endpoint) (data : Bytes) : Endpoint :=
  { ep with calls := ep.calls ++ [data] }.beginPackage data

/-- `RequestSendPackage` with the slot taken, and the loop of `SendUARTData` goes
on with the rest of its data. -/
def Endpoint.request (ep : Endpoint) (sending : Sending) : Endpoint :=
  let ep :=
    { ep with
      slot := true
      outPkgs := requestSendPackage ep.outPkgs sending.head sending.payload
      submitted := ep.submitted ++ [sending.payload] }
  if sending.rest = [] then ep else ep.beginPackage sending.rest

/-- The pieces that `SendUARTData` cuts its data into. -/
def cut (data : Bytes) : List Bytes :=
  if packageDataMaxSize < data.length then
    data.take packageDataMaxSize :: cut (data.drop packageDataMaxSize)
  else
    [data]
termination_by data.length
decreasing_by simp only [length_drop, packageDataMaxSize] at *; omega

theorem flatten_cut (data : Bytes) : (cut data).flatten = data := by
  fun_induction cut data with
  | case1 data long ih => rw [flatten_cons, ih, take_append_drop]
  | case2 data short => rw [flatten_cons, flatten_nil, append_nil]

/-- The pieces that a waiting call has not put into the table. -/
def Sending.pieces (call : Sending) : List Bytes :=
  call.payload :: if call.rest = [] then [] else cut call.rest

theorem pieces_nextPackage (ep : Endpoint) (data : Bytes) :
    (ep.nextPackage data).2.pieces = cut data := by
  rw [Sending.pieces, Endpoint.nextPackage, Sending.next]
  dsimp only
  split
  case isTrue short =>
    have all := drop_eq_nil_iff.mp short
    rw [cut.eq_def data, if_neg (Nat.not_lt.mpr all), take_of_length_le all]
  case isFalse more =>
    rw [drop_eq_nil_iff, Nat.not_le] at more
    rw [cut.eq_def data, if_pos more]

/-- The `i`-th waiting call gets the slot, if it is free. -/
def Endpoint.takeSlot (ep : Endpoint) (i : Nat) : Endpoint :=
  match ep.slot, ep.sending[i]? with
  | false, some sending => { ep with sending := ep.sending.eraseIdx i }.request sending
  | _, _ => ep

/-- `ResponseUartTrans`. -/
def Endpoint.responseUartTrans (ep : Endpoint) (packageIndex : UInt32)
    (option : UartProtocolOption) : Endpoint :=
  { ep with
    outPkgs := requestSendPackage ep.outPkgs (.new ep.sessionId option.bit 0 packageIndex) [] }

/-- `ResponseUartTrans` with `PKG_OPTION_FREE` and the next index. -/
def Endpoint.requestFree (ep : Endpoint) : Endpoint :=
  let packageIndex := ep.hUART.packageIndex + 1
  { ep with hUART := { ep.hUART with packageIndex } }.responseUartTrans
    (ofNat packageIndex) .free

/-! ### Freeing -/

/-- `ClearUARTOutMapRaw`. -/
def Endpoint.clearUARTOutMap (ep : Endpoint) : Endpoint :=
  { ep with
    outPkgs := ep.outPkgs.filter fun pkg => pkg.sessionId ≠ ep.sessionId
    slot := ep.slot && !ep.outPkgs.any fun pkg => pkg.sessionId = ep.sessionId && !pkg.response }

/-- `OnTransferError`, `OnTransferErrorRaw` on the session `GetSession` finds. -/
def Endpoint.onTransferError (ep : Endpoint) : Endpoint :=
  if ep.found then
    { ep with freed := true, devOpened := ep.devOpened && ep.build == Build.daemon }.clearUARTOutMap
  else
    ep

/-- `Restartession` on the session `GetSession` finds. -/
def Endpoint.restartession (ep : Endpoint) : Endpoint :=
  if ep.found then
    { ep.clearUARTOutMap with freed := true, devOpened := ep.devOpened && ep.build == Build.daemon }
  else
    ep

/-- `FetchIOBuf` failed on what the session was given: the other side is asked to
free its session, and this one is freed. -/
def Endpoint.fetchFailed (ep : Endpoint) : Endpoint := { ep.requestFree with freed := true }

/-- The freed session is removed; `GetSession` does not find it from here on. -/
def Endpoint.removed (ep : Endpoint) : Endpoint :=
  if ep.freed then
    { ep.clearUARTOutMap with found := false, sending := [], devOpened := ep.build == Build.daemon }
  else
    ep

/-! ### Writing -/

/-- What `SendUARTRaw` comes to: written, not written, or not written with
`OnTransferErrorRaw` called on the session. -/
inductive SendResult where
  | sent
  | failed
  | broken
deriving DecidableEq, Repr

/-- `SendUARTRaw`, where `written` is what `WriteUartDev` returns. The host writes
to the session's device, which may be closed; the daemon's is its own, and its
responses need no session. -/
def Endpoint.sendUARTRaw (ep : Endpoint) (written : HandleOutputPkg → Int)
    (pkg : HandleOutputPkg) : SendResult :=
  let sendBytes := if ep.devOpened then written pkg else -1
  if ep.build = .daemon ∧ pkg.response then
    if 0 < sendBytes then .sent else .failed
  else if ¬ ep.found then .failed
  else if sendBytes < 0 then .broken
  else if 0 < sendBytes then .sent
  else .failed

/-- What a pass over the table leaves: the table, what was written in order, and
the package it stopped at, if the session of that has to be freed. -/
structure Pass where
  outPkgs : List HandleOutputPkg
  sent : List HandleOutputPkg
  stopped : Option HandleOutputPkg
deriving DecidableEq, Repr

/-- The rest of a pass goes on behind a package that stays. -/
def Pass.keep (pkg : HandleOutputPkg) (pass : Pass) : Pass :=
  { pass with outPkgs := pkg :: pass.outPkgs }

/-- The package was written. -/
def Pass.wrote (pkg : HandleOutputPkg) (pass : Pass) : Pass :=
  { pass with sent := pkg :: pass.sent }

/-- The loop of `SendPkgInUARTOutMap`. `hasWaitPkg` holds the sessions that wait
for a response, `now` is the clock. -/
def sendLoop (raw : HandleOutputPkg → SendResult) (now : Nat) :
    List UInt32 → List HandleOutputPkg → Pass
  | _, [] => ⟨[], [], none⟩
  | hasWaitPkg, pkg :: outPkgs =>
    match pkg.pkgStatus with
    | .waitSend =>
      if pkg.response = false ∧ pkg.sessionId ∈ hasWaitPkg then
        (sendLoop raw now hasWaitPkg outPkgs).keep pkg
      else
        match raw pkg with
        | .failed => ⟨pkg :: outPkgs, [], none⟩
        | .broken => ⟨pkg :: outPkgs, [], some pkg⟩
        | .sent =>
          if pkg.response then
            (sendLoop raw now hasWaitPkg outPkgs).wrote pkg
          else
            ((sendLoop raw now (pkg.sessionId :: hasWaitPkg) outPkgs).keep
              { pkg with pkgStatus := .waitResponse, sendTimePoint := now }).wrote pkg
    | .waitResponse =>
      if waitResponseTimeOutMs ≤ now - pkg.sendTimePoint then
        if 0 < pkg.retryChance then
          -- the package is sent in the next pass, this one ends
          ⟨{ pkg with pkgStatus := .waitSend, retryChance := pkg.retryChance - 1 } :: outPkgs, [],
            none⟩
        else
          ⟨pkg :: outPkgs, [], some pkg⟩
      else
        (sendLoop raw now (pkg.sessionId :: hasWaitPkg) outPkgs).keep pkg

/-- `SendPkgInUARTOutMap`: the table afterwards and the packages on the wire. -/
def Endpoint.sendPkgInUARTOutMap (ep : Endpoint) (written : HandleOutputPkg → Int) (now : Nat) :
    Endpoint × List HandleOutputPkg :=
  let pass := sendLoop (ep.sendUARTRaw written) now [] ep.outPkgs
  let ep := { ep with outPkgs := pass.outPkgs }
  (if pass.stopped.isSome then ep.onTransferError else ep, pass.sent)

/-! ### Reading -/

/-- The bytes of a package on the wire. -/
def HandleOutputPkg.msgSendBuf (pkg : HandleOutputPkg) : Bytes := pkg.head.toBytes ++ pkg.payload

/-- A word of `size` bytes at an offset. -/
def wordAt (data : Bytes) (offset size : Nat) : Nat := Endian.ofLE ((data.drop offset).take size)

/-- The head at the start of a buffer. -/
def UartHead.ofBytes (data : Bytes) : UartHead :=
  { flag := (data.getD 0 0, data.getD 1 0)
    option := UInt16.ofNat (wordAt data 2 2)
    sessionId := ofNat (wordAt data 4 4)
    dataSize := ofNat (wordAt data 8 4)
    packageIndex := ofNat (wordAt data 12 4)
    dataCheckSum := ofNat (wordAt data 16 4)
    headCheckSum := ofNat (wordAt data 20 4) }

def UartHead.validateHead (head : UartHead) : Bool :=
  head.headCheckSum == accumulate head.checkedBytes

/-- `ValidateData`, with what follows the head. -/
def UartHead.validateData (head : UartHead) (behind : Bytes) : Bool :=
  head.dataSize == 0 || head.dataCheckSum == accumulate (behind.take head.dataSize.toNat)

/-- `ProcessResponsePackage` with the slot. -/
def Endpoint.processResponse (ep : Endpoint) (head : UartHead) : Endpoint :=
  { ep with
    outPkgs := processResponsePackage head ep.outPkgs
    slot := ep.slot && !(head.has .ack && (responseTarget ep.outPkgs head).isSome) }

/-- `ResetOldSession`: only the daemon's does anything. -/
def Endpoint.resetOldSession (ep : Endpoint) : Endpoint :=
  if ep.build = .daemon then ep.onTransferError else ep

/-- `sizeof(UartHead)`. -/
def headSize : Nat := 24

/-- The size of a packet, as `ValidateUartPacket` hands it out. -/
def UartHead.packetSize (head : UartHead) : Nat := head.dataSize.toNat + headSize

/-- `ValidateUartPacket` and its return code. -/
def Endpoint.validateUartPacket (ep : Endpoint) (data : Bytes) : Int × Endpoint :=
  let head := UartHead.ofBytes data
  if head.flag ≠ packetFlag then (errBufCheck, ep)
  else if !head.validateHead then (errBufCheck, ep)
  else if packageDataMaxSize < head.dataSize.toNat then (errBufOverflow, ep)
  else if head.has .reset then (errIoSoftReset, ep.resetOldSession)
  else
    let ep := if head.has .free then ep.restartession else ep
    if head.packetSize ≤ data.length then
      if !head.validateData (data.drop headSize) then (errBufCheck, ep)
      else if head.isResponsePackage then (retSuccess, ep.processResponse head)
      else (retSuccess, ep.responseUartTrans head.packageIndex .ack)
    else
      (retSuccess, ep)

/-- `DispatchPackageData`. `accept` says whether `DispatchToWorkThread` succeeds,
by the number of payloads it was given before. -/
def Endpoint.dispatchPackageData (ep : Endpoint) (accept : Nat → Bool) (packageIndex : UInt32)
    (payload : Bytes) : Endpoint :=
  if ep.hUART.dispatchedPackageIndex = packageIndex then ep
  else
    let dispatched :=
      { ep with
        hUART := { ep.hUART with dispatchedPackageIndex := packageIndex }
        dispatched := ep.dispatched ++ [payload] }
    if accept ep.dispatched.length then dispatched else dispatched.requestFree

/-- The session of a packet to dispatch: the host reads for one that exists, the
daemon makes a new one where there is none. -/
def Endpoint.prepareSession (ep : Endpoint) : Endpoint :=
  if ep.found ∨ ep.build = .host then ep else { ep with found := true, hUART := .new }

/-- `PackageProcess` on a read buffer: the endpoint afterwards and what is left in
the buffer. -/
def Endpoint.packageProcess (accept : Nat → Bool) (ep : Endpoint) (data : Bytes) :
    Endpoint × Bytes :=
  if data.length < headSize then (ep, data)
  else
    let head := UartHead.ofBytes data
    match ep.validateUartPacket data with
    | (ret, ep) =>
      if ret ≠ retSuccess then (ep, [])
      else if head.packetSize = headSize then packageProcess accept ep (data.drop head.packetSize)
      else if head.packetSize ≤ data.length then
        packageProcess accept
          (ep.prepareSession.dispatchPackageData accept head.packageIndex
            ((data.drop headSize).take head.dataSize.toNat))
          (data.drop head.packetSize)
      else
        (ep, data)
termination_by data.length
decreasing_by all_goals simp only [length_drop, UartHead.packetSize, headSize] at *; omega

/-- A read of the reading thread. -/
def Endpoint.readUart (ep : Endpoint) (accept : Nat → Bool) (bytes : Bytes) : Endpoint :=
  let (ep, left) := ep.packageProcess accept (ep.dataReadBuf ++ bytes)
  { ep with dataReadBuf := left }

/-! ### Packets on the wire -/

theorem wordAt_skip {front behind : Bytes} {offset size : Nat} (skip : front.length ≤ offset) :
    wordAt (front ++ behind) offset size = wordAt behind (offset - front.length) size := by
  rw [wordAt, wordAt, drop_append, drop_eq_nil_of_le skip, nil_append]

theorem wordAt_zero (size value : Nat) (behind : Bytes) :
    wordAt (Endian.toLE size value ++ behind) 0 size = value % 256 ^ size := by
  rw [wordAt, drop_zero, take_append_of_le_length (by simp),
    take_of_length_le (by simp), Endian.ofLE_toLE]

theorem length_checkedBytes (head : UartHead) : head.checkedBytes.length = 20 := by
  simp [checkedBytes]

theorem length_toBytes (head : UartHead) : head.toBytes.length = headSize := by
  simp [toBytes, length_checkedBytes, headSize]

/-- A head is read back from its bytes. -/
theorem ofBytes_toBytes (head : UartHead) (behind : Bytes) :
    ofBytes (head.toBytes ++ behind) = head := by
  have word16 : ∀ value : UInt16, UInt16.ofNat (value.toNat % 256 ^ 2) = value := by
    intro value
    rw [Nat.mod_eq_of_lt (by have := value.toNat_lt; omega)]
    exact UInt16.ofNat_toNat
  have word32 : ∀ value : UInt32, UInt32.ofNat (value.toNat % 256 ^ 4) = value := by
    intro value
    rw [Nat.mod_eq_of_lt (by have := value.toNat_lt; omega)]
    exact UInt32.ofNat_toNat
  simp only [ofBytes, toBytes, checkedBytes, append_assoc]
  simp only [wordAt_skip, length_cons, length_nil, Endian.length_toLE, Nat.reduceAdd,
    Nat.reduceSub, Nat.reduceLeDiff, Nat.le_refl, wordAt_zero, word16, word32]
  rfl

/-- A packet as the senders build it: correct checksums, and a request to free
the session carries no data. -/
structure HandleOutputPkg.Sound (pkg : HandleOutputPkg) : Prop where
  flag : pkg.head.flag = packetFlag
  size : pkg.head.dataSize.toNat = pkg.payload.length
  fits : pkg.payload.length ≤ packageDataMaxSize
  headSum : pkg.head.validateHead = true
  dataSum : pkg.head.validateData pkg.payload = true
  noReset : pkg.head.has .reset = false
  freeEmpty : pkg.head.has .free = true → pkg.payload = []

/-- What one whole packet does to an endpoint. -/
def Endpoint.receive (accept : Nat → Bool) (ep : Endpoint) (pkg : HandleOutputPkg) : Endpoint :=
  let ep := if pkg.head.has .free then ep.restartession else ep
  let ep :=
    if pkg.head.isResponsePackage then ep.processResponse pkg.head
    else ep.responseUartTrans pkg.head.packageIndex .ack
  if pkg.payload = [] then ep
  else ep.prepareSession.dispatchPackageData accept pkg.head.packageIndex pkg.payload

variable {pkg : HandleOutputPkg}

theorem length_msgSendBuf (sound : pkg.Sound) :
    pkg.msgSendBuf.length = pkg.head.packetSize := by
  rw [HandleOutputPkg.msgSendBuf, length_append, length_toBytes, packetSize,
    sound.size, Nat.add_comm]

theorem validateData_append (sound : pkg.Sound) (behind : Bytes) :
    pkg.head.validateData (pkg.payload ++ behind) = true := by
  have fit : (pkg.payload ++ behind).take pkg.head.dataSize.toNat =
      pkg.payload.take pkg.head.dataSize.toNat := by
    rw [sound.size, take_append_of_le_length (Nat.le_refl _)]
  rw [validateData, fit]
  exact sound.dataSum

theorem HandleOutputPkg.Sound.small {pkg : HandleOutputPkg} (sound : pkg.Sound) :
    ¬ packageDataMaxSize < pkg.head.dataSize.toNat :=
  sound.size ▸ Nat.not_lt.mpr sound.fits

/-- A packet at the front of the buffer is processed and leaves it. -/
theorem packageProcess_packet (accept : Nat → Bool) (ep : Endpoint)
    (sound : pkg.Sound) (behind : Bytes) :
    ep.packageProcess accept (pkg.msgSendBuf ++ behind) =
    (ep.receive accept pkg).packageProcess accept behind := by
  have head : ofBytes (pkg.msgSendBuf ++ behind) = pkg.head := by
    rw [HandleOutputPkg.msgSendBuf, append_assoc, ofBytes_toBytes]
  have size := length_msgSendBuf sound
  have long : pkg.head.packetSize ≤ (pkg.msgSendBuf ++ behind).length := by
    rw [length_append, size]
    exact Nat.le_add_right _ _
  have some : ¬ (pkg.msgSendBuf ++ behind).length < headSize :=
    Nat.not_lt.mpr (Nat.le_trans (Nat.le_add_left _ _) long)
  have data : (pkg.msgSendBuf ++ behind).drop headSize = pkg.payload ++ behind := by
    rw [HandleOutputPkg.msgSendBuf, append_assoc, ← length_toBytes pkg.head,
      drop_left]
  have rest : (pkg.msgSendBuf ++ behind).drop pkg.head.packetSize = behind := by
    rw [← size, drop_left]
  have payload : (pkg.payload ++ behind).take pkg.head.dataSize.toNat = pkg.payload := by
    rw [sound.size, take_left]
  have empty : pkg.head.packetSize = headSize ↔ pkg.payload = [] := by
    rw [packetSize, sound.size, ← length_eq_zero_iff]
    omega
  have valid : ep.validateUartPacket (pkg.msgSendBuf ++ behind) =
      (retSuccess,
        let ep := if pkg.head.has .free then ep.restartession else ep
        if pkg.head.isResponsePackage then ep.processResponse pkg.head
        else ep.responseUartTrans pkg.head.packageIndex .ack) := by
    simp only [validateUartPacket, head, sound.flag, sound.headSum, sound.noReset, sound.small,
      long, data, validateData_append sound]
    cases pkg.head.isResponsePackage <;> simp
  rw [packageProcess, if_neg some]
  simp only [head, valid, ne_eq, not_true_eq_false, if_false, empty, long, if_true, data, payload,
    rest, receive]
  split <;> rfl

/-- A packet that has not arrived as a whole stays in the buffer. -/
theorem packageProcess_partial (accept : Nat → Bool) (ep : Endpoint)
    (sound : pkg.Sound) {part behind : Bytes} (split : part ++ behind = pkg.msgSendBuf)
    (more : behind ≠ []) : ep.packageProcess accept part = (ep, part) := by
  by_cases short : part.length < headSize
  · rw [packageProcess, if_pos short]
  · -- The head is there, so this is a packet with data.
    obtain ⟨got, rfl⟩ : ∃ got, part = pkg.head.toBytes ++ got := by
      have front : pkg.head.toBytes <+: part := by
        refine prefix_of_prefix_length_le ⟨pkg.payload, rfl⟩ ⟨_, split⟩ ?_
        exact Nat.not_lt.mp short
      obtain ⟨got, eq⟩ := front
      exact ⟨got, eq.symm⟩
    have head : ofBytes (pkg.head.toBytes ++ got) = pkg.head := ofBytes_toBytes ..
    have payload : got ++ behind = pkg.payload := by
      rw [append_assoc] at split
      exact append_cancel_left split
    have short : ¬ pkg.head.packetSize ≤ (pkg.head.toBytes ++ got).length := by
      have := length_pos_iff.mpr more
      rw [packetSize, sound.size, ← payload, length_append, length_append,
        length_toBytes]
      omega
    have notHeadOnly : ¬ pkg.head.packetSize = headSize := by
      have := length_pos_iff.mpr more
      omega
    have notFree : pkg.head.has .free = false := by
      cases free : pkg.head.has .free with
      | false => rfl
      | true =>
        have none := sound.freeEmpty free
        rw [← payload] at none
        exact absurd (append_eq_nil_iff.mp none).2 more
    have valid : ep.validateUartPacket (pkg.head.toBytes ++ got) = (retSuccess, ep) := by
      simp only [validateUartPacket, head, sound.flag, sound.headSum, sound.noReset, sound.small,
        notFree, short]
      simp
    rw [packageProcess, if_neg (by assumption)]
    simp only [head, valid, ne_eq, not_true_eq_false, if_false, notHeadOnly, short]

/-- A read is settled packet by packet. -/
theorem packageProcess_packets (accept : Nat → Bool) (pkgs : List HandleOutputPkg) (ep : Endpoint)
    (sound : ∀ pkg ∈ pkgs, pkg.Sound) (behind : Bytes) :
    ep.packageProcess accept ((pkgs.map HandleOutputPkg.msgSendBuf).flatten ++ behind) =
    (pkgs.foldl (receive accept) ep).packageProcess accept behind := by
  induction pkgs generalizing ep with
  | nil => rfl
  | cons pkg pkgs ih =>
    rw [map_cons, flatten_cons, append_assoc,
      packageProcess_packet accept ep (sound pkg mem_cons_self), foldl_cons]
    exact ih _ fun other mem => sound other (mem_cons_of_mem _ mem)

end Hdc.Uart
