import Hdc.Define
import Hdc.Lib.Words

/-!
Blocks on a USB endpoint (`usb.cpp`): how `SendUSBBlock` puts a block on the wire, and what
`SendToHdcStream` makes of what is read.

A block goes out as a head of eleven bytes, which announces its size, and its body in a
transfer of its own; a body that fills its last packet is followed by a head that
announces nothing, so that no empty packet is needed. The reader gets bytes without being
told what they are: eleven bytes that look like a head are one, anything else is a part
of the body that was announced last.
-/

namespace Hdc.Usb

open RetErrCode List Endian

/-! ### Heads -/

def usbPacketFlag : Bytes := str "UB"
def usbOptionHeader : UInt8 := 1
def usbOptionReset : UInt8 := 2
def sizeofUSBHead : Nat := 11

/-- `BuildPacketHeader`: a packed head, numbers in network byte order. -/
def usbHead (sessionId : UInt32) (option : UInt8) (dataSize : UInt32) : Bytes :=
  usbPacketFlag ++ option :: (toBE 4 sessionId.toNat ++ toBE 4 dataSize.toNat)

/-- The members of a head, read from the bytes. -/
def headOption (buf : Bytes) : UInt8 := buf.getD 2 0
def headSessionId (buf : Bytes) : UInt32 := UInt32.ofNat (ofBE ((buf.drop 3).take 4))
def headDataSize (buf : Bytes) : UInt32 := UInt32.ofNat (ofBE ((buf.drop 7).take 4))

/-- `option & flag`. -/
def hasOption (option flag : UInt8) : Bool := option &&& flag != 0

/-- `IsUsbPacketHeader`: eleven bytes with the flag that announce a block or nothing. -/
def isUsbPacketHeader (ioBuf : Bytes) : Bool :=
  decide (ioBuf.length = sizeofUSBHead) && decide (ioBuf.take 2 = usbPacketFlag) &&
    (decide (headDataSize ioBuf = 0) || hasOption (headOption ioBuf) usbOptionHeader)

/-! ### Sending a block -/

/-- `SendUSBBlock`: what is returned and the transfers that were made. `sendUSBRaw` is the
endpoint: it answers with the bytes that went out. -/
def sendUSBBlock (sendUSBRaw : Bytes → Int) (sessionId : UInt32) (wMaxPacketSizeSend : UInt16)
    (data : Bytes) : Int × List Bytes :=
  let header := usbHead sessionId usbOptionHeader (UInt32.ofNat data.length)
  if wMaxPacketSizeSend = 0 then (errIoFail, [])
  else if sendUSBRaw header ≤ 0 then (errIoFail, [])
  else
    let childRet := sendUSBRaw data
    if childRet ≤ 0 then (errIoFail, [header])
    else if childRet % wMaxPacketSizeSend.toNat = 0 then
      let dummy := usbHead sessionId 0 0
      if sendUSBRaw dummy ≤ 0 then (errIoFail, [header, data])
      else (data.length, [header, data, dummy])
    else (data.length, [header, data])

/-! ### What is read -/

/-- The part of a session that reading from USB uses. `sent` are the heads that
`PreSendUsbSoftReset` put on the endpoint, `stream` is what went to the session. -/
structure UsbSession where
  sessionId : UInt32
  serverOrDaemon : Bool
  payloadSize : UInt32
  resetIO : Bool
  sent : List Bytes
  stream : Bytes
deriving DecidableEq, Repr

/-- `PreSendUsbSoftReset`: only a server asks for a reset, and only once. -/
def UsbSession.preSendUsbSoftReset (session : UsbSession) (sessionIdOld : UInt32) : UsbSession :=
  if session.serverOrDaemon && !session.resetIO then
    { session with
      sent := session.sent ++ [usbHead sessionIdOld usbOptionReset 0]
      resetIO := true }
  else
    session

/-- An unsigned number that is returned as an `int`. -/
def asInt (value : UInt32) : Int :=
  if value.toNat < 2 ^ 31 then value.toNat else (value.toNat : Int) - 2 ^ 32

/-- `CheckPacketOption`: a head of another session is not for us, one that announces a
block starts it, any other one is passed over. -/
def UsbSession.checkPacketOption (session : UsbSession) (appendData : Bytes) : Int × UsbSession :=
  if headSessionId appendData ≠ session.sessionId then
    (0, session.preSendUsbSoftReset (headSessionId appendData))
  else
    let payloadSize :=
      if hasOption (headOption appendData) usbOptionHeader then headDataSize appendData
      else session.payloadSize
    (asInt payloadSize, { session with payloadSize := payloadSize })

/-- What became of a buffer that was written to the session's stream: the value returned
and the bytes that went through. -/
structure Written where
  ret : Int
  passed : Nat
deriving DecidableEq, Repr

/-- `SendToHdcStream`: negative on an error, otherwise what is still missing. -/
def UsbSession.sendToHdcStream (session : UsbSession) (usbToHdcProtocol : Bytes → Written)
    (appendData : Bytes) : Int × UsbSession :=
  if isUsbPacketHeader appendData then
    session.checkPacketOption appendData
  else if session.payloadSize ≤ 0 then
    -- 0 stands for the current session
    (0, session.preSendUsbSoftReset 0)
  else
    let written := usbToHdcProtocol appendData
    let stream := session.stream ++ appendData.take written.passed
    if written.ret < 0 then
      (errIoFail, { session with stream := stream })
    else
      let payloadSize := session.payloadSize - UInt32.ofNat written.ret.toNat
      (asInt payloadSize, { session with stream := stream, payloadSize := payloadSize })

theorem UsbSession.sendToHdcStream_head (session : UsbSession) (usbToHdcProtocol : Bytes → Written)
    {appendData : Bytes} (head : isUsbPacketHeader appendData = true) :
    session.sendToHdcStream usbToHdcProtocol appendData = session.checkPacketOption appendData :=
  if_pos head

section

variable {session : UsbSession} (usbToHdcProtocol : Bytes → Written) {appendData : Bytes}
  (body : isUsbPacketHeader appendData = false)
include usbToHdcProtocol body

theorem UsbSession.sendToHdcStream_idle (nothing : session.payloadSize = 0) :
    session.sendToHdcStream usbToHdcProtocol appendData = (0, session.preSendUsbSoftReset 0) := by
  have none : session.payloadSize ≤ 0 := by
    rw [nothing]
    exact UInt32.le_refl 0
  rw [UsbSession.sendToHdcStream, body, if_neg (by decide), if_pos none]

theorem UsbSession.sendToHdcStream_body (expected : session.payloadSize ≠ 0) :
    session.sendToHdcStream usbToHdcProtocol appendData =
      let written := usbToHdcProtocol appendData
      let stream := session.stream ++ appendData.take written.passed
      if written.ret < 0 then
        (errIoFail, { session with stream := stream })
      else
        let payloadSize := session.payloadSize - UInt32.ofNat written.ret.toNat
        (asInt payloadSize, { session with stream := stream, payloadSize := payloadSize }) := by
  have more : ¬ session.payloadSize ≤ 0 := fun none => expected (UInt32.le_zero_iff.mp none)
  rw [UsbSession.sendToHdcStream, body, if_neg (by decide), if_neg more]

end

/-! ### Writing to the session's stream -/

/-- What the socket of a session answers to the server. -/
inductive SocketAnswer where
  | selectFailed
  | sendFailed
  | sent (bytes : Nat)
deriving DecidableEq, Repr

/-- The loop of the server's `UsbToHdcProtocol`: how much got through. Answers that are not
there are timeouts of `select`. -/
def sendLoop (dataSize : Nat) : List SocketAnswer → Nat → Nat → Nat
  | [], index, _ => index
  | answer :: answers, index, retryTimes =>
    if dataSize ≤ index then index
    else
      match answer with
      | .selectFailed => if 3 ≤ retryTimes then index else sendLoop dataSize answers index (retryTimes + 1)
      | .sendFailed => index
      | .sent bytes => sendLoop dataSize answers (index + min bytes (dataSize - index)) retryTimes

/-- What `UsbToStream` of the daemon comes across. -/
inductive StreamAnswer where
  | written
  | noBuffer
  | copyFailed
  | noRequest
  | unwritable
  | refused
deriving DecidableEq, Repr

/-- The two ends of the cable write to a session in their own way. -/
inductive Transport where
  | host (answers : List SocketAnswer)
  | daemon (answer : StreamAnswer)
deriving DecidableEq, Repr

/-- `UsbToHdcProtocol`. The server may get a part through and still report an error; the
daemon hands over all or nothing. -/
def usbToHdcProtocol : Transport → Bytes → Written
  | .host answers, appendData =>
    let index := sendLoop appendData.length answers 0 0
    if index ≠ appendData.length then ⟨errIoFail, index⟩ else ⟨index, index⟩
  | .daemon answer, appendData =>
    match answer with
    | .written => ⟨appendData.length, appendData.length⟩
    | .noBuffer => ⟨-1, 0⟩
    | .copyFailed => ⟨errBufCopy, 0⟩
    | .noRequest => ⟨errBufAlloc, 0⟩
    | .unwritable => ⟨errGeneric, 0⟩
    | .refused => ⟨errIoFail, 0⟩

theorem sendLoop_le (dataSize : Nat) (answers : List SocketAnswer) {index : Nat} (retryTimes : Nat)
    (inside : index ≤ dataSize) : sendLoop dataSize answers index retryTimes ≤ dataSize := by
  induction answers generalizing index retryTimes with
  | nil => exact inside
  | cons answer answers ih =>
    cases answer with
    | selectFailed =>
      rw [sendLoop]
      split
      · exact inside
      · split
        · exact inside
        · exact ih _ inside
    | sendFailed =>
      rw [sendLoop, ite_self]
      exact inside
    | sent bytes =>
      rw [sendLoop]
      split
      · exact inside
      · exact ih _ (by omega)

/-- Either everything goes through, or the call reports an error. -/
theorem usbToHdcProtocol_spec (transport : Transport) (appendData : Bytes) :
    usbToHdcProtocol transport appendData = ⟨appendData.length, appendData.length⟩ ∨
    ((usbToHdcProtocol transport appendData).ret < 0 ∧
    (usbToHdcProtocol transport appendData).passed ≤ appendData.length) := by
  cases transport with
  | host answers =>
    rw [usbToHdcProtocol]
    split
    · exact .inr ⟨show errIoFail < 0 by decide, sendLoop_le _ _ _ (Nat.zero_le _)⟩
    next whole =>
      rw [not_not.mp whole]
      exact .inl rfl
  | daemon answer =>
    cases answer with
    | written => exact .inl rfl
    | noBuffer => exact .inr ⟨show (-1 : Int) < 0 by decide, Nat.zero_le _⟩
    | copyFailed => exact .inr ⟨show errBufCopy < 0 by decide, Nat.zero_le _⟩
    | noRequest => exact .inr ⟨show errBufAlloc < 0 by decide, Nat.zero_le _⟩
    | unwritable => exact .inr ⟨show errGeneric < 0 by decide, Nat.zero_le _⟩
    | refused => exact .inr ⟨show errIoFail < 0 by decide, Nat.zero_le _⟩

/-! ### Heads read back -/

section

variable (sessionId : UInt32) (option : UInt8) (dataSize : UInt32)
include sessionId option dataSize

theorem length_usbHead : (usbHead sessionId option dataSize).length = sizeofUSBHead := by
  simp [usbHead, usbPacketFlag, str, sizeofUSBHead]

theorem headOption_usbHead : headOption (usbHead sessionId option dataSize) = option := rfl

/-- The numbers of a head, behind its flag and its option. -/
theorem drop_usbHead : (usbHead sessionId option dataSize).drop 3 =
    toBE 4 sessionId.toNat ++ toBE 4 dataSize.toNat := rfl

end

theorem ofBE_toBE_uint32 (value : UInt32) :
    UInt32.ofNat (ofBE (toBE 4 value.toNat)) = value := by
  have bound : value.toNat < 256 ^ 4 := value.toNat_lt
  rw [ofBE_toBE, Nat.mod_eq_of_lt bound, UInt32.ofNat_toNat]

theorem headSessionId_usbHead (sessionId : UInt32) (option : UInt8) (dataSize : UInt32) :
    headSessionId (usbHead sessionId option dataSize) = sessionId := by
  rw [headSessionId, drop_usbHead, take_left' (length_toBE ..), ofBE_toBE_uint32]

theorem headDataSize_usbHead (sessionId : UInt32) (option : UInt8) (dataSize : UInt32) :
    headDataSize (usbHead sessionId option dataSize) = dataSize := by
  have behind : (usbHead sessionId option dataSize).drop 7 = toBE 4 dataSize.toNat := by
    rw [show (7 : Nat) = 3 + 4 from rfl, ← drop_drop, drop_usbHead,
      drop_left' (length_toBE ..)]
  rw [headDataSize, behind, take_of_length_le (Nat.le_of_eq (length_toBE ..)),
    ofBE_toBE_uint32]

end Hdc.Usb
