import Hdc.Lib.Framing
import Hdc.SerialStruct

/-!
The session byte stream (`session.cpp`): how `Send` frames a command, and how `AllocCallback`,
`FetchIOBuf`, `OnRead` and `DecryptPayload` take the stream of frames apart again as the transport
delivers it.

A frame is a fixed head in network byte order, a serialized `PayloadProtect` and the data. The
receiver keeps the bytes it could not use yet at the front of one buffer of `hdcSocketpairSize`
bytes, reads behind them, and consumes frames while more than a head is available. `FetchCommand` is
a parameter.

* `fetch_calls_exact`: over a whole run, for every cut of the stream.
-/

namespace Hdc.Session

open SerialStruct RetErrCode List Framing Endian

/-! ### Frames -/

/-- `PayloadProtect`: the inner head of a frame. -/
structure PayloadProtect where
  channelId : UInt32
  commandFlag : UInt32
  checkSum : UInt8
  vCode : UInt8
deriving DecidableEq, Repr

/-- The descriptor of `PayloadProtect`. -/
def payloadProtectFields : List (FieldImpl PayloadProtect) :=
  [{ tag := 1, codec := uint32Serializer, get := (·.channelId),
     set := fun p value => { p with channelId := value } },
   { tag := 2, codec := uint32Serializer, get := (·.commandFlag),
     set := fun p value => { p with commandFlag := value } },
   { tag := 3, codec := uint8Serializer, get := (·.checkSum),
     set := fun p value => { p with checkSum := value } },
   { tag := 4, codec := uint8Serializer, get := (·.vCode),
     set := fun p value => { p with vCode := value } }]

/-- A call of `FetchCommand`, which is also what `Send` is given. -/
structure FetchCall where
  channelId : UInt32
  commandFlag : UInt16
  payload : Bytes
deriving DecidableEq, Repr

def packetFlag : Bytes := str "HW"
def verProtocol : UInt8 := 1
def payloadProtectStaticVcode : UInt8 := 0x09
def enableIoChecksum : Bool := false
def hdcSocketpairSize : Nat := maxSizeIobuf * 2
def sizeofPayloadHead : Nat := 11

/-- `CalcCheckSum`: the byte sum. -/
def calcCheckSum (data : Bytes) : UInt8 := data.foldl (· + ·) 0

/-- `PayloadHead` as it lies in memory: flag, two reserved bytes, version and
the two sizes in network byte order. -/
def payloadHead (headSize dataSize : Nat) : Bytes :=
  packetFlag ++ [0, 0, verProtocol] ++ toBE 2 headSize ++ toBE 4 dataSize

/-- The inner head that `Send` writes for a call. -/
def protectBuf (call : FetchCall) : PayloadProtect where
  channelId := call.channelId
  commandFlag := call.commandFlag.toUInt32
  checkSum := if enableIoChecksum && 0 < call.payload.length then calcCheckSum call.payload else 0
  vCode := payloadProtectStaticVcode

/-- The buffer that `Send` hands to the transport. -/
def send (call : FetchCall) : Bytes :=
  let s := serializeToString payloadProtectFields (protectBuf call)
  payloadHead s.length call.payload.length ++ s ++ call.payload

/-! ### The receiver -/

/-- The part of a session the stream code works on. `bufSize` is the length of
`ioBuf`; `freeRequested` records a call of `FreeSession`. -/
structure HSession where
  ioBuf : Bytes
  availTailIndex : Nat
  isDead : Bool
  freeRequested : Bool
  dataRecvBytes : Nat
deriving DecidableEq, Repr

open HSession

/-- A session as the receiver sees it, with the calls it has made so far. -/
structure Receiver where
  session : HSession
  calls : List FetchCall
deriving DecidableEq, Repr

open Receiver

/-- What `FetchCommand` did with a call. -/
structure FetchOutcome where
  handled : Bool
  dead : Bool
deriving DecidableEq, Repr

/-- The binary the code is built into. -/
inductive Build where
  | host
  | daemon
deriving DecidableEq, Repr

section

variable (fetchCommand : List FetchCall → FetchCall → FetchOutcome)

/-- `FetchCommand` runs: the call is recorded and the session may be dead now. -/
def Receiver.fetch (receiver : Receiver) (call : FetchCall) : Bool × Receiver :=
  let outcome := fetchCommand receiver.calls call
  (outcome.handled,
    { session := { receiver.session with isDead := receiver.session.isDead || outcome.dead }
      calls := receiver.calls ++ [call] })

/-- `DecryptPayload` on a frame whose inner head starts at `encBuf`. The parser
has no failing result, so the first test of the source never fires. -/
def decryptPayload (receiver : Receiver) (headSize dataSize : Nat) (encBuf : Bytes) :
    Int × Receiver :=
  let protect := parseFromString payloadProtectFields ⟨0, 0, 0, 0⟩ (encBuf.take headSize)
  let data := (encBuf.drop headSize).take dataSize
  if protect.vCode ≠ payloadProtectStaticVcode then
    (errBufCheck, receiver)
  else if enableIoChecksum && protect.checkSum != 0 && protect.checkSum != calcCheckSum data then
    (errBufCheck, receiver)
  else
    let fetched := receiver.fetch fetchCommand ⟨protect.channelId, protect.commandFlag.toUInt16, data⟩
    (if fetched.1 then retSuccess else errGeneric, fetched.2)

/-- `OnRead` at `bufPtr` with `bufLen` bytes available: negative on an error, the
size of the frame when one was handled, zero when it is not complete. -/
def onRead (receiver : Receiver) (bufPtr : Bytes) (bufLen : Nat) : Int × Receiver :=
  let headSize := ofBE ((bufPtr.drop 5).take 2)
  let dataSize := ofBE ((bufPtr.drop 7).take 4)
  let payloadHeadSize := dataSize + headSize
  if bufPtr.take 2 ≠ packetFlag then
    (errBufCheck, receiver)
  else if payloadHeadSize = 0 ∨ hdcBufMaxBytes < payloadHeadSize then
    (errBufCheck, receiver)
  else if (bufLen : Int) - sizeofPayloadHead < payloadHeadSize then
    (0, receiver)
  else
    let decrypted := decryptPayload fetchCommand receiver headSize dataSize
      (bufPtr.drop sizeofPayloadHead)
    if decrypted.1 ≠ 0 then
      (errBufCheck, decrypted.2)
    else
      ((sizeofPayloadHead + payloadHeadSize : Nat), decrypted.2)

def HSession.setAvailTailIndex (session : HSession) (index : Nat) : HSession :=
  { session with availTailIndex := index }

/-- The loop of `FetchIOBuf`, from `indexBuf` on. A turn that goes on consumes
at least a head, so as many turns as there are bytes available are enough. -/
def fetchLoop : Nat → Receiver → Nat → Int × Receiver
  | 0, receiver, indexBuf => (indexBuf, receiver)
  | turns + 1, receiver, indexBuf =>
    if receiver.session.isDead || receiver.session.availTailIndex ≤ sizeofPayloadHead then
      (indexBuf, receiver)
    else
      let child := onRead fetchCommand receiver (receiver.session.ioBuf.drop indexBuf)
        receiver.session.availTailIndex
      if 0 < child.1 then
        fetchLoop turns
          { child.2 with
            session := child.2.session.setAvailTailIndex
              (child.2.session.availTailIndex - child.1.toNat) }
          (indexBuf + child.1.toNat)
      else if child.1 = 0 then
        (indexBuf, child.2)
      else
        (errBufSize, { child.2 with session := child.2.session.setAvailTailIndex 0 })

/-- `HandleMessageCount`: on the device the session has to be set up again
after more than an hour without a heartbeat message. -/
def handleMessageCount : Build → Nat → Bool
  | .host, _ => true
  | .daemon, silence => !decide (3600 < silence)

/-- `memmove_s` of the tail to the front of the buffer, and zeros behind it. -/
def HSession.compact (session : HSession) (indexBuf : Nat) : HSession :=
  { session with
    ioBuf := (session.ioBuf.drop indexBuf).take session.availTailIndex ++
      List.replicate (session.ioBuf.length - session.availTailIndex) 0 }

/-- The heartbeat object of the session when a read comes in: whether the peer
supports heartbeats, and the seconds since its last message. Other code keeps it. -/
structure Heartbeat where
  supportHeartbeat : Bool
  silence : Nat
deriving DecidableEq, Repr

/-- `FetchIOBuf` after a successful read of `read` bytes into the buffer. -/
def fetchIOBuf (build : Build) (heartbeat : Heartbeat) (receiver : Receiver) (read : Nat) :
    Int × Receiver :=
  if heartbeat.supportHeartbeat && !handleMessageCount build heartbeat.silence then
    (errIoFail, { receiver with session := { receiver.session with freeRequested := true } })
  else
    let session := { receiver.session with
      dataRecvBytes := (receiver.session.dataRecvBytes + read) % 2 ^ 64
      availTailIndex := receiver.session.availTailIndex + read }
    let fetched := fetchLoop fetchCommand session.availTailIndex { receiver with session } 0
    let after := fetched.2.session
    if 0 < fetched.1 ∧ 0 < after.availTailIndex then
      if after.ioBuf.length < after.availTailIndex then
        -- `memmove_s` refuses, and clears the buffer.
        (errBufCopy, { fetched.2 with
          session := { after with ioBuf := List.replicate after.ioBuf.length 0 } })
      else
        (fetched.1, { fetched.2 with session := after.compact fetched.1.toNat })
    else
      fetched

/-! ### Reads -/

/-- `AllocCallback`: the buffer is allocated on the first read, and the room
behind the bytes that are left is offered. -/
def allocCallback (session : HSession) (sizeWanted : Nat) : HSession × Nat :=
  let session :=
    if session.ioBuf.length = 0 then
      -- A fresh allocation holds whatever was there; no byte of it is read
      -- before a read has filled it.
      { session with ioBuf := List.replicate hdcSocketpairSize 0 }
    else
      session
  (session, min (session.ioBuf.length - session.availTailIndex) sizeWanted)

/-- One read of the event loop: the size it suggests, the bytes that came in and
the heartbeat object at that time. -/
structure ReadEvent where
  sizeWanted : Nat
  chunk : Bytes
  heartbeat : Heartbeat
deriving DecidableEq, Repr

/-- The transport stores a chunk at an offset of the buffer. -/
def storeAt (buffer : Bytes) (offset : Nat) (chunk : Bytes) : Bytes :=
  buffer.take offset ++ chunk ++ buffer.drop (offset + chunk.length)

/-- A read: the transport fills the room that `AllocCallback` offered and
`FetchIOBuf` is told how much. -/
def readStep (build : Build) (receiver : Receiver) (event : ReadEvent) : Receiver :=
  let session := (allocCallback receiver.session event.sizeWanted).1
  let filled := { session with
    ioBuf := storeAt session.ioBuf session.availTailIndex event.chunk }
  (fetchIOBuf fetchCommand build event.heartbeat { receiver with session := filled }
    event.chunk.length).2

/-- A session before its first read. -/
def Receiver.initial : Receiver :=
  { session := { ioBuf := [], availTailIndex := 0, isDead := false, freeRequested := false
                 dataRecvBytes := 0 }
    calls := [] }

/-- The receiver after a list of reads. -/
def runReads (build : Build) (events : List ReadEvent) : Receiver :=
  events.foldl (readStep fetchCommand build) initial

/-- Every read is non-empty and no larger than what `AllocCallback` offers when
it comes in. -/
def Served (build : Build) (receiver : Receiver) : List ReadEvent → Prop
  | [] => True
  | event :: events =>
    0 < event.chunk.length ∧
      event.chunk.length ≤ (allocCallback receiver.session event.sizeWanted).2 ∧
      Served build (readStep fetchCommand build receiver event) events

end

/-! ### What a frame says -/

/-- The inner head comes back as it was sent. -/
theorem parse_protectBuf (call : FetchCall) (target : PayloadProtect) :
    parseFromString payloadProtectFields target
    (serializeToString payloadProtectFields (protectBuf call)) = protectBuf call := by
  rw [parseFromString_serializeToString (by decide) (by decide)]
  · rfl
  · intro field mem
    simp only [payloadProtectFields, mem_cons, not_mem_nil, or_false] at mem
    rcases mem with rfl | rfl | rfl | rfl
    · exact uint32_readsBack _
    · exact uint32_readsBack _
    · exact uint8_readsBack _
    · exact uint8_readsBack _

/-- A varint field takes between two and ten bytes. -/
private theorem length_varintField {M : Type} (codec : Serializer M) {value : M} {word : Nat}
    (bound : word < 2 ^ 32) (written : codec.write value = writeVarint32 word) (tag : Nat) :
    2 ≤ (codec.serialize tag value).length ∧ (codec.serialize tag value).length ≤ 10 := by
  have key := length_writeVarint32 (makeTagWireType_lt tag codec.wireType)
  have body := length_writeVarint32 bound
  rw [Serializer.serialize, length_append, written]
  omega

/-- The inner head is short, and never empty. -/
theorem length_protect (protect : PayloadProtect) :
    8 ≤ (serializeToString payloadProtectFields protect).length ∧
    (serializeToString payloadProtectFields protect).length ≤ 40 := by
  have byteBound : ∀ value : UInt8, value.toNat < 2 ^ 32 := fun value =>
    lt_trans value.toNat_lt (by decide)
  have first := length_varintField uint32Serializer protect.channelId.toNat_lt rfl 1
  have second := length_varintField uint32Serializer protect.commandFlag.toNat_lt rfl 2
  have third := length_varintField uint8Serializer (byteBound protect.checkSum) rfl 3
  have fourth := length_varintField uint8Serializer (byteBound protect.vCode) rfl 4
  simp only [serializeToString, payloadProtectFields, flatMap_cons, flatMap_nil,
    append_nil, length_append, writeField]
  omega

@[simp] theorem length_payloadHead (headSize dataSize : Nat) :
    (payloadHead headSize dataSize).length = sizeofPayloadHead := by
  rfl

/-- The fields that `OnRead` takes out of a head. -/
theorem payloadHead_fields (headSize dataSize : Nat) (rest : Bytes) :
    (payloadHead headSize dataSize ++ rest).take 2 = packetFlag ∧
    ofBE (((payloadHead headSize dataSize ++ rest).drop 5).take 2) = headSize % 2 ^ 16 ∧
    ofBE (((payloadHead headSize dataSize ++ rest).drop 7).take 4) = dataSize % 2 ^ 32 ∧
    (payloadHead headSize dataSize ++ rest).drop sizeofPayloadHead = rest := by
  have first : payloadHead headSize dataSize ++ rest =
      (packetFlag ++ [0, 0, verProtocol]) ++
        (toBE 2 headSize ++ (toBE 4 dataSize ++ rest)) := by
    simp only [payloadHead, append_assoc]
  have second : payloadHead headSize dataSize ++ rest =
      (packetFlag ++ [0, 0, verProtocol] ++ toBE 2 headSize) ++
        (toBE 4 dataSize ++ rest) := by
    simp only [payloadHead, append_assoc]
  have five : (packetFlag ++ [0, 0, verProtocol]).length = 5 := rfl
  have seven : (packetFlag ++ [0, 0, verProtocol] ++ toBE 2 headSize).length = 7 := by
    rw [length_append, five, length_toBE]
  refine ⟨?_, ?_, ?_, drop_left' (length_payloadHead ..)⟩
  · rw [first, append_assoc]
    exact take_left' rfl
  · rw [first, drop_left' five, take_left' (length_toBE ..), ofBE_toBE]
    rfl
  · rw [second, drop_left' seven, take_left' (length_toBE ..), ofBE_toBE]
    rfl

/-- A frame is its head, the inner head and the data. -/
theorem length_send (call : FetchCall) :
    (send call).length = sizeofPayloadHead +
    ((serializeToString payloadProtectFields (protectBuf call)).length + call.payload.length) := by
  simp only [send, length_append, length_payloadHead, Nat.add_assoc]

theorem send_ne_nil (call : FetchCall) : send call ≠ [] := by
  intro none
  have := length_send call
  rw [none, sizeofPayloadHead, length_nil] at this
  omega

variable {call : FetchCall}

/-- A frame no longer than the receive buffer, as `OnRead` sees it when it is at
the front of what is available: both sizes are read exactly and pass the checks. -/
theorem send_head (fits : (send call).length ≤ hdcSocketpairSize)
    {part : Bytes} (starts : part <+: send call) (long : sizeofPayloadHead < part.length)
    (junk : Bytes) :
    let s := serializeToString payloadProtectFields (protectBuf call)
    (part ++ junk).take 2 = packetFlag ∧
      ofBE (((part ++ junk).drop 5).take 2) = s.length ∧
      ofBE (((part ++ junk).drop 7).take 4) = call.payload.length ∧
      ¬ (call.payload.length + s.length = 0 ∨
        hdcBufMaxBytes < call.payload.length + s.length) := by
  intro s
  have inner := length_protect (protectBuf call)
  have size := length_send call
  change 8 ≤ s.length ∧ s.length ≤ 40 at inner
  change _ = _ + (s.length + _) at size
  have bound : hdcSocketpairSize < hdcBufMaxBytes := by decide
  have small : hdcBufMaxBytes < 2 ^ 32 := by decide
  -- The part is longer than the head, so it starts with the whole head.
  obtain ⟨body, rfl⟩ : payloadHead s.length call.payload.length <+: part := by
    have whole : payloadHead s.length call.payload.length <+: send call :=
      ⟨s ++ call.payload, by rw [send, append_assoc]⟩
    exact prefix_of_prefix_length_le whole starts
      (by rw [length_payloadHead]; exact Nat.le_of_lt long)
  obtain ⟨flag, headSize, dataSize, -⟩ :=
    payloadHead_fields s.length call.payload.length (body ++ junk)
  rw [append_assoc]
  refine ⟨flag, ?_, ?_, by omega⟩
  · rw [headSize, Nat.mod_eq_of_lt (by omega)]
  · rw [dataSize, Nat.mod_eq_of_lt (by omega)]

/-! ### One frame -/

section

variable {fetchCommand : List FetchCall → FetchCall → FetchOutcome}

/-- The receiver after `FetchCommand` took a call and left the session alive. -/
def Receiver.took (receiver : Receiver) (calls : List FetchCall) : Receiver :=
  { receiver with calls := receiver.calls ++ calls }

/-- `FetchCommand` handles every call and never kills the session. -/
structure Handles (fetchCommand : List FetchCall → FetchCall → FetchOutcome) : Prop where
  handled : ∀ calls call, (fetchCommand calls call).handled = true
  alive : ∀ calls call, (fetchCommand calls call).dead = false

section

variable (handles : Handles fetchCommand) (receiver : Receiver)
include handles receiver

theorem Handles.fetch (call : FetchCall) :
    receiver.fetch fetchCommand call = (true, receiver.took [call]) := by
  simp only [Receiver.fetch, Receiver.took, handles.handled, handles.alive, Bool.or_false]

/-- The part of a frame behind its head is decrypted to the call it was sent for. -/
theorem decryptPayload_send (call : FetchCall) (junk : Bytes) :
    let s := serializeToString payloadProtectFields (protectBuf call)
    decryptPayload fetchCommand receiver s.length call.payload.length
        (s ++ call.payload ++ junk) = (retSuccess, receiver.took [call]) := by
  intro s
  have head : (s ++ call.payload ++ junk).take s.length = s := by
    rw [append_assoc, take_left]
  have data : ((s ++ call.payload ++ junk).drop s.length).take call.payload.length =
      call.payload := by
    rw [append_assoc, drop_left, take_left]
  have command : (protectBuf call).commandFlag.toUInt16 = call.commandFlag := by
    simp [protectBuf]
  rw [decryptPayload, head, data, parse_protectBuf, command]
  simp only [handles.fetch]
  rfl

/-- A complete frame is handed to `FetchCommand` once, as it was sent. -/
theorem onRead_frame (fits : (send call).length ≤ hdcSocketpairSize) (junk : Bytes) {bufLen : Nat}
    (complete : (send call).length ≤ bufLen) :
    onRead fetchCommand receiver (send call ++ junk) bufLen =
    (((send call).length : Int), receiver.took [call]) := by
  have inner := (length_protect (protectBuf call)).1
  have size := length_send call
  have long : sizeofPayloadHead < (send call).length := by omega
  obtain ⟨flag, headSize, dataSize, sane⟩ := send_head fits prefix_rfl long junk
  have behind : (send call ++ junk).drop sizeofPayloadHead =
      serializeToString payloadProtectFields (protectBuf call) ++ call.payload ++ junk := by
    rw [send, append_assoc, append_assoc, drop_left' (length_payloadHead ..),
      append_assoc]
  rw [onRead, headSize, dataSize, behind, if_neg (not_not.mpr flag), if_neg sane,
    if_neg (by omega), decryptPayload_send handles]
  have ok : retSuccess = 0 := rfl
  simp only [ok, ne_eq, not_true_eq_false, if_false, size, Nat.add_comm call.payload.length]

end

/-- A part of a frame is left alone. -/
theorem onRead_part (fetchCommand : List FetchCall → FetchCall → FetchOutcome)
    (receiver : Receiver)
    (fits : (send call).length ≤ hdcSocketpairSize) {part : Bytes} (starts : part <+: send call)
    (long : sizeofPayloadHead < part.length) (short : part.length < (send call).length)
    (junk : Bytes) : onRead fetchCommand receiver (part ++ junk) part.length = (0, receiver) := by
  have size := length_send call
  obtain ⟨flag, headSize, dataSize, sane⟩ := send_head fits starts long junk
  rw [onRead, headSize, dataSize, if_neg (not_not.mpr flag), if_neg sane, if_pos (by omega)]

/-! ### One read -/

/-- The receiver with `index` bytes of its buffer consumed. -/
def Receiver.withAvail (receiver : Receiver) (index : Nat) : Receiver :=
  { receiver with session := receiver.session.setAvailTailIndex index }

/-- The loop hands over the frames that are complete and stops at the tail. -/
theorem fetchLoop_stream (handles : Handles fetchCommand) {complete pending : List FetchCall}
    {tail : Bytes} (fits : ∀ call ∈ complete ++ pending, (send call).length ≤ hdcSocketpairSize)
    (waits : Framing.Waits send pending tail) (junk : Bytes) {turns : Nat} {receiver : Receiver}
    {indexBuf : Nat} (alive : receiver.session.isDead = false)
    (buffer : receiver.session.ioBuf.drop indexBuf =
    stream send complete ++ tail ++ junk)
    (avail : receiver.session.availTailIndex =
    (stream send complete).length + tail.length)
    (enough : receiver.session.availTailIndex ≤ turns) :
    fetchLoop fetchCommand turns receiver indexBuf =
    (((indexBuf + (stream send complete).length : Nat) : Int),
    (receiver.took complete).withAvail tail.length) := by
  induction complete generalizing turns receiver indexBuf with
  | nil =>
    -- No frame is complete: the loop stops at once, for want of a head or of
    -- the rest of a frame.
    simp only [stream_nil, nil_append, length_nil, Nat.zero_add] at buffer avail
    have same : (receiver.took []).withAvail tail.length = receiver := by
      rw [← avail]
      simp only [took, withAvail, append_nil, setAvailTailIndex]
    rw [same, stream_nil, length_nil, Nat.add_zero]
    cases turns with
    | zero => rfl
    | succ turns =>
      rw [fetchLoop, alive]
      by_cases short : receiver.session.availTailIndex ≤ sizeofPayloadHead
      · rw [if_pos (by simpa using short)]
      · rw [if_neg (by simpa using short)]
        cases pending with
        | nil =>
          obtain rfl : tail = [] := waits
          exact absurd avail (by simp only [length_nil]; omega)
        | cons call pending =>
          have wait := onRead_part fetchCommand receiver (fits call (by simp)) waits.1
            (by omega) waits.2 junk
          rw [buffer, avail, wait]
          rfl
  | cons call complete ih =>
    simp only [stream_cons, length_append, append_assoc] at buffer avail
    have callFits := fits call (by simp)
    have long := length_send call
    have inner := (length_protect (protectBuf call)).1
    cases turns with
    | zero => omega
    | succ turns =>
      have frame := onRead_frame handles receiver callFits
        (stream send complete ++ (tail ++ junk))
        (show (send call).length ≤ receiver.session.availTailIndex by omega)
      rw [fetchLoop, alive, if_neg (by simp; omega), buffer, frame]
      rw [if_pos (by omega)]
      have rest := @ih (fun c hc => fits c (mem_cons_of_mem _ hc)) turns
        ((receiver.took [call]).withAvail (receiver.session.availTailIndex - (send call).length))
        (indexBuf + (send call).length) alive
        (by
          change receiver.session.ioBuf.drop _ = _
          rw [← drop_drop, buffer, drop_left, append_assoc])
        (by change receiver.session.availTailIndex - _ = _; omega)
        (by change receiver.session.availTailIndex - _ ≤ _; omega)
      refine Eq.trans rest ?_
      simp only [took, withAvail, setAvailTailIndex,
        stream_cons, length_append, append_assoc, singleton_append,
        Nat.add_assoc]

theorem length_storeAt {buffer chunk : Bytes} {offset : Nat}
    (room : offset + chunk.length ≤ buffer.length) :
    (storeAt buffer offset chunk).length = buffer.length := by
  simp only [storeAt, length_append, length_take, length_drop]
  omega

/-- Where the receiver of a stream of `packets` stands after `received`: alive,
with the calls of the complete frames made, and the rest of what it received at
the front of a buffer that is allocated on the first read. -/
structure Stands (packets : List FetchCall) (received : Bytes) (receiver : Receiver) : Prop where
  alive : receiver.session.isDead = false
  size : receiver.session.ioBuf.length = 0 ∧ receiver.session.availTailIndex = 0 ∨
    receiver.session.ioBuf.length = hdcSocketpairSize
  progress : Framing.Progress send packets received receiver.calls
    (receiver.session.ioBuf.take receiver.session.availTailIndex)
  avail : (receiver.session.ioBuf.take receiver.session.availTailIndex).length =
    receiver.session.availTailIndex

theorem Stands.initial (packets : List FetchCall) : Stands packets [] initial where
  alive := rfl
  size := .inl ⟨rfl, rfl⟩
  progress := Framing.Progress.start packets send_ne_nil
  avail := rfl

/-- A buffer that is allocated if it was not, with nothing else changed. -/
theorem allocCallback_spec {session : HSession} (size : session.ioBuf.length = 0 ∧
      session.availTailIndex = 0 ∨ session.ioBuf.length = hdcSocketpairSize) (sizeWanted : Nat) :
    ∃ ioBuf, (allocCallback session sizeWanted).1 = { session with ioBuf := ioBuf } ∧
      ioBuf.length = hdcSocketpairSize ∧
      ioBuf.take session.availTailIndex = session.ioBuf.take session.availTailIndex := by
  unfold allocCallback
  split_ifs with fresh
  · have empty := (size.resolve_right (by rw [fresh]; decide)).2
    exact ⟨_, rfl, length_replicate .., by rw [empty, take_zero, take_zero]⟩
  · exact ⟨_, rfl, size.resolve_left fun none => fresh none.1, rfl⟩

variable {packets : List FetchCall} {received : Bytes} {receiver : Receiver}

section

variable (stands : Stands packets received receiver)
include stands

theorem Stands.alloc (sizeWanted : Nat) : Stands packets received
        { receiver with session := (allocCallback receiver.session sizeWanted).1 } ∧
      (allocCallback receiver.session sizeWanted).1.ioBuf.length = hdcSocketpairSize := by
  obtain ⟨ioBuf, after, long, same⟩ := allocCallback_spec stands.size sizeWanted
  rw [after]
  refine ⟨⟨stands.alive, .inr long, ?_, ?_⟩, long⟩
  · exact same ▸ stands.progress
  · exact same ▸ stands.avail

/-- What `AllocCallback` offers: the room behind the tail. -/
theorem Stands.room (sizeWanted : Nat) : (allocCallback receiver.session sizeWanted).2 =
    min (hdcSocketpairSize - receiver.session.availTailIndex) sizeWanted := by
  obtain ⟨ioBuf, after, long, -⟩ := allocCallback_spec stands.size sizeWanted
  have offered : (allocCallback receiver.session sizeWanted).2 =
      let session := (allocCallback receiver.session sizeWanted).1
      min (session.ioBuf.length - session.availTailIndex) sizeWanted := rfl
  rw [offered, after]
  dsimp only
  rw [long]

/-- The tail is part of what was received. -/
theorem Stands.avail_le : receiver.session.availTailIndex ≤ received.length := by
  have bytes := congrArg List.length stands.progress.bytes
  rw [length_append, stands.avail] at bytes
  omega

end

/-- `FetchIOBuf` on a buffer that holds the frames complete now and a tail. -/
theorem fetchIOBuf_stands (handles : Handles fetchCommand) (build : Build) (heartbeat : Heartbeat)
    {received chunk tail : Bytes} {delivered complete : List FetchCall}
    (fits : ∀ call ∈ packets, (send call).length ≤ hdcSocketpairSize)
    (progress : Framing.Progress send packets (received ++ chunk) (delivered ++ complete) tail)
    (alive : receiver.session.isDead = false)
    (calls : receiver.calls = delivered) (junk : Bytes)
    (buffer : receiver.session.ioBuf = stream send complete ++ tail ++ junk)
    (size : receiver.session.ioBuf.length = hdcSocketpairSize)
    (avail : receiver.session.availTailIndex + chunk.length =
      (stream send complete).length + tail.length) :
    let after := (fetchIOBuf fetchCommand build heartbeat receiver chunk.length).2
    after.session.freeRequested = true ∨ Stands packets (received ++ chunk) after := by
  subst calls
  by_cases expired : (heartbeat.supportHeartbeat &&
      !handleMessageCount build heartbeat.silence) = true
  · left
    rw [fetchIOBuf, if_pos expired]
  · right
    obtain ⟨_, rfl, waits⟩ := progress.rest
    have loop := @fetchLoop_stream _ handles complete _ _
      (fun call mem => fits _ (by rw [append_assoc]; exact mem_append_right _ mem))
      waits _
      (receiver.session.availTailIndex + chunk.length)
      { receiver with session := { receiver.session with
          dataRecvBytes := (receiver.session.dataRecvBytes + chunk.length) % 2 ^ 64
          availTailIndex := receiver.session.availTailIndex + chunk.length } }
      0 alive buffer avail (Nat.le_refl _)
    have inBuffer : (stream send complete).length + tail.length ≤ hdcSocketpairSize := by
      rw [← size, buffer, length_append, length_append]
      omega
    rw [fetchIOBuf, if_neg expired]
    simp only [loop, Nat.zero_add, Int.toNat_natCast, took, withAvail,
      setAvailTailIndex]
    split
    case isTrue moved =>
      rw [if_neg (by omega)]
      have front : (receiver.session.ioBuf.drop (stream send complete).length).take
          tail.length = tail := by
        rw [buffer, append_assoc, drop_left, take_left]
      have kept : ((compact { receiver.session with
          dataRecvBytes := (receiver.session.dataRecvBytes + chunk.length) % 2 ^ 64
          availTailIndex := tail.length } (stream send complete).length).ioBuf).take
          tail.length = tail := by
        rw [compact, front, take_left]
      exact
        { alive
          size := by
            simp only [compact, front, length_append, length_replicate]
            omega
          progress := by
            change Framing.Progress _ _ _ _ (List.take tail.length _)
            rwa [kept]
          avail := by
            change (List.take tail.length _).length = tail.length
            rw [kept] }
    case isFalse still =>
      -- Either no frame was complete or nothing is left: the front is the tail.
      have front : receiver.session.ioBuf.take tail.length = tail := by
        rcases Nat.eq_zero_or_pos tail.length with none | some
        · rw [none, take_zero, length_eq_zero_iff.mp none]
        · have first : stream send complete = [] :=
            length_eq_zero_iff.mp (by omega)
          rw [buffer, first, nil_append, take_left]
      exact
        { alive
          size := .inr size
          progress := by
            rwa [front]
          avail := by
            rw [front] }

/-- One read moves the receiver on by the frames that are complete now, unless
the heartbeat watchdog asks for the session to be freed. -/
theorem readStep_stands (handles : Handles fetchCommand) (build : Build)
    (fits : ∀ call ∈ packets, (send call).length ≤ hdcSocketpairSize)
    (stands : Stands packets received receiver) {event : ReadEvent}
    (served : event.chunk.length ≤ (allocCallback receiver.session event.sizeWanted).2)
    (part : received ++ event.chunk <+: stream send packets) :
    (readStep fetchCommand build receiver event).session.freeRequested = true ∨
    Stands packets (received ++ event.chunk) (readStep fetchCommand build receiver event) := by
  obtain ⟨ready, size⟩ := stands.alloc event.sizeWanted
  set session := (allocCallback receiver.session event.sizeWanted).1 with sessionEq
  have offered : (allocCallback receiver.session event.sizeWanted).2 =
      min (session.ioBuf.length - session.availTailIndex) event.sizeWanted := rfl
  obtain ⟨_, _, split, progress⟩ := ready.progress.step part
  have held : (session.ioBuf.take session.availTailIndex).length = session.availTailIndex :=
    ready.avail
  have inside : session.availTailIndex ≤ session.ioBuf.length := by
    rw [length_take] at held
    omega
  have room : session.availTailIndex + event.chunk.length ≤ session.ioBuf.length := by omega
  refine fetchIOBuf_stands handles _ event.heartbeat fits progress ready.alive rfl
    (session.ioBuf.drop (session.availTailIndex + event.chunk.length)) ?_ ?_ ?_
  · change storeAt session.ioBuf session.availTailIndex event.chunk = _
    rw [storeAt, ← split]
  · change (storeAt session.ioBuf session.availTailIndex event.chunk).length = _
    rw [length_storeAt room, size]
  · have lengths := congrArg List.length split
    rw [length_append, length_append, held] at lengths
    exact lengths

end

/-! ### A whole run -/

section

variable {fetchCommand : List FetchCall → FetchCall → FetchOutcome}

/-- The heartbeat watchdog refuses the read and frees the session. -/
def ReadEvent.refused (build : Build) (event : ReadEvent) : Bool :=
  event.heartbeat.supportHeartbeat && !handleMessageCount build event.heartbeat.silence

/-- `OnRead` does not ask for the session to be freed. -/
theorem onRead_freeRequested (receiver : Receiver) (bufPtr : Bytes) (bufLen : Nat) :
    (onRead fetchCommand receiver bufPtr bufLen).2.session.freeRequested =
    receiver.session.freeRequested := by
  unfold onRead decryptPayload fetch
  dsimp only
  split_ifs <;> rfl

theorem fetchLoop_freeRequested (turns : Nat) (receiver : Receiver) (indexBuf : Nat) :
    (fetchLoop fetchCommand turns receiver indexBuf).2.session.freeRequested =
    receiver.session.freeRequested := by
  induction turns generalizing receiver indexBuf with
  | zero => rfl
  | succ turns ih =>
    rw [fetchLoop]
    dsimp only
    split_ifs
    · rfl
    · exact (ih ..).trans (onRead_freeRequested ..)
    · exact onRead_freeRequested ..
    · exact onRead_freeRequested ..

/-- A read asks for the session to be freed exactly when it is refused. -/
theorem readStep_freeRequested (fetchCommand : List FetchCall → FetchCall → FetchOutcome)
    (build : Build) (receiver : Receiver) (event : ReadEvent) :
    (readStep fetchCommand build receiver event).session.freeRequested =
    (receiver.session.freeRequested || event.refused build) := by
  have kept : (allocCallback receiver.session event.sizeWanted).1.freeRequested =
      receiver.session.freeRequested := by
    unfold allocCallback
    split_ifs <;> rfl
  unfold readStep fetchIOBuf ReadEvent.refused
  dsimp only
  split_ifs with refused moved past
  · simp [refused]
  · simp [refused, fetchLoop_freeRequested, kept]
  · simp [refused, fetchLoop_freeRequested, kept, compact]
  · simp [refused, fetchLoop_freeRequested, kept]

theorem foldl_readStep_freeRequested (build : Build) (receiver : Receiver)
    (events : List ReadEvent) :
    (events.foldl (readStep fetchCommand build) receiver).session.freeRequested =
    (receiver.session.freeRequested || events.any (·.refused build)) := by
  induction events generalizing receiver with
  | nil => simp
  | cons event events ih =>
    rw [foldl_cons, ih, readStep_freeRequested, any_cons, Bool.or_assoc]

variable {events : List ReadEvent} {receiver : Receiver}

/-- A run of reads that are all served and none of which is refused. -/
theorem foldl_readStep_stands (handles : Handles fetchCommand) (build : Build)
    {packets : List FetchCall} (fits : ∀ call ∈ packets, (send call).length ≤ hdcSocketpairSize)
    {received : Bytes} (stands : Stands packets received receiver)
    (unfreed : receiver.session.freeRequested = false)
    (served : Served fetchCommand build receiver events)
    (passed : events.any (·.refused build) = false)
    (part : received ++ events.flatMap (·.chunk) <+: stream send packets) :
    Stands packets (received ++ events.flatMap (·.chunk))
    (events.foldl (readStep fetchCommand build) receiver) := by
  induction events generalizing received receiver with
  | nil => simpa using stands
  | cons event events ih =>
    rw [flatMap_cons, ← append_assoc] at part ⊢
    rw [any_cons, Bool.or_eq_false_iff] at passed
    obtain ⟨-, room, servedRest⟩ := served
    have free := readStep_freeRequested fetchCommand build receiver event
    rw [unfreed, passed.1] at free
    have next := (readStep_stands handles build fits stands room
      ((prefix_append ..).trans part)).resolve_left (by simp [free])
    exact ih next free servedRest passed.2 part

/-- Reads whose bytes all fit the buffer together are served, however they are
cut, when none of them exceeds what the event loop asked for. -/
theorem served_of_fits (handles : Handles fetchCommand) (build : Build) {packets : List FetchCall}
    (fits : ∀ call ∈ packets, (send call).length ≤ hdcSocketpairSize) {received : Bytes}
    (stands : Stands packets received receiver) (unfreed : receiver.session.freeRequested = false)
    (passed : events.any (·.refused build) = false)
    (wanted : ∀ event ∈ events, 0 < event.chunk.length ∧ event.chunk.length ≤ event.sizeWanted)
    (small : (received ++ events.flatMap (·.chunk)).length ≤ hdcSocketpairSize)
    (part : received ++ events.flatMap (·.chunk) <+: stream send packets) :
    Served fetchCommand build receiver events := by
  induction events generalizing received receiver with
  | nil => trivial
  | cons event events ih =>
    rw [flatMap_cons, ← append_assoc] at part small
    rw [any_cons, Bool.or_eq_false_iff] at passed
    have room : event.chunk.length ≤ (allocCallback receiver.session event.sizeWanted).2 := by
      have asked := (wanted _ mem_cons_self).2
      have held := stands.avail_le
      rw [stands.room]
      simp only [length_append] at small
      omega
    have free := readStep_freeRequested fetchCommand build receiver event
    rw [unfreed, passed.1] at free
    have next := (readStep_stands handles build fits stands room
      ((prefix_append ..).trans part)).resolve_left (by simp [free])
    exact ⟨(wanted _ mem_cons_self).1, room,
      ih next free passed.2 (fun e he => wanted e (mem_cons_of_mem _ he)) small part⟩

theorem Served.take {build : Build} (served : Served fetchCommand build receiver events) (k : Nat) :
    Served fetchCommand build receiver (events.take k) := by
  induction events generalizing receiver k with
  | nil => simpa using served
  | cons event events ih =>
    cases k with
    | zero => trivial
    | succ k => exact ⟨served.1, served.2.1, ih served.2.2 k⟩

/-- Reassembly is exact. For every list of packets that fit the receive buffer
and every cut of their stream into reads that `AllocCallback` serves, as long as
the session has not been freed the calls made are the packets that are complete,
in order, and the front of the buffer is the tail that is not consumed; after
the last read every packet has been handed over and nothing is left. Only the
heartbeat watchdog of `FetchIOBuf` frees the session. -/
theorem fetch_calls_exact (handles : Handles fetchCommand) (build : Build)
    {packets : List FetchCall} (fits : ∀ call ∈ packets, (send call).length ≤ hdcSocketpairSize)
    {reads : List ReadEvent} (cut : reads.flatMap (·.chunk) = stream send packets)
    (served : Served fetchCommand build initial reads) :
    (∀ k, (runReads fetchCommand build (reads.take k)).session.freeRequested = false →
      Framing.Progress send packets ((reads.take k).flatMap (·.chunk))
        (runReads fetchCommand build (reads.take k)).calls
        ((runReads fetchCommand build (reads.take k)).session.ioBuf.take
          (runReads fetchCommand build (reads.take k)).session.availTailIndex)) ∧
    ((runReads fetchCommand build reads).session.freeRequested = false →
      (runReads fetchCommand build reads).calls = packets ∧
        (runReads fetchCommand build reads).session.availTailIndex = 0) ∧
    ((runReads fetchCommand build reads).session.freeRequested = true →
      ∃ event ∈ reads, event.refused build = true) := by
  have freed : ∀ events, (runReads fetchCommand build events).session.freeRequested =
      events.any (·.refused build) := by
    intro events
    rw [runReads, foldl_readStep_freeRequested]
    rfl
  have upTo : ∀ k, (runReads fetchCommand build (reads.take k)).session.freeRequested = false →
      Stands packets ((reads.take k).flatMap (·.chunk))
        (runReads fetchCommand build (reads.take k)) := by
    intro k passed
    rw [freed] at passed
    refine foldl_readStep_stands handles _ fits (Stands.initial _) rfl (served.take k)
      passed ?_
    rw [← cut]
    conv_rhs => rw [← take_append_drop k reads, flatMap_append]
    exact prefix_append ..
  refine ⟨fun k passed => (upTo k passed).progress, fun passed => ?_, fun refused => ?_⟩
  · have stands := upTo reads.length (by rwa [take_length])
    rw [take_length, cut] at stands
    obtain ⟨all, nothing⟩ := stands.progress.delivered_all
    refine ⟨all, ?_⟩
    rw [← stands.avail, nothing, length_nil]
  · rw [freed, any_eq_true] at refused
    exact refused

/-- A frame of three data bytes that arrives in two reads, cut inside its head,
on a device whose peer sent a heartbeat ten seconds ago. -/
theorem fetch_calls_exact_two_reads :
    let call : FetchCall := ⟨7, HdcCommand.fileData.code, [1, 2, 3]⟩
    let reads : List ReadEvent :=
      [⟨65536, (send call).take 5, ⟨true, 10⟩⟩, ⟨65536, (send call).drop 5, ⟨true, 10⟩⟩]
    (runReads (fun _ _ => ⟨true, false⟩) .daemon reads).calls = [call] := by
  intro call reads
  have handles : Handles fun _ _ => ⟨true, false⟩ := ⟨fun _ _ => rfl, fun _ _ => rfl⟩
  have fits : ∀ c ∈ [call], (send c).length ≤ hdcSocketpairSize := by decide
  have cut : reads.flatMap (·.chunk) = stream send [call] := by decide
  have passed : reads.any (·.refused .daemon) = false := by decide
  have served := served_of_fits handles .daemon fits (Stands.initial [call]) rfl passed
    (by decide) (by decide) (by decide)
  have exact := fetch_calls_exact handles .daemon fits cut served
  refine (exact.2.1 ?_).1
  by_contra freed
  obtain ⟨_, mem, refused⟩ := exact.2.2 (by simpa using freed)
  exact absurd (any_eq_true.mpr ⟨_, mem, refused⟩) (by rw [passed]; decide)

end

end Hdc.Session
