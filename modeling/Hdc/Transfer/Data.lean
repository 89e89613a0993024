import Hdc.Transfer.Config
import Hdc.Lib.OffsetWrites

/-!
The data of a file (`transfer.cpp`, and the end of a file in `file.cpp`).

Once both ends have opened their file, the slave asks for the data. The master reads a piece, sends
it with its place in the file, and reads the next one; the slave submits a write for every piece
that comes, and what it submitted is carried out by other threads in any order. A counter tells the
slave when the file is complete.

What is submitted is carried out, and called back, in steps of its own. Compression (`Lz4`), memory,
the channel and the file system (`Answer`, `Outcome`) are outside. `log` and `finishes` are not in
the source: what was written so far, and the file at each `WhenTransferFinish`.
-/

namespace Hdc.Transfer.Data

open SerialStruct OffsetWrites

/-! ### Sizes -/

def payloadPrefixReserve : Nat := 64
def maxUsbffsBulk : Nat := 512 * 1024
def maxUsbffsBulkStable : Nat := 61 * 1024

/-- LZ4. A compression that does not fit fails; what was compressed can be restored. -/
structure Lz4 where
  compressDefault : Bytes → Nat → Option Bytes
  decompressSafe : Bytes → Nat → Option Bytes
  fits : ∀ {data capacity out}, compressDefault data capacity = some out →
    out ≠ [] ∧ out.length ≤ capacity
  restores : ∀ {data capacity out}, compressDefault data capacity = some out →
    decompressSafe out data.length = some data

/-! ### Tasks -/

/-- `CtxFile`, as far as the data of a file depends on it. -/
structure CtxFile where
  master : Bool
  fileSize : Nat
  compressType : UInt8
  sandboxMode : Bool
  indexIo : Nat := 0
  closeNotify : Bool := false
  ioFinish : Bool := false
  closeReqSubmitted : Bool := false
  isStableBufSize : Bool := false
  isOtherSideSandboxSupported : Bool := false
  isFdOpen : Bool := true
  lastErrno : Nat := 0
deriving DecidableEq, Repr

/-- `CtxFileIO`: a read or a write that was submitted. -/
structure CtxFileIo where
  index : Nat
  bytes : Nat
  bufIo : Bytes
deriving DecidableEq, Repr

/-- The file and what was written to it when `WhenTransferFinish` was called. -/
structure Finish where
  file : Bytes
  log : List (Write UInt8)
deriving DecidableEq, Repr

/-- One end. `executed` are requests that were carried out, with their results, and that
`OnFileIO` has not been called for. -/
structure Task where
  ctx : CtxFile
  isStableBuf : Bool
  file : Bytes
  submitted : List CtxFileIo := []
  executed : List (CtxFileIo × Int) := []
  isFinished : Bool := false
  log : List (Write UInt8) := []
  finishes : List Finish := []
deriving DecidableEq, Repr

/-- What one end sends to the other: `commandBegin`, `commandData`, `CMD_FILE_FINISH`. -/
inductive Command where
  | begin (features : Bytes)
  | data (payload : Bytes)
  | finish (flag : UInt8)
deriving DecidableEq, Repr

/-- What `SimpleFileIO` comes across. -/
inductive IoAnswer where
  | submitted
  | noBuffer
  | noContext
  | refused
deriving DecidableEq, Repr

/-- What `uv_fs_statfs` says. -/
inductive Space where
  | unknown (errno : Nat)
  | free (bytes : Nat)
deriving DecidableEq, Repr

/-- What the outside says during one call. -/
structure Answer where
  io : IoAnswer
  lz4Buffer : Bool
  sent : Bool
  reported : Bool
  space : Space
deriving DecidableEq, Repr

namespace CtxFile

/-- The size of a read. The factor of 0.8 is a `double` in the source, and the product is
cut to an `int`. -/
def readSize (ctx : CtxFile) : Nat :=
  (if ctx.isStableBufSize then maxSizeIobufStable else maxSizeIobuf) * 8 / 10

def bufMaxSize (ctx : CtxFile) : Nat :=
  (if ctx.isStableBufSize then maxUsbffsBulkStable else maxUsbffsBulk) - payloadPrefixReserve

def closeCtxFd (ctx : CtxFile) : CtxFile := { ctx with isFdOpen := false }

end CtxFile

namespace Task

/-- `SimpleFileIO`: a master reads, a slave writes what it is given. -/
def simpleFileIo (task : Task) (index : Nat) (sendBuf : Bytes) (bytes : Nat) (answer : IoAnswer) :
    Int × Task :=
  if answer = .noBuffer then (-1, task)
  else if answer = .noContext then (-1, task)
  else if task.ctx.bufMaxSize < bytes then (-1, task)
  else if task.ctx.ioFinish then (-1, task)
  -- `memcpy_s` refuses a null pointer
  else if task.ctx.master = false ∧ 0 < bytes ∧ sendBuf = [] then (-1, task)
  else if answer = .refused then (-1, task)
  else
    (bytes, { task with
      submitted := task.submitted ++ [⟨index, bytes, if task.ctx.master then [] else sendBuf⟩] })

/-- `WhenTransferFinish` of `HdcFile`. -/
def whenTransferFinish (task : Task) (answer : Answer) : Task × List Command :=
  ({ task with finishes := task.finishes ++ [⟨task.file, task.log⟩] },
    if answer.sent then [.finish 1] else [])

/-- `OnFileClose`. -/
def onFileClose (task : Task) (answer : Answer) : Task × List Command :=
  let task := { task with ctx := { task.ctx with closeReqSubmitted := false } }
  if task.ctx.closeNotify then task.whenTransferFinish answer else (task, [])

/-- `ProcressFileIOFinish`. -/
def procressFileIoFinish (task : Task) (answer : Answer) : Task × List Command :=
  let task := { task with ctx := task.ctx.closeCtxFd }
  if task.ctx.lastErrno = 0 ∧ task.ctx.closeReqSubmitted = false then
    { task with ctx := { task.ctx with closeReqSubmitted := true } }.onFileClose answer
  else
    task.whenTransferFinish answer

end Task

/-! ### Pieces on the wire -/

/-- The head of a piece in its 64 bytes. The buffer was zero, and a terminator is copied
behind the head. -/
def payloadPrefix (head : TransferPayload) : Bytes :=
  let text := serializeToString transferPayloadFields head
  text ++ List.replicate (payloadPrefixReserve - text.length) 0

/-- The body of a piece as it is sent, with its kind of compression; `none` where there is
no buffer for it. -/
def compressBody (lz4 : Lz4) (compressType : UInt8) (data : Bytes) (lz4Buffer : Bool) :
    Option (UInt8 × Bytes) :=
  if data.length = 0 then some (compressType, [])
  else if compressType = compressLz4 then
    if lz4Buffer then
      match lz4.compressDefault data data.length with
      | some out => some (compressLz4, out)
      | none => some (compressNone, data)
    else none
  else some (compressType, data)

/-- `SendIOPayload`: whether it was sent, and what. -/
def sendIoPayload (lz4 : Lz4) (ctx : CtxFile) (index : Nat) (data : Bytes) (answer : Answer) :
    Bool × List Command :=
  match compressBody lz4 ctx.compressType data answer.lz4Buffer with
  | none => (false, [])
  | some (compressType, body) =>
    let payloadHead : TransferPayload :=
      { index := UInt64.ofNat index
        compressType := compressType
        compressSize := UInt32.ofNat body.length
        uncompressSize := UInt32.ofNat data.length }
    if payloadPrefixReserve < (serializeToString transferPayloadFields payloadHead).length + 1 then
      (false, [])
    else if answer.sent then
      (true, [.data (payloadPrefix payloadHead ++ body)])
    else
      (false, [])

/-- The body of a piece as it is written; `none` where it cannot be restored. -/
def clearBody (lz4 : Lz4) (pld : TransferPayload) (body : Bytes) : Option Bytes :=
  if pld.compressSize = 0 then some []
  else if pld.compressType = compressLz4 then lz4.decompressSafe body pld.uncompressSize.toNat
  else some body

/-- `RecvIOPayload`. What the parser returns is not looked at. -/
def recvIoPayload (lz4 : Lz4) (task : Task) (data : Bytes) (answer : Answer) : Bool × Task :=
  if data.length < payloadPrefixReserve then (false, task)
  else
    let pld := parseFromString transferPayloadFields ⟨0, 0, 0, 0⟩ (data.take payloadPrefixReserve)
    if data.length - payloadPrefixReserve < pld.compressSize.toNat ∨
        maxSizeIobuf < pld.uncompressSize.toNat then (false, task)
    else
      match clearBody lz4 pld ((data.drop payloadPrefixReserve).take pld.compressSize.toNat) with
      | none => (false, task)
      | some clearBuf =>
        if clearBuf.length ≠ pld.uncompressSize.toNat then (false, task)
        else if pld.compressType = compressNone ∧
            data.length - payloadPrefixReserve < clearBuf.length then (false, task)
        else
          let io := task.simpleFileIo pld.index.toNat clearBuf clearBuf.length answer.io
          if io.1 < 0 then (false, io.2) else (true, io.2)

namespace Task

/-! ### After a read or a write -/

/-- `ProcressFileIOIsSuccess`. -/
def procressFileIoIsSuccess (task : Task) (io : CtxFileIo) (result : Int) (space : Space) :
    Bool × Task :=
  if result < 0 then
    (false, { task with ctx := { task.ctx with lastErrno := result.natAbs } })
  else if task.ctx.master then (true, task)
  else if (io.bytes : Int) = result then (true, task)
  else
    match space with
    | .unknown errno => (false, { task with ctx := { task.ctx with lastErrno := errno } })
    | .free bytes =>
      -- ENOSPC or EIO
      (false, { task with ctx := { task.ctx with lastErrno := if bytes = 0 then 28 else 5 } })

/-- `ProcressFileIORead`: whether the reading is over. -/
def procressFileIoRead (lz4 : Lz4) (task : Task) (io : CtxFileIo) (result : Nat) (answer : Answer) :
    Bool × Task × List Command :=
  let sent := sendIoPayload lz4 task.ctx (task.ctx.indexIo - result) io.bufIo answer
  if sent.1 = false then (true, task, [])
  else if result = 0 then (true, task, sent.2)
  else if task.ctx.indexIo < task.ctx.fileSize then
    (false, (task.simpleFileIo task.ctx.indexIo [] task.ctx.readSize answer.io).2, sent.2)
  else (true, task, sent.2)

/-- `ProcressFileIOWrite`: whether the file is complete. -/
def procressFileIoWrite (task : Task) (result : Nat) : Bool × Task :=
  if task.ctx.fileSize ≤ task.ctx.indexIo ∨ result = 0 then
    (true, { task with ctx := { task.ctx with closeNotify := true } })
  else
    (false, task)

/-- `ProcressFileIO`. A slave that fails ends its task (`CMD_FILE_FINISH` with 0). -/
def procressFileIo (lz4 : Lz4) (task : Task) (io : CtxFileIo) (result : Int) (answer : Answer) :
    Bool × Task × List Command :=
  if task.ctx.ioFinish then (true, task, [])
  else
    let success := task.procressFileIoIsSuccess io result answer.space
    if success.1 = false then
      let task := success.2
      (true, { task with
        ctx := { task.ctx with closeNotify := true }
        isFinished := task.isFinished || !task.ctx.master }, [])
    else
      let task := { task with ctx := { task.ctx with indexIo := task.ctx.indexIo + result.toNat } }
      if task.ctx.master then
        task.procressFileIoRead lz4 io result.toNat answer
      else
        let written := task.procressFileIoWrite result.toNat
        (written.1, written.2, [])

/-- `OnFileIO`. Where the channel is full the call comes later (`IODelayed`). -/
def onFileIo (lz4 : Lz4) (task : Task) (io : CtxFileIo) (result : Int) (answer : Answer) :
    Task × List Command :=
  let processed := task.procressFileIo lz4 io result answer
  let task := { processed.2.1 with ctx := { processed.2.1.ctx with ioFinish := processed.1 } }
  if processed.1 then
    let finished := task.procressFileIoFinish answer
    (finished.1, processed.2.2 ++ finished.2)
  else
    (task, processed.2.2)

/-! ### Commands -/

/-- `CheckFeatures`. -/
def checkFeatures (task : Task) (payload : Bytes) : Option Task :=
  if payload.length = 8 then
    let flags := payload.headD 0
    some { task with
      ctx := { task.ctx with
        isStableBufSize := task.isStableBuf || flags &&& 1 == 0
        isOtherSideSandboxSupported := flags >>> 2 != 0 } }
  else if payload.length = 0 then
    some { task with
      ctx := { task.ctx with isStableBufSize := true, isOtherSideSandboxSupported := false } }
  else none

/-- `CommandDispatch` of `HdcFile`, for the commands of this phase and a single file. -/
def commandDispatch (lz4 : Lz4) (task : Task) (command : Command) (answer : Answer) :
    Bool × Task × List Command :=
  match command with
  | .begin features =>
    match task.checkFeatures features with
    | none => (false, task, [])
    | some task =>
      if task.ctx.isOtherSideSandboxSupported = false ∧ task.ctx.sandboxMode then
        (false, { task with isFinished := true }, [])
      else
        let io := task.simpleFileIo task.ctx.indexIo [] task.ctx.readSize answer.io
        if io.1 < 0 then (false, io.2, []) else (answer.reported, io.2, [])
  | .data payload =>
    if hdcBufMaxBytes < payload.length then (false, task, [])
    else
      let received := recvIoPayload lz4 task payload answer
      if received.1 then (true, received.2, [])
      else (false, { received.2 with ctx := received.2.ctx.closeCtxFd }, [])
  | .finish flag =>
    if flag ≠ 0 then
      (true, { task with ctx := { task.ctx.closeCtxFd with ioFinish := true } },
        if answer.sent then [.finish (flag - 1)] else [])
    else
      (true, { task with isFinished := true }, [])

end Task

/-! ### The two ends -/

/-- What becomes of a request that is carried out. -/
inductive Outcome where
  | whole
  | part (bytes : Nat)
  | failed (errno : Nat)
deriving DecidableEq, Repr

/-- How much is moved, or the error. -/
def Outcome.size : Outcome → Nat → Nat → Except Nat Nat
  | .whole, _, available => .ok available
  | .part bytes, least, available => .ok (min (max least bytes) available)
  | .failed errno, _, _ => .error errno

/-- A thread carries out a request. A read gets nothing only at the end of the file. -/
def Task.execute (task : Task) (i : Nat) (outcome : Outcome) : Task :=
  match task.submitted[i]? with
  | none => task
  | some io =>
    let task := { task with submitted := task.submitted.eraseIdx i }
    if task.ctx.master then
      match outcome.size 1 (min io.bytes (task.file.length - io.index)) with
      | .error errno => { task with executed := task.executed ++ [(io, Int.negSucc errno)] }
      | .ok size =>
        let io := { io with bufIo := (task.file.drop io.index).take size }
        { task with executed := task.executed ++ [(io, (size : Int))] }
    else
      match outcome.size 0 io.bytes with
      | .error errno => { task with executed := task.executed ++ [(io, Int.negSucc errno)] }
      | .ok size =>
        let write : Write UInt8 := ⟨io.index, io.bufIo.take size⟩
        { task with
          file := write.apply 0 task.file
          log := task.log ++ [write]
          executed := task.executed ++ [(io, (size : Int))] }

/-- `OnFileIO` is called for a request that was carried out. -/
def Task.callback (lz4 : Lz4) (task : Task) (i : Nat) (answer : Answer) : Task × List Command :=
  match task.executed[i]? with
  | none => (task, [])
  | some (io, result) =>
    { task with executed := task.executed.eraseIdx i }.onFileIo lz4 io result answer

structure System where
  master : Task
  slave : Task
  toMaster : List Command
  toSlave : List Command
deriving DecidableEq, Repr

inductive Event where
  | masterReceives (answer : Answer)
  | slaveReceives (answer : Answer)
  | masterExecutes (i : Nat) (outcome : Outcome)
  | slaveExecutes (i : Nat) (outcome : Outcome)
  | masterCalled (i : Nat) (answer : Answer)
  | slaveCalled (i : Nat) (answer : Answer)
deriving DecidableEq, Repr

def System.step (lz4 : Lz4) (system : System) : Event → System
  | .masterReceives answer =>
    match system.toMaster with
    | [] => system
    | command :: rest =>
      let out := system.master.commandDispatch lz4 command answer
      { system with master := out.2.1, toMaster := rest, toSlave := system.toSlave ++ out.2.2 }
  | .slaveReceives answer =>
    match system.toSlave with
    | [] => system
    | command :: rest =>
      let out := system.slave.commandDispatch lz4 command answer
      { system with slave := out.2.1, toSlave := rest, toMaster := system.toMaster ++ out.2.2 }
  | .masterExecutes i outcome => { system with master := system.master.execute i outcome }
  | .slaveExecutes i outcome => { system with slave := system.slave.execute i outcome }
  | .masterCalled i answer =>
    let out := system.master.callback lz4 i answer
    { system with master := out.1, toSlave := system.toSlave ++ out.2 }
  | .slaveCalled i answer =>
    let out := system.slave.callback lz4 i answer
    { system with slave := out.1, toMaster := system.toMaster ++ out.2 }

def System.run (lz4 : Lz4) (system : System) (events : List Event) : System :=
  events.foldl (System.step lz4) system

/-- How a file is transferred: its content, how it is compressed, whether a sandbox is
meant, and the buffers of the two ends. The size of a file is an `off_t`. -/
structure Job where
  content : Bytes
  small : content.length < 2 ^ 63
  compressType : UInt8
  sandboxMode : Bool
  masterStable : Bool
  slaveStable : Bool

/-- Both files are open (`OnFileOpen`): the size of the master's file was announced, the
slave's file is empty, and the slave has asked for the data. -/
def Job.start (job : Job) : System :=
  let slave : Task :=
    { ctx := { master := false, fileSize := job.content.length, compressType := job.compressType,
               sandboxMode := false }
      isStableBuf := job.slaveStable
      file := [] }
  { master :=
      { ctx := { master := true, fileSize := job.content.length, compressType := job.compressType,
                 sandboxMode := job.sandboxMode }
        isStableBuf := job.masterStable
        file := job.content }
    slave := slave
    toMaster := [.begin (addFeatures slave.isStableBuf)]
    toSlave := [] }

end Hdc.Transfer.Data
