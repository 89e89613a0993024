import Hdc.Define
import Hdc.Lib.ExactRuns
import Hdc.Lib.FixedRecord
import Hdc.Lib.Framing
import Hdc.Lib.Words

/-!
The control pipe between the main thread and the thread of a session (`session.cpp`,
`BuildCtrlString`, `DispatchMainThreadCommand` and `ReadCtrlFromMain`).

The main thread writes records of one size; the session's thread is told that there is something to
read and reads once, into a cleared buffer that is not a multiple of the record. The pipe is a byte
stream, so a read may end anywhere, and at the end of the file it returns nothing. A read that is no
multiple of the record is thrown away, a read of nothing is taken for a record of zeros, which is
the command to start a session, and the records behind one that is refused are lost. A call is
recorded with the place in the pipe of its record.

* `deliver_exact`: every command is delivered exactly once and in order if and only if all reads are
  `Fine`.
-/

namespace Hdc.Session.Control

open FixedRecord List Framing Nat

/-! ### Records -/

/-- `InnerCtrlCommand`. -/
inductive InnerCtrlCommand where
  | startSession
  | stopSession
  | attachChannel
  | deatchChannel
  | jdwpNewfd
  | arkNewfd
deriving DecidableEq, Repr

namespace InnerCtrlCommand

def code : InnerCtrlCommand → UInt32
  | startSession => 0
  | stopSession => 1
  | attachChannel => 2
  | deatchChannel => 3
  | jdwpNewfd => 4
  | arkNewfd => 5

def ofCode (code : UInt32) : Option InnerCtrlCommand :=
  match code.toNat with
  | 0 => some startSession
  | 1 => some stopSession
  | 2 => some attachChannel
  | 3 => some deatchChannel
  | 4 => some jdwpNewfd
  | 5 => some arkNewfd
  | _ => none

@[simp] theorem ofCode_code (command : InnerCtrlCommand) : ofCode command.code = some command := by
  cases command <;> rfl

theorem code_of_ofCode {number : UInt32} {command : InnerCtrlCommand}
    (named : ofCode number = some command) : number = command.code := by
  unfold ofCode at named
  split at named <;> cases named <;> exact UInt32.toNat_inj.mp ‹_›

end InnerCtrlCommand

def bufSizeMicro : Nat := 16

structure CtrlStruct where
  command : UInt32
  channelId : UInt32
  dataSize : UInt8
  data : Record UInt8 bufSizeMicro
deriving DecidableEq, Repr

/-- `sizeof(CtrlStruct)`: 25 bytes of fields and three that align the next one. -/
def sizeofCtrlStruct : Nat := 28

namespace CtrlStruct

/-- The memory of a record. -/
def bytes (ctrl : CtrlStruct) : Bytes :=
  Endian.toLE 4 ctrl.command.toNat ++ Endian.toLE 4 ctrl.channelId.toNat ++ [ctrl.dataSize] ++
    ctrl.data.cells ++ List.replicate 3 0

/-- The record that a buffer begins with. -/
def ofBuffer (buf : Bytes) : CtrlStruct where
  command := UInt32.ofNat (Endian.ofLE (buf.take 4))
  channelId := UInt32.ofNat (Endian.ofLE ((buf.drop 4).take 4))
  dataSize := (buf.drop 8).headD 0
  data := (Record.fill bufSizeMicro 0).put 0 ((buf.drop 9).take bufSizeMicro) (by simp)

theorem length_bytes (ctrl : CtrlStruct) : ctrl.bytes.length = sizeofCtrlStruct := by
  simp [bytes, ctrl.data.length_cells, bufSizeMicro, sizeofCtrlStruct]

/-- A record is read back as it was written. -/
theorem ofBuffer_bytes (ctrl : CtrlStruct) (rest : Bytes) : ofBuffer (ctrl.bytes ++ rest) = ctrl := by
  obtain ⟨command, channelId, _, data⟩ := ctrl
  have command_small : command.toNat < 256 ^ 4 := command.toNat_lt
  have channelId_small : channelId.toNat < 256 ^ 4 := channelId.toNat_lt
  have cells : (data.cells ++ (List.replicate 3 0 ++ rest)).take bufSizeMicro = data.cells :=
    take_left' data.length_cells
  simp only [ofBuffer, bytes, append_assoc, take_left', Endian.length_toLE,
    drop_left', Endian.ofLE_toLE, drop_append, mk.injEq]
  refine ⟨?_, ?_, ?_, ?_⟩
  · rw [mod_eq_of_lt command_small, UInt32.ofNat_toNat]
  · rw [mod_eq_of_lt channelId_small, UInt32.ofNat_toNat]
  · simp
  · apply Record.put_whole
    simpa [drop_of_length_le] using cells

end CtrlStruct

/-- What `BuildCtrlString` is called with; `data` is null or points to some bytes. -/
structure Request where
  command : InnerCtrlCommand
  channelId : UInt32
  data : Option Bytes
  dataSize : Int

namespace Request

/-- The bytes that are copied into the record. -/
def payload (request : Request) : Bytes :=
  if 0 < request.dataSize then (request.data.getD []).take request.dataSize.toNat else []

theorem length_payload (request : Request) (fits : request.dataSize ≤ bufSizeMicro) :
    0 + request.payload.length ≤ bufSizeMicro := by
  rw [payload]
  split
  · rw [length_take]
    omega
  · simp

/-- The record of a request, unless its data is too long. -/
def ctrl (request : Request) : Option CtrlStruct :=
  if fits : request.dataSize ≤ bufSizeMicro then
    some {
      command := request.command.code
      channelId := request.channelId
      dataSize := UInt8.ofNat (request.dataSize % 256).toNat
      data := (Record.fill bufSizeMicro 0).put 0 request.payload (request.length_payload fits) }
  else none

/-- `BuildCtrlString`. -/
def buildCtrlString (request : Request) : Bytes :=
  match request.ctrl with
  | none => []
  | some ctrl => ctrl.bytes

end Request

/-! ### The thread of the session -/

inductive Handle where
  | childWorkTcp
  | pollWork
  | dataPipeWork
deriving DecidableEq, Repr

/-- What a command makes the session do. -/
inductive Effect where
  | workThreadStartSession
  | reportConnectionEvent
  | stopHeartbeatWork
  | tryCloseHandle (handle : Handle)
  | attachChannel (channelId : UInt32)
  | detachChannel (channelId : UInt32)
deriving DecidableEq, Repr

/-- The fields of the session that a command looks at, and what was done so far. -/
structure Worker where
  serverOrDaemon : Bool
  connTcp : Bool
  childWorkTcpLoop : Bool
  uvChildRef : UInt8
  effects : List Effect
deriving DecidableEq, Repr

namespace Worker

def perform (worker : Worker) (effects : List Effect) : Worker :=
  { worker with effects := worker.effects ++ effects }

/-- The case of `SP_STOP_SESSION`. -/
def stopSession (worker : Worker) : Worker :=
  let worker := { worker with uvChildRef := worker.uvChildRef + 2 }.perform [.stopHeartbeatWork]
  let worker :=
    if worker.connTcp && worker.childWorkTcpLoop then
      { worker with uvChildRef := worker.uvChildRef + 1 }.perform [.tryCloseHandle .childWorkTcp]
    else worker
  worker.perform [.tryCloseHandle .pollWork, .tryCloseHandle .dataPipeWork]

/-- `DispatchMainThreadCommand`; `started` is what `WorkThreadStartSession` returns. -/
def dispatchMainThreadCommand (worker : Worker) (started : Bool) (ctrl : CtrlStruct) :
    Bool × Worker :=
  match InnerCtrlCommand.ofCode ctrl.command with
  | some .startSession =>
    (started, worker.perform [.workThreadStartSession, .reportConnectionEvent])
  | some .stopSession => (true, worker.stopSession)
  -- only the server has channels
  | some .attachChannel =>
    (true, if worker.serverOrDaemon then worker.perform [.attachChannel ctrl.channelId] else worker)
  | some .deatchChannel =>
    (true, if worker.serverOrDaemon then worker.perform [.detachChannel ctrl.channelId] else worker)
  | _ => (false, worker)

end Worker

/-- The commands that are carried out: to start a session, if that succeeds, to stop it,
and to attach and detach a channel. -/
def Accepted (started : Bool) (ctrl : CtrlStruct) : Prop :=
  (ctrl.command = InnerCtrlCommand.startSession.code ∧ started = true) ∨
    ctrl.command = InnerCtrlCommand.stopSession.code ∨
    ctrl.command = InnerCtrlCommand.attachChannel.code ∨
    ctrl.command = InnerCtrlCommand.deatchChannel.code

instance (started : Bool) (ctrl : CtrlStruct) : Decidable (Accepted started ctrl) := by
  unfold Accepted
  infer_instance

theorem dispatchMainThreadCommand_iff (worker : Worker) (started : Bool) (ctrl : CtrlStruct) :
    (worker.dispatchMainThreadCommand started ctrl).1 = true ↔ Accepted started ctrl := by
  rw [Worker.dispatchMainThreadCommand, Accepted]
  cases named : InnerCtrlCommand.ofCode ctrl.command with
  | none =>
    simp only [Bool.false_eq_true, false_iff]
    rintro (⟨same, -⟩ | same | same | same)
    all_goals
      rw [same] at named
      cases named
  | some command =>
    rw [InnerCtrlCommand.code_of_ofCode named]
    cases command <;> simp [InnerCtrlCommand.code]

/-! ### The pipe -/

/-- A record with the place in the pipe where it begins. -/
structure Call where
  place : Nat
  ctrl : CtrlStruct
deriving DecidableEq, Repr

/-- The loop of `ReadCtrlFromMain` from `index` on, for at most `turns` turns: what it calls.
`base` is the place in the pipe where the buffer begins, `started` what
`WorkThreadStartSession` returns for the record at an index. -/
def dispatchLoop (buf : Bytes) (nread base : Nat) (started : Nat → Bool) :
    Nat → Nat → Worker → Worker × List Call
  | 0, _, worker => (worker, [])
  | turns + 1, index, worker =>
    let ctrl := CtrlStruct.ofBuffer (buf.drop index)
    let (ret, worker) := worker.dispatchMainThreadCommand (started index) ctrl
    if !ret || nread ≤ index + sizeofCtrlStruct then (worker, [⟨base + index, ctrl⟩])
    else
      let (worker, calls) :=
        dispatchLoop buf nread base started turns (index + sizeofCtrlStruct) worker
      (worker, ⟨base + index, ctrl⟩ :: calls)

/-- The session and its pipe. `pipe` was written and not read yet, `taken` is how much was
read; `sent` and `calls` are all records that were written, and all calls. -/
structure State where
  worker : Worker
  pipe : Bytes
  taken : Nat
  closed : Bool
  sent : List Call
  calls : List Call
deriving DecidableEq, Repr

def State.start (worker : Worker) : State := ⟨worker, [], 0, false, [], []⟩

/-- What can happen: a request is written, the main thread closes its end, a read fails, or a
read takes at least one and at most `most + 1` bytes of what is there. -/
inductive Op where
  | send (request : Request)
  | close
  | fail
  | read (most : Nat) (started : Nat → Bool)

namespace State

/-- `ReadFromFd`. There is nothing to read from an empty pipe unless it was closed. -/
def nread (s : State) (most : Nat) : Option Nat :=
  if s.pipe.isEmpty then (if s.closed then some 0 else none)
  else some (min (most + 1) (min maxSizeIobufStable s.pipe.length))

/-- `ReadCtrlFromMain`, with what `ReadFromFd` returned. -/
def readCtrlFromMain (s : State) (started : Nat → Bool) : Option Nat → State
  | none => s
  | some nread =>
    let buf := s.pipe.take nread ++ List.replicate (maxSizeIobufStable - nread) 0
    let after := { s with pipe := s.pipe.drop nread, taken := s.taken + nread }
    if nread % sizeofCtrlStruct ≠ 0 then after
    else
      let (worker, calls) :=
        dispatchLoop buf nread s.taken started (nread / sizeofCtrlStruct + 1) 0 s.worker
      { after with worker := worker, calls := s.calls ++ calls }

theorem readCtrlFromMain_whole (s : State) (started : Nat → Bool) {nread : Nat}
    (whole : nread % sizeofCtrlStruct = 0) :
    s.readCtrlFromMain started (some nread) =
      let looped :=
        dispatchLoop (s.pipe.take nread ++ List.replicate (maxSizeIobufStable - nread) 0) nread
          s.taken started (nread / sizeofCtrlStruct + 1) 0 s.worker
      ⟨looped.1, s.pipe.drop nread, s.taken + nread, s.closed, s.sent, s.calls ++ looped.2⟩ := by
  rw [readCtrlFromMain, if_neg (not_not.mpr whole)]

/-- `SendToPollFd` writes nothing for an empty record, and nothing into a closed pipe. -/
def send (s : State) (request : Request) : State :=
  if s.closed then s
  else
    { s with
      pipe := s.pipe ++ request.buildCtrlString
      sent := s.sent ++ (request.ctrl.map (⟨s.taken + s.pipe.length, ·⟩)).toList }

def step (s : State) : Op → State
  | .send request => s.send request
  | .close => { s with closed := true }
  | .fail => s
  | .read most started => s.readCtrlFromMain started (s.nread most)

end State

/-! ### What a read calls -/

/-- The records of a read, one after the other, as they are recorded. -/
def placed (base : Nat) : List CtrlStruct → List Call
  | [] => []
  | ctrl :: records => ⟨base, ctrl⟩ :: placed (base + sizeofCtrlStruct) records

@[simp] theorem length_placed (base : Nat) (records : List CtrlStruct) :
    (placed base records).length = records.length := by
  induction records generalizing base with
  | nil => rfl
  | cons ctrl records ih => rw [placed, length_cons, ih, length_cons]

theorem placed_append (base : Nat) (first second : List CtrlStruct) :
    placed base (first ++ second) =
    placed base first ++ placed (base + sizeofCtrlStruct * first.length) second := by
  induction first generalizing base with
  | nil => rfl
  | cons ctrl first ih =>
    rw [cons_append, placed, ih, placed, cons_append, length_cons, mul_succ,
      add_assoc, add_comm sizeofCtrlStruct]

theorem getElem?_placed (base i : Nat) (records : List CtrlStruct) :
    (placed base records)[i]? = records[i]?.map (⟨base + sizeofCtrlStruct * i, ·⟩) := by
  induction records generalizing base i with
  | nil => rfl
  | cons ctrl records ih =>
    cases i with
    | zero => rfl
    | succ i =>
      rw [placed, getElem?_cons_succ, ih, getElem?_cons_succ, mul_succ, add_assoc,
        add_comm sizeofCtrlStruct]

theorem drop_placed (base count : Nat) (records : List CtrlStruct) :
    (placed base records).drop count =
    placed (base + sizeofCtrlStruct * count) (records.drop count) := by
  ext1 i
  rw [getElem?_drop, getElem?_placed, getElem?_placed, getElem?_drop, Nat.mul_add, add_assoc]

theorem take_placed (base count : Nat) (records : List CtrlStruct) :
    (placed base records).take count = placed base (records.take count) := by
  ext1 i
  simp only [getElem?_take, getElem?_placed]
  split <;> rfl

/-- The records up to the first that is refused. -/
def served (started : Nat → Bool) : Nat → List CtrlStruct → List CtrlStruct
  | _, [] => []
  | index, ctrl :: records =>
    ctrl :: if Accepted (started index) ctrl then served started (index + sizeofCtrlStruct) records else []

/-- Every record but the last one is carried out. -/
def AllAccepted (started : Nat → Bool) (index : Nat) (records : List CtrlStruct) : Prop :=
  ∀ i ctrl, i + 1 < records.length → records[i]? = some ctrl →
    Accepted (started (index + sizeofCtrlStruct * i)) ctrl

theorem allAccepted_cons {started : Nat → Bool} {index : Nat} {ctrl : CtrlStruct}
    {records : List CtrlStruct} (others : records ≠ []) :
    AllAccepted started index (ctrl :: records) ↔ Accepted (started index) ctrl ∧
    AllAccepted started (index + sizeofCtrlStruct) records := by
  have shift : ∀ i, index + sizeofCtrlStruct * (i + 1) =
      index + sizeofCtrlStruct + sizeofCtrlStruct * i := by
    intro i
    rw [mul_succ]
    omega
  constructor
  · intro all
    refine ⟨all 0 _ (by simpa using length_pos_of_ne_nil others) rfl, ?_⟩
    intro i next inside here
    rw [← shift]
    exact all (i + 1) next (by simpa using inside) (by simpa using here)
  · rintro ⟨first, rest⟩ i next inside here
    cases i with
    | zero =>
      obtain rfl : ctrl = next := by simpa using here
      exact first
    | succ i =>
      rw [shift]
      exact rest i next (by simpa using inside) (by simpa using here)

/-- A read serves all of its records exactly if it refuses none before the last one. -/
theorem length_served_iff (started : Nat → Bool) (index : Nat) (records : List CtrlStruct) :
    (served started index records).length = records.length ↔ AllAccepted started index records := by
  induction records generalizing index with
  | nil => simp [served, AllAccepted]
  | cons ctrl records ih =>
    by_cases others : records = []
    · subst others
      simp [served, AllAccepted]
    · have positive := length_pos_of_ne_nil others
      rw [allAccepted_cons others, ← ih, served]
      split
      case isTrue accepted => simp [accepted]
      case isFalse refused =>
        simp only [length_cons, length_nil, refused, false_and, iff_false]
        omega

/-- What is served is the beginning of the read. -/
theorem served_isPrefix (started : Nat → Bool) (index : Nat) (records : List CtrlStruct) :
    served started index records <+: records := by
  induction records generalizing index with
  | nil => exact List.nil_prefix
  | cons ctrl records ih =>
    rw [served, prefix_cons_inj]
    split
    · exact ih _
    · exact List.nil_prefix

/-- The first call of a read is made with the first record of the buffer. -/
theorem dispatchLoop_first (buf : Bytes) (nread base : Nat) (started : Nat → Bool)
    (turns index : Nat) (worker : Worker) :
    ∃ ctrl tail, (dispatchLoop buf nread base started (turns + 1) index worker).2 =
    ⟨base + index, ctrl⟩ :: tail := by
  rw [dispatchLoop]
  dsimp only
  split
  · exact ⟨_, [], rfl⟩
  · exact ⟨_, _, rfl⟩

/-- A read of whole records calls what it serves of them. -/
theorem dispatchLoop_calls {buf rest : Bytes} {nread base index turns : Nat} {started : Nat → Bool}
    {records : List CtrlStruct} (worker : Worker)
    (whole : buf.drop index = stream CtrlStruct.bytes records ++ rest)
    (some_records : records ≠ []) (enough : records.length ≤ turns)
    (all : index + sizeofCtrlStruct * records.length = nread) :
    (dispatchLoop buf nread base started turns index worker).2 =
    placed (base + index) (served started index records) := by
  induction records generalizing index turns worker with
  | nil => exact absurd rfl some_records
  | cons ctrl records ih =>
    obtain ⟨turns, rfl⟩ : ∃ fewer, turns = fewer + 1 :=
      exists_eq_succ_of_ne_zero (by rw [length_cons] at enough; omega)
    rw [stream_cons, append_assoc] at whole
    have behind : buf.drop (index + sizeofCtrlStruct) =
        stream CtrlStruct.bytes records ++ rest := by
      rw [← drop_drop, whole, ← ctrl.length_bytes, drop_left]
    have next := dispatchMainThreadCommand_iff worker (started index) ctrl
    rw [length_cons, mul_succ] at all
    rw [dispatchLoop, whole, CtrlStruct.ofBuffer_bytes, served, placed]
    generalize worker.dispatchMainThreadCommand (started index) ctrl = dispatched at next ⊢
    obtain ⟨_, after⟩ := dispatched
    by_cases accepted : Accepted (started index) ctrl
    · obtain rfl := next.mpr accepted
      rw [if_pos accepted]
      by_cases others : records = []
      · subst others
        simp [← all, served, placed]
      · have positive := length_pos_of_ne_nil others
        have more : ¬ nread ≤ index + sizeofCtrlStruct := by
          rw [← all, sizeofCtrlStruct]
          omega
        simp only [Bool.not_true, Bool.false_or, decide_eq_true_eq, if_neg more, add_assoc]
        rw [ih after behind others (by simpa using enough) (by omega)]
    · obtain rfl := Bool.eq_false_iff.mpr fun yes => accepted (next.mp yes)
      rw [if_neg accepted]
      rfl

/-! ### Delivery -/

/-- The calls so far are the records that were read to their end, each once, in order and
with their content; when nothing is left to read, they are all that was sent. -/
structure Delivered (s : State) : Prop where
  sofar : s.calls = s.sent.take (s.taken / sizeofCtrlStruct)
  drained : s.pipe = [] → s.calls = s.sent

/-- The reads that do no harm: one that fails, one that stays inside a record, and one of whole
records, from the beginning of one, none of which is refused before the last. -/
def Fine (s : State) : Op → Prop
  | .read most started =>
    ∀ nread, s.nread most = some nread →
      0 < nread ∧
        (s.taken % sizeofCtrlStruct + nread < sizeofCtrlStruct ∨
          (s.taken % sizeofCtrlStruct = 0 ∧ nread % sizeofCtrlStruct = 0 ∧
            AllAccepted started 0
              (((s.sent.map Call.ctrl).drop (s.taken / sizeofCtrlStruct)).take
                (nread / sizeofCtrlStruct))))
  | _ => True

/-- What the pipe holds, and what was called. -/
structure InStep (s : State) : Prop where
  sent_eq : s.sent = placed 0 (s.sent.map Call.ctrl)
  pipe_eq : s.pipe = (stream CtrlStruct.bytes (s.sent.map Call.ctrl)).drop s.taken
  taken_le : s.taken ≤ sizeofCtrlStruct * s.sent.length
  calls_eq : s.calls = s.sent.take (s.taken / sizeofCtrlStruct)

namespace InStep

variable {s : State}

theorem start (worker : Worker) : InStep (.start worker) where
  sent_eq := rfl
  pipe_eq := rfl
  taken_le := le_refl 0
  calls_eq := take_nil.symm

theorem length_pipe (inv : InStep s) :
    s.taken + s.pipe.length = sizeofCtrlStruct * s.sent.length := by
  have bound := inv.taken_le
  rw [inv.pipe_eq, length_drop, length_stream CtrlStruct.length_bytes, length_map]
  omega

theorem length_calls (inv : InStep s) : s.calls.length = s.taken / sizeofCtrlStruct := by
  have bound := inv.taken_le
  rw [inv.calls_eq, length_take, sizeofCtrlStruct] at *
  omega

/-- A read takes no more than there is. -/
theorem nread_le {most nread : Nat} (read : s.nread most = some nread) :
    nread ≤ s.pipe.length ∧ nread ≤ maxSizeIobufStable := by
  rw [State.nread] at read
  split at read
  · split at read <;> cases read
    exact ⟨zero_le _, zero_le _⟩
  · cases read
    omega

theorem delivered (inv : InStep s) : Delivered s where
  sofar := inv.calls_eq
  drained := by
    intro empty
    have all := inv.length_pipe
    rw [empty, length_nil, Nat.add_zero] at all
    rw [inv.calls_eq, all, Nat.mul_div_cancel_left _ (by decide), take_length]

/-- A record that is written comes behind all others. -/
theorem send (inv : InStep s) (request : Request) : InStep (s.send request) := by
  rw [State.send]
  split
  · exact inv
  have place := inv.length_pipe
  have bound := inv.taken_le
  rw [Request.buildCtrlString]
  cases request.ctrl with
  | none => simpa using inv
  | some ctrl =>
    constructor
    · dsimp only [Option.toList_some]
      rw [map_append, placed_append, ← inv.sent_eq, place, length_map, Nat.zero_add]
      rfl
    · dsimp only [Option.toList_some]
      rw [map_append, stream_append, drop_append_of_le_length, ← inv.pipe_eq]
      · simp
      · rwa [length_stream CtrlStruct.length_bytes, length_map]
    · dsimp only [Option.toList_some]
      rw [length_append, Nat.mul_add]
      omega
    · dsimp only [Option.toList_some]
      rw [take_append_of_le_length, ← inv.calls_eq]
      exact Nat.div_le_of_le_mul bound

/-- A read that calls what it takes. -/
theorem taking (inv : InStep s) {nread : Nat} (inside : nread ≤ s.pipe.length) (worker : Worker)
    {calls : List Call} (same : calls = s.sent.take ((s.taken + nread) / sizeofCtrlStruct)) :
    InStep ⟨worker, s.pipe.drop nread, s.taken + nread, s.closed, s.sent, calls⟩ where
  sent_eq := inv.sent_eq
  pipe_eq := by
    rw [inv.pipe_eq, drop_drop]
  taken_le := by
    have := inv.length_pipe
    dsimp only
    omega
  calls_eq := same

/-- The records that a read of whole records takes. -/
def next (s : State) (nread : Nat) : List CtrlStruct :=
  ((s.sent.map Call.ctrl).drop (s.taken / sizeofCtrlStruct)).take (nread / sizeofCtrlStruct)

section Aligned

variable {nread : Nat} (inv : InStep s) (inside : nread ≤ s.pipe.length)
  (begins : s.taken % sizeofCtrlStruct = 0) (whole : nread % sizeofCtrlStruct = 0)
include inv inside begins whole

theorem length_next : (next s nread).length = nread / sizeofCtrlStruct := by
  have all := inv.length_pipe
  rw [next, length_take, length_drop, length_map]
  rw [sizeofCtrlStruct] at *
  omega

omit inside in
/-- Whole records from the beginning of one are what comes next. -/
theorem take_pipe : s.pipe.take nread = stream CtrlStruct.bytes (next s nread) := by
  obtain ⟨before, here⟩ := Nat.dvd_of_mod_eq_zero begins
  obtain ⟨count, many⟩ := Nat.dvd_of_mod_eq_zero whole
  have positive : 0 < sizeofCtrlStruct := by decide
  rw [inv.pipe_eq, next, here, many, drop_stream CtrlStruct.length_bytes,
    take_stream CtrlStruct.length_bytes, Nat.mul_div_cancel_left before positive,
    Nat.mul_div_cancel_left count positive]

omit inside in
/-- The calls that are due after the read. -/
theorem take_sent : s.sent.take ((s.taken + nread) / sizeofCtrlStruct) =
    s.calls ++ placed s.taken (next s nread) := by
  have here : s.taken = sizeofCtrlStruct * (s.taken / sizeofCtrlStruct) :=
    (Nat.mul_div_cancel' (Nat.dvd_of_mod_eq_zero begins)).symm
  have sum : (s.taken + nread) / sizeofCtrlStruct =
      s.taken / sizeofCtrlStruct + nread / sizeofCtrlStruct := by
    rw [sizeofCtrlStruct] at *
    omega
  rw [sum, take_add, ← inv.calls_eq]
  nth_rewrite 1 [inv.sent_eq]
  rw [drop_placed, take_placed, Nat.zero_add, ← here, next]

theorem aligned_calls (positive : 0 < nread) (zeros : Bytes) (started : Nat → Bool) :
    (dispatchLoop (s.pipe.take nread ++ zeros) nread s.taken started
    (nread / sizeofCtrlStruct + 1) 0 s.worker).2 =
    placed s.taken (served started 0 (next s nread)) := by
  have count := inv.length_next inside begins whole
  have some_records : 0 < nread / sizeofCtrlStruct := by
    rw [sizeofCtrlStruct] at *
    omega
  apply dispatchLoop_calls
  · rw [drop_zero, inv.take_pipe begins whole]
  · exact ne_nil_of_length_pos (by rwa [count])
  · rw [count]
    exact Nat.le_succ _
  · rw [count, Nat.zero_add, Nat.mul_div_cancel' (Nat.dvd_of_mod_eq_zero whole)]

end Aligned

/-- Fine operations keep the invariant. -/
theorem step (inv : InStep s) {op : Op} (fine : Fine s op) : InStep (s.step op) := by
  cases op with
  | send request => exact inv.send _
  | close => exact { inv with }
  | fail => exact inv
  | read most started =>
    rw [State.step]
    cases read : s.nread most with
    | none => exact inv
    | some nread =>
      obtain ⟨positive, _ | ⟨begins, whole, accepted⟩⟩ := fine nread read
      · have cut : nread % sizeofCtrlStruct ≠ 0 := by
          rw [sizeofCtrlStruct] at *
          omega
        rw [State.readCtrlFromMain, if_pos cut]
        refine inv.taking (nread_le read).1 s.worker ?_
        rw [inv.calls_eq]
        congr 1
        rw [sizeofCtrlStruct] at *
        omega
      · have inside := (nread_le read).1
        have all : served started 0 (next s nread) = next s nread :=
          (served_isPrefix started 0 _).eq_of_length ((length_served_iff started 0 _).mpr accepted)
        rw [State.readCtrlFromMain_whole s started whole]
        refine inv.taking inside _ ?_
        rw [inv.aligned_calls inside begins whole positive, all, inv.take_sent begins whole]

section

variable (inv : InStep s) (started : Nat → Bool)
include inv started

/-- A read of nothing calls for something that was not sent. -/
theorem nothing_breaks : ¬ Delivered (s.readCtrlFromMain started (some 0)) := by
  rintro ⟨sofar, -⟩
  rw [State.readCtrlFromMain_whole s started (zero_mod _)] at sofar
  obtain ⟨_, _, first⟩ := dispatchLoop_first
    (s.pipe.take 0 ++ List.replicate (maxSizeIobufStable - 0) 0) 0 s.taken started
    (0 / sizeofCtrlStruct) 0 s.worker
  dsimp only at sofar
  rw [first, add_zero] at sofar
  have counts := congrArg List.length sofar
  rw [length_append, inv.length_calls, length_take, length_cons] at counts
  omega

/-- A read that is thrown away loses the record that it ends, or goes beyond. -/
theorem cut_breaks {nread : Nat}
    (inside : nread ≤ s.pipe.length) (cut : nread % sizeofCtrlStruct ≠ 0)
    (beyond : sizeofCtrlStruct ≤ s.taken % sizeofCtrlStruct + nread) :
    ¬ Delivered (s.readCtrlFromMain started (some nread)) := by
  rintro ⟨sofar, -⟩
  have all := inv.length_pipe
  rw [State.readCtrlFromMain, if_pos cut] at sofar
  have counts := congrArg List.length sofar
  rw [inv.length_calls, length_take] at counts
  dsimp only at counts
  rw [sizeofCtrlStruct] at *
  omega

/-- Records that are read from the middle of one were never sent. -/
theorem middle_breaks {nread : Nat}
    (whole : nread % sizeofCtrlStruct = 0) (middle : s.taken % sizeofCtrlStruct ≠ 0) :
    ¬ Delivered (s.readCtrlFromMain started (some nread)) := by
  rintro ⟨sofar, -⟩
  rw [State.readCtrlFromMain_whole s started whole] at sofar
  obtain ⟨ctrl, _, first⟩ := dispatchLoop_first
    (s.pipe.take nread ++ List.replicate (maxSizeIobufStable - nread) 0) nread s.taken started
    (nread / sizeofCtrlStruct) 0 s.worker
  dsimp only at sofar
  rw [first] at sofar
  obtain ⟨_, same⟩ := List.take_prefix ((s.taken + nread) / sizeofCtrlStruct) s.sent
  have here : s.sent[s.calls.length]? = some ⟨s.taken, ctrl⟩ := by
    rw [← same, ← sofar]
    simp
  rw [inv.sent_eq, getElem?_placed] at here
  obtain ⟨_, _, same⟩ := Option.map_eq_some_iff.mp here
  obtain ⟨place, -⟩ := Call.mk.inj same
  rw [← place, zero_add, mul_mod_right] at middle
  exact middle rfl

/-- The records behind one that is refused are not called. -/
theorem refused_breaks {nread : Nat} (inside : nread ≤ s.pipe.length) (positive : 0 < nread)
    (begins : s.taken % sizeofCtrlStruct = 0) (whole : nread % sizeofCtrlStruct = 0)
    (refused : ¬ AllAccepted started 0 (next s nread)) :
    ¬ Delivered (s.readCtrlFromMain started (some nread)) := by
  rintro ⟨sofar, -⟩
  rw [State.readCtrlFromMain_whole s started whole] at sofar
  dsimp only at sofar
  rw [inv.aligned_calls inside begins whole positive, inv.take_sent begins whole] at sofar
  have counts := congrArg List.length (append_cancel_left sofar)
  rw [length_placed, length_placed] at counts
  exact refused ((length_served_iff _ 0 _).mp counts)

end

/-- Every operation that is not fine breaks the delivery at once. -/
theorem not_fine_breaks (inv : InStep s) {op : Op} (bad : ¬ Fine s op) :
    ¬ Delivered (s.step op) := by
  cases op with
  | send request => exact absurd trivial bad
  | close => exact absurd trivial bad
  | fail => exact absurd trivial bad
  | read most started =>
    rw [Fine] at bad
    push Not at bad
    obtain ⟨nread, read, bad⟩ := bad
    have inside := (nread_le read).1
    rw [State.step, read]
    rcases Nat.eq_zero_or_pos nread with rfl | positive
    · exact inv.nothing_breaks _
    · obtain ⟨beyond, otherwise⟩ := bad positive
      by_cases whole : nread % sizeofCtrlStruct = 0
      · by_cases begins : s.taken % sizeofCtrlStruct = 0
        · exact inv.refused_breaks _ inside positive begins whole (otherwise begins whole)
        · exact inv.middle_breaks _ whole begins
      · exact inv.cut_breaks _ inside whole beyond

end InStep

/-- Along every run, every command is delivered exactly once, in order and unchanged, and
nothing else is, if and only if every read is fine in the state that it meets. -/
theorem deliver_exact (worker : Worker) (ops : List Op) :
    (∀ k, Delivered ((ops.take k).foldl State.step (.start worker))) ↔
      ExactRuns.AllFine State.step Fine (.start worker) ops :=
  ExactRuns.holds_iff InStep (InStep.start _)
    (fun inv fine => inv.step fine) (fun inv bad => inv.not_fine_breaks bad) InStep.delivered

/-- A request to stop the session that arrives in two halves is lost, and when the main thread
closes its end without having sent anything, the session is told to start. -/
theorem halves_lost_and_end_starts :
    let worker : Worker := ⟨false, false, false, 0, []⟩
    let halves := [Op.send ⟨.stopSession, 0, none, 0⟩, .read 13 fun _ => true, .read 13 fun _ => true]
    let ending := [Op.close, .read 0 fun _ => true]
    ((halves.foldl State.step (.start worker)).sent.length = 1 ∧
      (halves.foldl State.step (.start worker)).pipe = [] ∧
      (halves.foldl State.step (.start worker)).calls = []) ∧
    (ending.foldl State.step (.start worker)).sent = [] ∧
      (ending.foldl State.step (.start worker)).calls =
        [⟨0, ⟨InnerCtrlCommand.startSession.code, 0, 0, .fill bufSizeMicro 0⟩⟩] := by
  decide

end Hdc.Session.Control
