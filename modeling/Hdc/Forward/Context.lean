import Hdc.Lib.Registry
import Hdc.Session.Stream

/-!
The contexts of a forward task (`forward.cpp`, and the end points for a debugger of
`daemon_forward.cpp`).

A forward task has a context for what it listens on and for every connection. A context gets a
random id; on the side that connects, it then takes the id that the frame of the peer names. Frames
find their context by its id. A context that is freed stays in the map until its handle is closed,
and then the entry under its id is erased, the context deleted and `refCount` lowered. What is
outside answers through `Outcome` and the arguments of the operations.

Whether an id is in use is never looked at.
-/

namespace Hdc.Forward

open HdcCommand

open Session (Build)

inductive ForwardType where
  | tcp
  | device
  | jdwp
  | ark
  | abstract
  | reserved
  | filesystem
deriving DecidableEq, Repr

/-- `ContextForward`, without its id and its handles. -/
structure Context where
  type : ForwardType
  masterSlave : Bool
  checkPoint : Bool
  ready : Bool
  finish : Bool
deriving DecidableEq, Repr

/-- A new context; its type is the first one until it is known. -/
def Context.new (masterSlave : Bool) : Context := ⟨.tcp, masterSlave, false, false, false⟩

/-- A forward task. `releasing` are the contexts whose handles are being closed, `idle` those
that a debugger is being asked for; `sent` are the frames to the peer. -/
structure ForwardTask where
  contexts : Registry UInt32 Context
  refCount : Nat
  releasing : List Nat
  idle : List Nat
  sent : List (UInt32 × HdcCommand)

/-- How an end point comes about: the type that the text of the node names, if it is accepted;
whether sockets, pipes or devices can be had; the result that is passed on; whether frames, or the
data of one, can be sent; whether reading can be started. -/
structure Outcome where
  node : Option ForwardType
  works : Bool
  status : Int
  sends : Bool
  begins : Bool
deriving DecidableEq, Repr

def dwordSerializeSize : Nat := 4

def forwardParameterBufSize : Nat := 8

namespace ForwardTask

def start : ForwardTask := ⟨.empty, 0, [], [], []⟩

/-- `ReadyForRelease`. -/
def readyForRelease (task : ForwardTask) : Bool := task.refCount == 0

def change (task : ForwardTask) (number : Nat) (f : Context → Context) : ForwardTask :=
  { task with contexts := task.contexts.change number f }

def sendToTask (task : ForwardTask) (id : UInt32) (command : HdcCommand) : ForwardTask :=
  { task with sent := task.sent ++ [(id, command)] }

/-- `MallocContext`; `id` is the random number. The new context is the next one. -/
def mallocContext (task : ForwardTask) (masterSlave : Bool) (id : UInt32) : ForwardTask :=
  { task with
    contexts := task.contexts.add id (.new masterSlave)
    refCount := task.refCount + 1 }

/-- `FreeContext` of a context at hand: every type has a handle, or a device, that is closed. -/
def freeContext (task : ForwardTask) (number : Nat) (bNotifyRemote : Bool) : ForwardTask :=
  match task.contexts.object number with
  | none => task
  | some ctx =>
    if ctx.data.finish then task
    else
      let task := if bNotifyRemote then task.sendToTask ctx.key .forwardFreeContext else task
      let task := { task with releasing := task.releasing ++ [number] }
      task.change number fun data => { data with finish := true }

/-- `FreeContextCallBack`, when the loop comes to it. -/
def freeContextCallBack (task : ForwardTask) (number : Nat) : ForwardTask :=
  if number ∈ task.releasing then
    match task.contexts.object number with
    | none => task
    | some _ =>
      { task with
        contexts := task.contexts.remove number
        releasing := task.releasing.erase number
        refCount := if task.refCount > 0 then task.refCount - 1 else task.refCount }
  else task

/-! ### End points -/

/-- `DoForwardBegin`. -/
def doForwardBegin (task : ForwardTask) (number : Nat) (begins : Bool) : Bool × ForwardTask :=
  if begins then (true, task.change number fun data => { data with ready := true })
  else (false, task)

/-- `SetupPointContinue`. -/
def setupPointContinue (task : ForwardTask) (number : Nat) (status : Int) (outcome : Outcome) :
    Bool × ForwardTask :=
  match task.contexts.object number with
  | none => (false, task)
  | some ctx =>
    if ctx.data.checkPoint then
      if outcome.sends then
        (true, (task.sendToTask ctx.key .forwardCheckResult).freeContext number false)
      else (false, task.freeContext number true)
    else if status < 0 then (false, task.freeContext number true)
    else if outcome.sends then
      (task.sendToTask ctx.key .forwardActiveMaster).doForwardBegin number outcome.begins
    else (false, task.freeContext number true)

/-- `++refCount` with `IdleUvTask`, until `SetupJdwpPointCallBack`. -/
def waitIdle (task : ForwardTask) (number : Nat) : ForwardTask :=
  { task with refCount := task.refCount + 1, idle := task.idle ++ [number] }

/-- `SetupJdwpPoint`; the one of the host refuses. -/
def setupJdwpPoint (build : Build) (task : ForwardTask) (number : Nat) (checkPoint : Bool)
    (outcome : Outcome) : Bool × ForwardTask :=
  match build with
  | .host => (false, task)
  | .daemon =>
    if checkPoint then (true, (task.setupPointContinue number outcome.status outcome).2)
    else if outcome.works then (true, task.waitIdle number)
    else (false, task)

/-- `SetupArkPoint`; a negative status stands for a text that names no process, or one that is
not there. -/
def setupArkPoint (build : Build) (task : ForwardTask) (number : Nat) (outcome : Outcome) :
    Bool × ForwardTask :=
  match build with
  | .host => (false, task)
  | .daemon =>
    if outcome.status < 0 then (false, (task.setupPointContinue number 0 outcome).2)
    else if outcome.works then (true, task.waitIdle number)
    else (false, task)

/-- `SetupPoint`, for a type that is known. -/
def setupPoint (build : Build) (task : ForwardTask) (number : Nat) (masterSlave checkPoint : Bool)
    (type : ForwardType) (outcome : Outcome) : Bool × ForwardTask :=
  match type with
  | .tcp | .reserved | .filesystem => (outcome.works, task)
  | .device =>
    if outcome.works then (true, (task.setupPointContinue number outcome.status outcome).2)
    else (false, task)
  | .jdwp => task.setupJdwpPoint build number checkPoint outcome
  | .abstract =>
    if masterSlave then (outcome.works, task)
    else
      (outcome.works,
        (task.setupPointContinue number (if outcome.works then 0 else -1) outcome).2)
  | .ark => (false, task)

/-- `BeginForward`. A context whose end point is refused is left as it is. -/
def beginForward (build : Build) (task : ForwardTask) (id : UInt32) (outcome : Outcome) :
    Bool × ForwardTask :=
  let number := task.contexts.next
  let task := task.mallocContext true id
  match outcome.node with
  | none => (false, task)
  | some type =>
    let task := task.change number fun data => { data with type := type }
    let (ret, task) := task.setupPoint build number true false type outcome
    (ret, if ret then task.sendToTask id .forwardCheck else task)

/-- `FilterCommand`: the id at the head of a frame. -/
def filterCommand (payload : Bytes) : UInt32 :=
  UInt32.ofNat (Endian.ofBE (payload.take dwordSerializeSize))

/-- The part of `SlaveConnect` after the context has the id of the frame. -/
def slaveSetup (build : Build) (task : ForwardTask) (number : Nat) (bCheckPoint : Bool)
    (outcome : Outcome) : Bool × ForwardTask :=
  match outcome.node with
  | none => (false, task)
  | some type =>
    let task := task.change number fun data => { data with type := type }
    if type = .ark then
      if bCheckPoint then task.setupArkPoint build number outcome
      else (true, (task.setupPointContinue number 0 outcome).2)
    else if !bCheckPoint then task.setupPoint build number false bCheckPoint type outcome
    else (true, (task.setupPointContinue number 0 outcome).2)

/-- A new context of the side that connects, under the id of the frame. -/
def slaveContext (task : ForwardTask) (payload : Bytes) (bCheckPoint : Bool) (id : UInt32) :
    ForwardTask :=
  let number := task.contexts.next
  let task := task.mallocContext false id
  let task := task.change number fun data => { data with checkPoint := bCheckPoint }
  { task with contexts := task.contexts.rekey number (filterCommand payload) }

/-- `SlaveConnect`. -/
def slaveConnect (build : Build) (task : ForwardTask) (payload : Bytes) (bCheckPoint : Bool)
    (id : UInt32) (outcome : Outcome) : Bool × ForwardTask :=
  if payload.length ≤ dwordSerializeSize + forwardParameterBufSize then (false, task)
  else
    let number := task.contexts.next
    let (ret, task) :=
      (task.slaveContext payload bCheckPoint id).slaveSetup build number bCheckPoint outcome
    (ret, if ret then task else task.freeContext number true)

/-! ### Events -/

/-- `ListenCallback` with `OnAccept`. -/
def listenCallback (task : ForwardTask) (listen : Nat) (failed : Bool) (id : UInt32)
    (accepted : Bool) : ForwardTask :=
  match task.contexts.object listen with
  | none => task
  | some ctxListen =>
    if failed || !ctxListen.data.ready then
      (task.freeContext listen false).sendToTask 0 .kernelChannelClose
    else
      let client := task.contexts.next
      let task := task.mallocContext true id
      if accepted then
        (task.change client fun data => { data with type := ctxListen.data.type }).sendToTask id
          .forwardActiveSlave
      else task.freeContext client false

/-- `SetupJdwpPointCallBack`. -/
def setupJdwpPointCallBack (task : ForwardTask) (number : Nat) (outcome : Outcome) : ForwardTask :=
  if number ∈ task.idle then
    let task := (task.setupPointContinue number 1 outcome).2
    { task with refCount := task.refCount - 1, idle := task.idle.erase number }
  else task

/-- The switch of `ForwardCommandDispatch`. -/
def forwardCommand (task : ForwardTask) (ctx : Keyed UInt32 Context) (command : UInt16)
    (outcome : Outcome) : Bool × ForwardTask :=
  match ofCode command with
  -- the test of `CommandForwardCheckResult` is of a pointer that is never null
  | some .forwardCheckResult => (true, task.change ctx.number fun data => { data with ready := true })
  | some .forwardActiveMaster => task.doForwardBegin ctx.number outcome.begins
  | some .forwardData =>
    if ctx.data.finish || outcome.sends then (true, task)
    else (true, task.freeContext ctx.number true)
  | some .forwardFreeContext => (true, task.freeContext ctx.number false)
  | _ => (false, task)

/-- `ForwardCommandDispatch`. -/
def forwardCommandDispatch (task : ForwardTask) (command : UInt16) (payload : Bytes)
    (outcome : Outcome) : Bool × ForwardTask :=
  if payload.length ≤ dwordSerializeSize ∧ command ≠ forwardFreeContext.code ∧
      command ≠ forwardActiveMaster.code then
    (false, task)
  else
    match task.contexts.query (filterCommand payload) with
    | none => (true, task)
    | some ctx =>
      let (ret, task) := task.forwardCommand ctx command outcome
      (ret, if ret then task else task.freeContext ctx.number true)

/-- `CommandDispatch`. -/
def commandDispatch (build : Build) (task : ForwardTask) (command : UInt16) (payload : Bytes)
    (id : UInt32) (outcome : Outcome) : Bool × ForwardTask :=
  if command = forwardInit.code then task.beginForward build id outcome
  else if command = forwardCheck.code then
    task.slaveConnect build payload true id outcome
  else if command = forwardActiveSlave.code then
    task.slaveConnect build payload false id outcome
  else task.forwardCommandDispatch command payload outcome

end ForwardTask

/-- What can happen: a frame for the task, a connection to what it listens on, the result of a
connection of its own, the answer of a debugger, a context that is freed because reading or writing
failed, and the end of a context that was freed. -/
inductive ForwardOp where
  | frame (command : UInt16) (payload : Bytes) (id : UInt32) (outcome : Outcome)
  | accept (listen : Nat) (failed : Bool) (id : UInt32) (accepted : Bool)
  | connected (number : Nat) (status : Int) (outcome : Outcome)
  | idle (number : Nat) (outcome : Outcome)
  | free (number : Nat) (bNotifyRemote : Bool)
  | release (number : Nat)

namespace ForwardTask

def step (build : Build) (task : ForwardTask) : ForwardOp → ForwardTask
  | .frame command payload id outcome =>
    (task.commandDispatch build command payload id outcome).2
  | .accept listen failed id accepted => task.listenCallback listen failed id accepted
  | .connected number status outcome => (task.setupPointContinue number status outcome).2
  | .idle number outcome => task.setupJdwpPointCallBack number outcome
  | .free number bNotifyRemote => task.freeContext number bNotifyRemote
  | .release number => task.freeContextCallBack number

end ForwardTask

end Hdc.Forward
