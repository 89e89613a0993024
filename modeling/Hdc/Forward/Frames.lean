import Hdc.FileDescriptor
import Hdc.Forward.Context
import Hdc.Transfer.Data
import Hdc.Transfer.Path

/-!
The nodes of a forward, and the frames that begin it (`forward.cpp`).

A command names two nodes. The master sets up the first one and sends the second one to the slave,
which checks it as well and answers.

* `grammar_iff`: when the nodes that are accepted are those of the grammar;
* `all_or_nothing_iff`: what `BeginForward` leaves behind;
* `honest_iff`: when the result of a request is that of the slave's check;
* `nothing_lost_iff`: when no data is lost silently.
-/

namespace Hdc.Forward.Frames

open Base List

def bufSizeSmall : Nat := 256
def maxIpPort : Int := 65535

/-! ### Nodes -/

/-- What stands before the first colon, and behind it. -/
def halves (node : Bytes) : Bytes × Bytes :=
  (node.takeWhile (· ≠ 58), (node.dropWhile (· ≠ 58)).tail)

/-- `CheckNodeInfo`, on either side. -/
def checkNodeInfo (nodeInfo : Bytes) : Option (Bytes × Bytes) :=
  let (type, config) := halves nodeInfo
  if type = [] ∨ config = [] then none
  else if type = str "tcp" ∧ (5 < config.length ∨ atoi config ≤ 0 ∨ maxIpPort < atoi config) then none
  else some (type, config)

/-- The port of `SetupTCPPoint`, in the 16 bits of an address. -/
def setupTCPPoint (config : Bytes) : Nat := (atoi config % 2 ^ 16).toNat

/-- Digits, and a port. -/
def IsPort (text : Bytes) : Prop :=
  isDigitString text = true ∧ 1 ≤ leadingNat text ∧ leadingNat text ≤ 65535

/-- A `tcp` node is accepted if there is a port behind the colon, and this one is used; of any other
node that is accepted, neither half is empty. -/
def Grammar (node : Bytes) : Prop :=
  if (halves node).1 = str "tcp" then
    ((checkNodeInfo node).isSome = true ↔ IsPort (halves node).2) ∧
      ((checkNodeInfo node).isSome = true → setupTCPPoint (halves node).2 = leadingNat (halves node).2)
  else
    ∀ args, checkNodeInfo node = some args → args = halves node ∧ args.1 ≠ [] ∧ args.2 ≠ []

/-- A text of up to five bytes that is read as a port has nothing but digits, and a longer one is
no port with zeros in front. -/
def Plain (config : Bytes) : Prop :=
  if config.length ≤ 5 then 0 < atoi config → atoi config ≤ maxIpPort → isDigitString config = true
  else ¬ IsPort config

theorem atoi_digits {text : Bytes} (digits : isDigitString text = true) (short : text.length ≤ 5) :
    atoi text = leadingNat text := by
  have bound := (leadingNat_lt text).trans_le (Nat.pow_le_pow_right (by decide) short)
  rw [atoi, strtol_of_digits fun byte mem => by simpa [UInt8.le_iff_toNat_le] using all_eq_true.mp digits byte mem]
  exact Int.bmod_eq_of_le (by omega) (by omega)

/-- What is accepted behind `tcp:`. -/
theorem tcp_accepted_iff {node : Bytes} (tcp : (halves node).1 = str "tcp") :
    (checkNodeInfo node).isSome = true ↔ (halves node).2.length ≤ 5 ∧ 0 < atoi (halves node).2 ∧
      atoi (halves node).2 ≤ maxIpPort := by
  by_cases empty : (halves node).2 = []
  · simp [checkNodeInfo, empty, show atoi [] = 0 from rfl]
  · simp [checkNodeInfo, empty, tcp, show str "tcp" ≠ [] from by decide, apply_ite Option.isSome]

theorem grammar_node_iff (node : Bytes) :
    Grammar node ↔ ((halves node).1 = str "tcp" → Plain (halves node).2) := by
  unfold Grammar
  split
  case isTrue tcp =>
    rw [tcp_accepted_iff tcp, Plain, maxIpPort, setupTCPPoint]
    generalize (halves node).2 = config
    by_cases digits : isDigitString config = true ∧ config.length ≤ 5
    · have read := atoi_digits digits.1 digits.2
      refine iff_of_true ⟨?_, fun _ => by omega⟩ fun _ => by simp [digits]
      simp only [IsPort, digits, true_and]
      omega
    · by_cases short : config.length ≤ 5
      · have refused : ¬ IsPort config := fun port => digits ⟨port.1, short⟩
        simp [refused, short, tcp, not_and.mp (mt And.symm digits) short]
        omega
      · simp [short, tcp]
  case isFalse other =>
    refine iff_of_true (fun args accepted => ?_) fun tcp => absurd tcp other
    simp only [checkNodeInfo] at accepted
    split_ifs at accepted with empty
    cases accepted
    exact ⟨rfl, not_or.mp empty⟩

/-- The grammar is kept exactly if no `tcp` node has signs, blanks or letters around a number, or
zeros that make it too long. -/
theorem grammar_iff (first second : Bytes) :
    Grammar first ∧ Grammar second ↔ ((halves first).1 = str "tcp" → Plain (halves first).2) ∧
      ((halves second).1 = str "tcp" → Plain (halves second).2) := by
  rw [grammar_node_iff, grammar_node_iff]

/-- A sign and a letter are accepted. -/
theorem signed_port_accepted : (checkNodeInfo (str "tcp:+80a")).isSome = true ∧
    ¬ IsPort (halves (str "tcp:+80a")).2 :=
  ⟨by decide, fun port => absurd port.1 (by decide)⟩

/-- `DetechForwardType`. -/
def detechForwardType (type config : Bytes) : Option ForwardType :=
  let path (type : ForwardType) := if Transfer.checkPathTraversal config then some type else none
  if type = str "tcp" then some .tcp
  else if type = str "dev" then path .device
  else if type = str "localabstract" then some .abstract
  else if type = str "localreserved" then path .reserved
  else if type = str "localfilesystem" then path .filesystem
  else if type = str "jdwp" then some .jdwp
  else if type = str "ark" then some .ark
  else none

/-- The type of a node that is accepted, and what stands behind it. -/
def endPoint (node : Bytes) : Option (ForwardType × Bytes) :=
  (checkNodeInfo node).bind fun (type, config) => (detechForwardType type config).map (·, config)

/-! ### The command -/

/-- What `BeginForward` is told: whether there is memory, whether the first node can be set up, and
whether frames can be sent. -/
structure BeginAnswer where
  created : Bool
  works : Bool
  sends : Bool

/-- The contexts that were made and not released, and the checks that were sent. -/
structure Master where
  contexts : List UInt32
  checks : List (UInt32 × Bytes)

/-- The two nodes of a command, if they pass. -/
def nodes (command : Bytes) : Option (Bytes × Bytes) :=
  match splitCommandToArgs command with
  | some (first :: second :: _) =>
    if first.length ≤ bufSizeSmall ∧ second.length ≤ bufSizeSmall ∧ (checkNodeInfo first).isSome ∧
        (checkNodeInfo second).isSome then some (first, second)
    else none
  | _ => none

/-- `SetupPoint` of the master; `ark` is no type to listen on. -/
def setupPoint (node : Bytes) (works : Bool) : Bool :=
  match endPoint node with
  | none | some (.ark, _) => false
  | some _ => works

/-- The payload of a check: the parameter, and the node with its NUL. -/
def checkFrame (node : Bytes) : Bytes := replicate forwardParameterBufSize 0 ++ node ++ [0]

/-- `BeginForward`. A node that `snprintf_s` would have to cut is not sent. -/
def beginForward (master : Master) (command : Bytes) (id : UInt32) (answer : BeginAnswer) :
    Bool × Master :=
  if answer.created = false then (false, master)
  else
    let master := { master with contexts := master.contexts ++ [id] }
    match nodes command with
    | none => (false, master)
    | some (first, second) =>
      if setupPoint first answer.works then
        if second.length < bufSizeSmall - forwardParameterBufSize ∧ answer.sends = true then
          (true, { master with checks := master.checks ++ [(id, checkFrame second)] })
        else (true, master)
      else (false, master)

/-- The whole second node was sent, or there is nothing left of the attempt. -/
def AllOrNothing (master : Master) (command : Bytes) (id : UInt32) (answer : BeginAnswer) : Prop :=
  let (ret, after) := beginForward master command id answer
  if ret then
    ∃ first second rest, splitCommandToArgs command = some (first :: second :: rest) ∧
      after.checks = master.checks ++ [(id, checkFrame second)]
  else after = master

theorem splitCommandToArgs_of_nodes {command first second : Bytes}
    (both : nodes command = some (first, second)) :
    ∃ rest, splitCommandToArgs command = some (first :: second :: rest) := by
  unfold nodes at both
  split at both
  next one two rest split =>
    split_ifs at both
    cases both
    exact ⟨rest, split⟩
  next => cases both

/-- A context that was made stays if the command is refused, and a node that is too long is not
sent though the command succeeds. -/
theorem all_or_nothing_iff (master : Master) (command : Bytes) (id : UInt32) (answer : BeginAnswer) :
    AllOrNothing master command id answer ↔ answer.created = false ∨
      ∃ first second, nodes command = some (first, second) ∧
        setupPoint first answer.works = true ∧
        second.length < bufSizeSmall - forwardParameterBufSize ∧ answer.sends = true := by
  have kept : { master with contexts := master.contexts ++ [id] } ≠ master := fun same =>
    by simpa using congrArg (·.contexts.length) same
  by_cases missing : answer.created = false
  · simp [AllOrNothing, beginForward, missing]
  cases both : nodes command with
  | none => simp [AllOrNothing, beginForward, missing, both, kept]
  | some found =>
    obtain ⟨first, second⟩ := found
    obtain ⟨rest, split⟩ := splitCommandToArgs_of_nodes both
    by_cases works : setupPoint first answer.works = true
    · by_cases sent : second.length < bufSizeSmall - forwardParameterBufSize ∧ answer.sends = true
      · simp [AllOrNothing, beginForward, missing, both, works, sent, split]
      · simp [AllOrNothing, beginForward, missing, both, works, sent]
    · simp [AllOrNothing, beginForward, missing, both, works, kept]

/-- A refused command leaves its context behind. -/
theorem refused_context_stays : ¬ AllOrNothing ⟨[], []⟩ (str "tcp:1") 7 ⟨true, true, true⟩ := by
  intro whole
  have same : (⟨[7], []⟩ : Master) = ⟨[], []⟩ := whole
  cases same

/-! ### The check -/

/-- What the slave is told: whether there is memory for a context, whether the process of an `ark`
node is there and can be asked, and whether frames of the task and messages can be sent. -/
structure SlaveAnswer where
  created : Bool
  pidExists : Bool
  asked : Bool
  sends : Bool
  logs : Bool

/-- The frames that answer a check. `log` is the `CMD_KERNEL_ECHO` of `LogMsg(MSG_FAIL, ...)` for
the channel of the request. -/
inductive SlaveFrame where
  | checkResult (flag : UInt8)
  | freeContext
  | log (msg : Bytes)
deriving DecidableEq

/-- `SetupPointContinue` of a check. The context is finished with it, so that the `FreeContext` of
`SlaveConnect` sends no more. -/
def setupPointContinue (status : Int) : SlaveFrame := .checkResult (if 0 < status then 1 else 0)

/-- `SetupArkPoint`: the result, the frame that was sent with it or from `SetupJdwpPointCallBack`,
and `lastError`. The host has none of its own. -/
def setupArkPoint (build : Session.Build) (svr : Bytes) (answer : SlaveAnswer) :
    Bool × Option SlaveFrame × Bytes :=
  if build = .host then (false, none, [])
  else if 64 ∉ svr then
    (false, some (setupPointContinue 1), str "ark:" ++ svr ++ str " parameter invalid")
  else if answer.pidExists = false then
    (false, some (setupPointContinue 0), str "ark:" ++ svr ++ str " pid invalid")
  else if answer.asked then (true, some (setupPointContinue 1), [])
  else (false, none, [])

/-- `SlaveConnect` of a check: the result, the frame of the task and the error. -/
def slaveConnect (build : Session.Build) (node : Bytes) (answer : SlaveAnswer) :
    Bool × Option SlaveFrame × Bytes :=
  if answer.created = false then (false, none, [])
  else
    match endPoint node with
    | none => (false, some .freeContext, [])
    | some (.ark, svr) =>
      let (ret, frame, sError) := setupArkPoint build svr answer
      (ret, some (frame.getD .freeContext), sError)
    | some _ => (true, some (setupPointContinue 0), [])

/-- `CommandDispatch` of a check: the frames that come to the master's side. -/
def commandDispatch (build : Session.Build) (node : Bytes) (answer : SlaveAnswer) :
    List SlaveFrame :=
  let (ret, frame, sError) := slaveConnect build node answer
  let msg := if sError = [] then str "Forward parament failed" else sError
  (if answer.sends then frame.toList else []) ++ if !ret && answer.logs then [.log msg] else []

/-- The node is accepted, and the process of an `ark` node can be asked. -/
def Passes (build : Session.Build) (node : Bytes) (answer : SlaveAnswer) : Prop :=
  answer.created = true ∧
    ∃ type config, endPoint node = some (type, config) ∧ (type = .ark → build = .daemon ∧
      64 ∈ config ∧ answer.pidExists = true ∧ answer.asked = true)

/-- What becomes of the request: the results that are logged for it, the rules that the master
registers, and whether the master frees the context. -/
structure Request where
  logged : List Bool
  registered : List Bytes
  freed : Bool

/-- `ForwardCommandDispatch`. `CommandForwardCheckResult` looks at the pointer to the flag, which
is never null. -/
def dispatch (rule : Bytes) (request : Request) : SlaveFrame → Request
  | .checkResult _ =>
    { request with logged := request.logged ++ [true], registered := request.registered ++ [rule] }
  | .freeContext => { request with freed := true }
  | .log _ => { request with logged := request.logged ++ [false] }

/-- The result of the request is that of the slave's check. -/
def Honest (build : Session.Build) (rule node : Bytes) (answer : SlaveAnswer) : Prop :=
  let request := (commandDispatch build node answer).foldl (dispatch rule) ⟨[], [], false⟩
  (Passes build node answer → request = ⟨[true], [rule], false⟩) ∧
    (¬ Passes build node answer → request = ⟨[false], [], true⟩)

/-- The slave of an `ark` node answers with a check result before it looks at the process. -/
def Named (build : Session.Build) (node : Bytes) (answer : SlaveAnswer) : Prop :=
  ∀ svr, endPoint node = some (.ark, svr) → build = .daemon → 64 ∈ svr ∧ answer.pidExists = true

theorem passes_iff {build : Session.Build} {node : Bytes} {answer : SlaveAnswer} :
    Passes build node answer ↔ (slaveConnect build node answer).1 = true := by
  unfold Passes slaveConnect
  split
  case isTrue none => simp [none]
  case isFalse created =>
    rw [Bool.not_eq_false] at created
    cases found : endPoint node with
    | none => simp
    | some point =>
      obtain ⟨type, config⟩ := point
      cases type <;> simp [created, setupArkPoint, setupPointContinue]
      cases build <;> grind

/-- With a context, a check passes with a result, fails with one, or frees the context. -/
theorem slaveConnect_cases (build : Session.Build) (node : Bytes) {answer : SlaveAnswer}
    (created : answer.created = true) :
    ∃ flag sError,
      (slaveConnect build node answer = (true, some (.checkResult flag), sError) ∧
        Named build node answer) ∨
      (slaveConnect build node answer = (false, some (.checkResult flag), sError) ∧
        ¬ Named build node answer) ∨
      (slaveConnect build node answer = (false, some .freeContext, sError) ∧
        Named build node answer) := by
  simp only [slaveConnect, Named, created, Bool.true_eq_false, if_false]
  cases endPoint node with
  | none => simp
  | some point =>
    obtain ⟨type, svr⟩ := point
    cases type
    case ark =>
      cases build
      case host => simp [setupArkPoint]
      case daemon =>
        by_cases named : 64 ∈ svr <;> cases exists_ : answer.pidExists <;>
          cases asked : answer.asked <;>
          simp [setupArkPoint, setupPointContinue, named, exists_, asked]
    all_goals simp [setupPointContinue]

/-- A check is reported as it is exactly if its frames can be sent, and a failure is not one that
the slave of an `ark` node answers with a result. -/
theorem honest_iff (build : Session.Build) (rule node : Bytes) (answer : SlaveAnswer) :
    Honest build rule node answer ↔
      answer.created = true ∧ answer.sends = true ∧
        (¬ Passes build node answer → answer.logs = true) ∧ Named build node answer := by
  simp only [Honest, passes_iff, commandDispatch]
  cases created : answer.created with
  | false => cases answer.logs <;> simp [slaveConnect, created, dispatch]
  | true =>
    obtain ⟨flag, sError, ⟨frame, named⟩ | ⟨frame, named⟩ | ⟨frame, named⟩⟩ :=
      slaveConnect_cases build node created <;> rw [frame]
    · cases answer.sends <;> simp [named, dispatch]
    · cases answer.sends <;> cases answer.logs <;> simp [named, dispatch]
    · cases answer.sends <;> cases answer.logs <;> simp [named, dispatch]

/-- The process is not there, and the master logs that all is well. -/
theorem absent_process_passes :
    ¬ Honest .daemon (str "1|tcp:1 ark:1@1@D") (str "ark:1@1@D") ⟨true, false, false, true, true⟩ ∧
      commandDispatch .daemon (str "ark:1@1@D") ⟨true, false, false, true, true⟩ =
        [.checkResult 0, .log (str "ark:1@1@D pid invalid")] := by
  refine ⟨fun honest => ?_, by decide⟩
  cases honest.2 (mt passes_iff.mp (by decide))

/-! ### Data -/

open Transfer.Data (maxUsbffsBulk)
open FileDescriptor (ioThreadReadMax)

def bufMultiple : Nat := 2

/-- `AllocForwardBuf`: the room for a read. -/
def allocForwardBuf (sizeSuggested : Nat) : Nat := min sizeSuggested maxUsbffsBulk - 1

/-- What is read from a device, or from a stream for which libuv suggests a size. -/
structure Data (device : Bool) where
  sizeSuggested : Nat
  bytes : Bytes
  fits : bytes.length ≤ if device then ioThreadReadMax else allocForwardBuf sizeSuggested

/-- A read fails, or brings data, which `SendToAnother` sends or not. -/
inductive ReadEvent (device : Bool) where
  | failed
  | data (data : Data device) (sends : Bool)

/-- A data frame comes, with what the allocation and the write return, or the oldest write ends. -/
inductive WriteEvent where
  | frame (payload : Bytes) (allocated : Bool) (nRet : Int)
  | written (status : Int)

/-- What a context took, passed on and has queued, and whether it is freed. -/
structure Flow where
  taken : List Bytes := []
  passed : List Bytes := []
  queued : List Bytes := []
  freed : Bool := false

/-- Nothing of what was taken is lost, or the context is freed. -/
def Whole (flow : Flow) : Prop := flow.freed = true ∨ flow.taken = flow.passed ++ flow.queued

def dataFrame (id : UInt32) (bytes : Bytes) : Bytes :=
  Endian.toBE dwordSerializeSize id.toNat ++ bytes

/-- `SendToTask`: the frame that goes to the session. -/
def sendToTask (id : UInt32) (bytes : Bytes) (sends : Bool) : Option Bytes :=
  if maxSizeIobufStable * bufMultiple < bytes.length ∨ sends = false then none
  else some (dataFrame id bytes)

/-- `ReadForwardBuf`, which does not look at what `SendToTask` returns, and for a device
`ReadData`, which does. -/
def readForwardBuf (device : Bool) (id : UInt32) (flow : Flow) (event : ReadEvent device) : Flow :=
  if flow.freed then flow
  else
    match event with
    | .failed => { flow with freed := true }
    | .data data sends =>
      if data.bytes = [] then { flow with freed := device }
      else
        { flow with
          taken := flow.taken ++ [dataFrame id data.bytes]
          queued := flow.queued ++ (sendToTask id data.bytes sends).toList
          freed := device && (sendToTask id data.bytes sends).isNone }

/-- `SendForwardBuf` of a frame, and `SendCallbackForwardBuf`. For a device `CtxFileIOWrite` drops
what it cannot write. -/
def sendForwardBuf (device : Bool) (flow : Flow) : WriteEvent → Flow
  | .frame payload allocated nRet =>
    let content := payload.drop dwordSerializeSize
    if content = [] ∨ flow.freed then flow
    else if content.length > hdcBufMaxBytes - 1 ∨ allocated = false ∨ nRet < 0 then
      { flow with freed := true }
    else { flow with taken := flow.taken ++ [content], queued := flow.queued ++ [content] }
  | .written status =>
    match flow.queued with
    | [] => flow
    | content :: queued =>
      if status < 0 then { flow with queued := queued, freed := flow.freed || !device }
      else { flow with queued := queued, passed := flow.passed ++ [content] }

/-- The data is small enough and can be sent. -/
def Sendable (device : Bool) (flow : Flow) : ReadEvent device → Prop
  | .failed => True
  | .data data sends => device = true ∨ flow.freed = true ∨ data.bytes = [] ∨
      data.bytes.length ≤ maxSizeIobufStable * bufMultiple ∧ sends = true

/-- A device takes what is written to it. -/
def Writable (device : Bool) (flow : Flow) : WriteEvent → Prop
  | .frame .. => True
  | .written status => device = false ∨ flow.freed = true ∨ flow.queued = [] ∨ 0 ≤ status

section

variable {device : Bool} {flow : Flow} (whole : Whole flow)
include whole

theorem whole_readForwardBuf_iff (id : UInt32) (event : ReadEvent device) :
    Whole (readForwardBuf device id flow event) ↔ Sendable device flow event := by
  by_cases freed : flow.freed = true
  · cases event <;> simp [readForwardBuf, freed, Whole, Sendable]
  have same := whole.resolve_left freed
  cases event with
  | failed => simp [readForwardBuf, freed, Whole, Sendable]
  | data data sends =>
    by_cases empty : data.bytes = []
    · simp [readForwardBuf, freed, empty, Whole, Sendable, same]
    · rw [Sendable, ← Nat.not_lt, ← Bool.not_eq_false sends, ← not_or]
      by_cases unsent : maxSizeIobufStable * bufMultiple < data.bytes.length ∨ sends = false <;>
        cases device <;> simp [readForwardBuf, sendToTask, freed, empty, unsent, Whole, same]

theorem whole_sendForwardBuf_iff (event : WriteEvent) :
    Whole (sendForwardBuf device flow event) ↔ Writable device flow event := by
  cases event with
  | frame payload allocated nRet =>
    refine iff_of_true ?_ trivial
    simp only [sendForwardBuf]
    split_ifs with idle
    · exact whole
    · exact .inl rfl
    · have same := whole.resolve_left (not_or.mp idle).2
      exact .inr (by simp [same])
  | written status =>
    cases queue : flow.queued with
    | nil => simpa [sendForwardBuf, queue, Writable] using whole
    | cons content queued =>
      simp only [sendForwardBuf, queue, Writable]
      rw [Whole, queue] at whole
      split_ifs with failed
      · cases device <;> rcases whole with freed | same <;> simp [Whole, *]
      · simpa [Whole, Int.not_lt.mp failed] using whole

end

/-- Data is lost silently by reads that are too large or not sent, and by writes that fail at a
device, and by nothing else. -/
theorem nothing_lost_iff (device peer : Bool) (id : UInt32) (reads : List (ReadEvent device))
    (writes : List WriteEvent) :
    ((∀ k, Whole ((reads.take k).foldl (readForwardBuf device id) {})) ∧
        ∀ k, Whole ((writes.take k).foldl (sendForwardBuf peer) {})) ↔
      ExactRuns.AllFine (readForwardBuf device id) (Sendable device) {} reads ∧
        ExactRuns.AllFine (sendForwardBuf peer) (Writable peer) {} writes := by
  apply and_congr
  · apply ExactRuns.holds_iff Whole (.inr rfl)
    · exact fun whole fine => (whole_readForwardBuf_iff whole id _).mpr fine
    · exact fun whole bad => mt (whole_readForwardBuf_iff whole id _).mp bad
    · exact fun whole => whole
  · apply ExactRuns.holds_iff Whole (.inr rfl)
    · exact fun whole fine => (whole_sendForwardBuf_iff whole _).mpr fine
    · exact fun whole bad => mt (whole_sendForwardBuf_iff whole _).mp bad
    · exact fun whole => whole

/-- Three bytes in a buffer of the size that libuv suggests. -/
def smallRead : Data false where
  sizeSuggested := 65536
  bytes := [1, 2, 3]
  fits := by decide

/-- A read for which `SendToAnother` has no room is gone, and the context stays. -/
theorem unsent_read_lost :
    ¬ Whole ([ReadEvent.data smallRead false].foldl (readForwardBuf false 7) {}) := by
  rw [foldl_cons, foldl_nil, whole_readForwardBuf_iff (.inr rfl)]
  simp [Sendable, smallRead]

end Hdc.Forward.Frames
