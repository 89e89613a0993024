import Hdc.Base
import Hdc.Lib.ExactRuns
import Hdc.Lib.Words

/-!
The processes that can be debugged (`jdwp.cpp`).

A process connects to the daemon and sends its pid. `mapCtxJdwp` leads from a pid to the context of
the connection, `pollNodeMap` from the descriptor of the connection to the pid. Whatever is read on
a connection is taken as a pid once more: the context gets the new pid and another entry, and keeps
the old one. When a context is freed, the entry under its last pid is erased, whoever's it is by
then. A map with 1024 entries takes no more, the list of descriptors does.

* `Kept`: both maps hold the registered contexts and nothing else;
* `registrations_sound`: along every run in which processes keep to one pid of their own;
* `covered_iff`: the thread that polls the descriptors polls none.
-/

namespace Hdc.Daemon.Jdwp

open List

open Base (atoi)

/-- `ContextJdwp`, numbered as it is made; `fd` is the descriptor of its pipe. -/
structure ContextJdwp where
  number : Nat
  fd : Nat
  pid : UInt32
  finish : Bool
  pkgName : Bytes
  isDebug : UInt8
deriving DecidableEq, Repr

structure PollNode where
  fd : Nat
  ppid : UInt32
deriving DecidableEq, Repr

/-- The contexts in memory and the two maps. -/
structure HdcJdwp where
  contexts : List ContextJdwp
  mapCtxJdwp : Std.TreeMap UInt32 Nat
  pollNodeMap : List PollNode
  refCount : Nat
  next : Nat

/-- What `uv_read_start` hands to `ReadStream`. -/
inductive ReadResult where
  | error
  | data (bytes : Bytes)
deriving DecidableEq, Repr

def jsPkgMinSize : Nat := 7
def jsPkgMaxSize : Nat := 512

/-- `sizeof(JsMsgHeader)`. -/
def jsMsgHeaderSize : Nat := 12

def maxMapSize : Nat := 1024

/-- `sizeof(ctxJdwp->buf)`, with and without `JS_JDWP_CONNECT`. -/
def bufSize (js : Bool) : Nat := if js then jsPkgMaxSize + jsMsgHeaderSize else 4

/-- The length test of `ReadStream`. -/
def validLength (js : Bool) (nread : Nat) : Bool :=
  if js then jsPkgMinSize + jsMsgHeaderSize ≤ nread && nread ≤ jsPkgMaxSize + jsMsgHeaderSize
  else nread = 4

/-- The pid in what was read, 0 if it is none, with the name of the package and the flag. -/
def readPid (js : Bool) (bytes : Bytes) : Int × Option (Bytes × UInt8) :=
  if bytes.length = 4 then (atoi (bytes.take (min 4 (bufSize js - 1))), none)
  else if js && Endian.ofLE (bytes.take 4) = bytes.length then
    ((BitVec.ofNat 32 (Endian.ofLE ((bytes.drop 4).take 4))).toInt,
      some (bytes.drop jsMsgHeaderSize, (bytes.drop 8).headD 0))
  else (0, none)

namespace HdcJdwp

def start : HdcJdwp := ⟨[], ∅, [], 0, 0⟩

def context (jdwp : HdcJdwp) (number : Nat) : Option ContextJdwp :=
  jdwp.contexts.find? (·.number = number)

def change (jdwp : HdcJdwp) (number : Nat) (f : ContextJdwp → ContextJdwp) : HdcJdwp :=
  { jdwp with contexts := jdwp.contexts.map fun ctx => if ctx.number = number then f ctx else ctx }

/-- `RemoveFdFromPollList`: the first node for the pid. The map is unordered; `pick` says which
one comes first. -/
def removeFdFromPollList (jdwp : HdcJdwp) (pid : UInt32) (pick : Nat) : HdcJdwp :=
  let nodes := jdwp.pollNodeMap.filter (·.ppid = pid)
  match nodes[pick % nodes.length]? with
  | none => jdwp
  | some node => { jdwp with pollNodeMap := jdwp.pollNodeMap.filter (·.fd ≠ node.fd) }

/-- `AdminContext(OP_ADD, …)`. -/
def adminAdd (jdwp : HdcJdwp) (pid : UInt32) (number : Nat) : HdcJdwp :=
  if jdwp.mapCtxJdwp.size < maxMapSize then
    { jdwp with mapCtxJdwp := jdwp.mapCtxJdwp.insert pid number }
  else jdwp

/-- `AdminContext(OP_REMOVE, …)`. -/
def adminRemove (jdwp : HdcJdwp) (pid : UInt32) (pick : Nat) : HdcJdwp :=
  { jdwp with mapCtxJdwp := jdwp.mapCtxJdwp.erase pid }.removeFdFromPollList pid pick

/-- `FreeContext`, up to the idle task that closes the pipe. -/
def freeContext (jdwp : HdcJdwp) (number : Nat) (pick : Nat) : HdcJdwp :=
  match jdwp.context number with
  | none => jdwp
  | some ctx =>
    if ctx.finish then jdwp
    else (jdwp.change number fun ctx => { ctx with finish := true }).adminRemove ctx.pid pick

/-- The idle task of `FreeContext`. -/
def closeContext (jdwp : HdcJdwp) (number : Nat) : HdcJdwp :=
  match jdwp.context number with
  | none => jdwp
  | some ctx =>
    if ctx.finish then
      { jdwp with
        contexts := jdwp.contexts.filter (·.number ≠ number)
        refCount := jdwp.refCount - 1 }
    else jdwp

/-- `MallocContext`. -/
def mallocContext (jdwp : HdcJdwp) (fd : Nat) : HdcJdwp :=
  { jdwp with
    contexts := jdwp.contexts ++ [⟨jdwp.next, fd, 0, false, [], 0⟩]
    refCount := jdwp.refCount + 1
    next := jdwp.next + 1 }

/-- `AcceptClient`. The system gives out no descriptor that is in use. -/
def acceptClient (jdwp : HdcJdwp) (fd : Nat) (memory accepted : Bool) (pick : Nat) : HdcJdwp :=
  if !memory || jdwp.contexts.any (·.fd = fd) then jdwp
  else if accepted then jdwp.mallocContext fd
  else (jdwp.mallocContext fd).freeContext jdwp.next pick

/-- `pollNodeMap.emplace`. -/
def emplace (jdwp : HdcJdwp) (fd : Nat) (pid : UInt32) : HdcJdwp :=
  if jdwp.pollNodeMap.any (·.fd = fd) then jdwp
  else { jdwp with pollNodeMap := jdwp.pollNodeMap ++ [⟨fd, pid⟩] }

def setPackage (jdwp : HdcJdwp) (number : Nat) : Option (Bytes × UInt8) → HdcJdwp
  | none => jdwp
  | some (pkgName, isDebug) =>
    jdwp.change number fun ctx => { ctx with pkgName := pkgName, isDebug := isDebug }

/-- What `ReadStream` does with a pid that is one. -/
def register (jdwp : HdcJdwp) (ctx : ContextJdwp) (pid : UInt32) (fileno : Bool) : HdcJdwp :=
  let jdwp := jdwp.change ctx.number fun ctx => { ctx with pid := pid }
  let jdwp := jdwp.adminAdd pid ctx.number
  if fileno then jdwp.emplace ctx.fd pid else jdwp

/-- `ReadStream`; `fileno` is whether the descriptor can be asked for. -/
def readStream (js : Bool) (jdwp : HdcJdwp) (number : Nat) (result : ReadResult) (fileno : Bool)
    (pick : Nat) : HdcJdwp :=
  match jdwp.context number with
  | none => jdwp
  | some ctx =>
    match result with
    | .error => jdwp.freeContext number pick
    | .data bytes =>
      if bytes = [] then jdwp
      else if !validLength js bytes.length then jdwp.freeContext number pick
      else
        let (pid, package) := readPid js bytes
        let jdwp := jdwp.setPackage number package
        if pid ≤ 0 then jdwp.freeContext number pick
        else jdwp.register ctx (UInt32.ofNat pid.toNat) fileno

end HdcJdwp

/-- A connection, something to read on one, and the idle task of a context that was freed. -/
inductive JdwpOp where
  | accept (fd : Nat) (memory accepted : Bool) (pick : Nat)
  | read (number : Nat) (result : ReadResult) (fileno : Bool) (pick : Nat)
  | close (number : Nat)

namespace HdcJdwp

def step (js : Bool) (jdwp : HdcJdwp) : JdwpOp → HdcJdwp
  | .accept fd memory accepted pick => jdwp.acceptClient fd memory accepted pick
  | .read number result fileno pick => jdwp.readStream js number result fileno pick
  | .close number => jdwp.closeContext number

/-- Entries lead to contexts that are not finished and have the pid, freeing a context takes the
entries that lead to it and no other, and the descriptors are those of the entries. -/
structure Sound (jdwp : HdcJdwp) : Prop where
  entries : ∀ (pid : UInt32) (number : Nat), jdwp.mapCtxJdwp[pid]? = some number →
    ∃ ctx ∈ jdwp.contexts, ctx.number = number ∧ ctx.finish = false ∧ ctx.pid = pid
  freed : ∀ ctx ∈ jdwp.contexts, ctx.finish = false → ∀ (pick : Nat) (pid : UInt32),
    (jdwp.freeContext ctx.number pick).mapCtxJdwp[pid]? =
      if jdwp.mapCtxJdwp[pid]? = some ctx.number then none else jdwp.mapCtxJdwp[pid]?
  polled : ∀ pid : UInt32, (∃ node ∈ jdwp.pollNodeMap, node.ppid = pid) ↔
    jdwp.mapCtxJdwp[pid]?.isSome = true

/-- On every connection one pid is sent, possibly again, and none after an error; no two connections
that are open send the same one; there is room for another entry, and the descriptor is known. -/
def Fine (js : Bool) (jdwp : HdcJdwp) : JdwpOp → Prop
  | .read number (.data bytes) fileno _ =>
    ∀ ctx, jdwp.context number = some ctx → validLength js bytes.length = true →
      0 < (readPid js bytes).1 →
        let pid := UInt32.ofNat (readPid js bytes).1.toNat
        ctx.finish = false ∧ (ctx.pid = 0 ∨ ctx.pid = pid) ∧
          (∀ other ∈ jdwp.contexts, other.number ≠ number → other.finish = false → other.pid ≠ pid) ∧
          (ctx.pid = 0 → jdwp.mapCtxJdwp.size < maxMapSize ∧ fileno = true)
  | _ => True

end HdcJdwp

/-- The context of a process that can be debugged. -/
def ContextJdwp.Registered (ctx : ContextJdwp) : Prop := ctx.finish = false ∧ ctx.pid ≠ 0

namespace HdcJdwp

/-- Both maps hold the registered contexts and nothing else. -/
structure Kept (jdwp : HdcJdwp) : Prop where
  numbers : (jdwp.contexts.map ContextJdwp.number).Nodup
  bounded : ∀ ctx ∈ jdwp.contexts, ctx.number < jdwp.next
  fds : (jdwp.contexts.map ContextJdwp.fd).Nodup
  entries : ∀ (pid : UInt32) (number : Nat), jdwp.mapCtxJdwp[pid]? = some number ↔
    ∃ ctx ∈ jdwp.contexts, ctx.Registered ∧ ctx.pid = pid ∧ ctx.number = number
  nodes : ∀ node, node ∈ jdwp.pollNodeMap ↔
    ∃ ctx ∈ jdwp.contexts, ctx.Registered ∧ ctx.fd = node.fd ∧ ctx.pid = node.ppid

theorem mem_of_context {jdwp : HdcJdwp} {number : Nat} {ctx : ContextJdwp}
    (here : jdwp.context number = some ctx) : ctx ∈ jdwp.contexts ∧ ctx.number = number :=
  ⟨mem_of_find?_eq_some here, by simpa using find?_some here⟩

/-- Only the maps are touched when an entry is removed. -/
theorem adminRemove_eq (jdwp : HdcJdwp) (pid : UInt32) (pick : Nat) :
    (jdwp.adminRemove pid pick).contexts = jdwp.contexts ∧
    (jdwp.adminRemove pid pick).next = jdwp.next ∧
    (jdwp.adminRemove pid pick).mapCtxJdwp = jdwp.mapCtxJdwp.erase pid := by
  rw [adminRemove, removeFdFromPollList]
  split
  · exact ⟨rfl, rfl, rfl⟩
  · exact ⟨rfl, rfl, rfl⟩

/-- Contexts that differ in the name of the package and the flag only. -/
structure Alike (ctx other : ContextJdwp) : Prop where
  number : ctx.number = other.number
  fd : ctx.fd = other.fd
  pid : ctx.pid = other.pid
  finish : ctx.finish = other.finish

theorem Alike.registered {ctx other : ContextJdwp} (alike : Alike ctx other)
    (registered : other.Registered) : ctx.Registered :=
  ⟨alike.finish.trans registered.1, alike.pid.symm ▸ registered.2⟩

namespace Kept

variable {jdwp : HdcJdwp} {ctx other : ContextJdwp}

theorem start : Kept .start where
  numbers := .nil
  bounded := fun _ mem => nomatch mem
  fds := .nil
  entries := by
    intro pid number
    simp [HdcJdwp.start]
  nodes := by
    simp [HdcJdwp.start]

section

variable (kept : Kept jdwp) (mem : ctx ∈ jdwp.contexts)
include kept mem

theorem eq_of_number (inside : other ∈ jdwp.contexts)
    (same : other.number = ctx.number) : other = ctx :=
  inj_on_of_nodup_map kept.numbers inside mem same

theorem eq_of_fd (inside : other ∈ jdwp.contexts) (same : other.fd = ctx.fd) : other = ctx :=
  inj_on_of_nodup_map kept.fds inside mem same

theorem context_of_mem : jdwp.context ctx.number = some ctx := by
  cases here : jdwp.context ctx.number with
  | none =>
    have := find?_eq_none.mp here ctx mem
    simp at this
  | some other =>
    obtain ⟨inside, same⟩ := mem_of_context here
    rw [kept.eq_of_number mem inside same]

theorem entry (registered : ctx.Registered) : jdwp.mapCtxJdwp[ctx.pid]? = some ctx.number :=
  (kept.entries _ _).mpr ⟨ctx, mem, registered, rfl, rfl⟩

/-- Two contexts that are not finished, one of them registered, have different pids. -/
theorem eq_of_pid (unfinished : ctx.finish = false)
    (inside : other ∈ jdwp.contexts) (registered : other.Registered) (same : other.pid = ctx.pid) :
    other = ctx := by
  have both : ctx.Registered := ⟨unfinished, same ▸ registered.2⟩
  have first := kept.entry inside registered
  rw [same, kept.entry mem both] at first
  exact kept.eq_of_number mem inside (Option.some.inj first).symm

end

theorem sound (kept : Kept jdwp) : Sound jdwp where
  entries := by
    intro pid number here
    obtain ⟨ctx, mem, registered, samePid, sameNumber⟩ := (kept.entries pid number).mp here
    exact ⟨ctx, mem, sameNumber, registered.1, samePid⟩
  freed := by
    intro ctx mem unfinished pick pid
    have erased : (jdwp.freeContext ctx.number pick).mapCtxJdwp = jdwp.mapCtxJdwp.erase ctx.pid := by
      rw [freeContext, kept.context_of_mem mem]
      dsimp only
      rw [if_neg (by simp [unfinished])]
      exact (adminRemove_eq _ ctx.pid _).2.2
    rw [erased, Std.TreeMap.getElem?_erase]
    by_cases same : ctx.pid = pid
    · subst same
      rw [if_pos (by simp)]
      split
      · rfl
      case isFalse notIts =>
        cases here : jdwp.mapCtxJdwp[ctx.pid]? with
        | none => rfl
        | some number =>
          obtain ⟨other, inside, registered, samePid, rfl⟩ := (kept.entries _ number).mp here
          obtain rfl := kept.eq_of_pid mem unfinished inside registered samePid
          exact absurd here notIts
    · rw [if_neg (by simpa using same), if_neg]
      intro here
      obtain ⟨other, inside, -, samePid, sameNumber⟩ := (kept.entries pid _).mp here
      obtain rfl := kept.eq_of_number mem inside sameNumber
      exact same samePid
  polled := by
    intro pid
    constructor
    · rintro ⟨node, mem, rfl⟩
      obtain ⟨ctx, inside, registered, -, samePid⟩ := (kept.nodes node).mp mem
      rw [← samePid, kept.entry inside registered]
      rfl
    · intro isSome
      obtain ⟨number, here⟩ := Option.isSome_iff_exists.mp isSome
      obtain ⟨ctx, inside, registered, samePid, -⟩ := (kept.entries pid number).mp here
      exact ⟨⟨ctx.fd, ctx.pid⟩, (kept.nodes _).mpr ⟨ctx, inside, registered, rfl, rfl⟩, samePid⟩

/-! ### What the operations keep -/

/-- The maps stay right when contexts come, go and change that are not registered, and every one
that is registered has a counterpart. -/
theorem of_registered {after : HdcJdwp} (kept : Kept jdwp)
    (numbers : (after.contexts.map ContextJdwp.number).Nodup)
    (bounded : ∀ ctx ∈ after.contexts, ctx.number < after.next)
    (fds : (after.contexts.map ContextJdwp.fd).Nodup)
    (map : after.mapCtxJdwp = jdwp.mapCtxJdwp) (nodes : after.pollNodeMap = jdwp.pollNodeMap)
    (forth : ∀ ctx ∈ jdwp.contexts, ctx.Registered → ∃ new ∈ after.contexts, Alike new ctx)
    (back : ∀ new ∈ after.contexts, new.Registered → ∃ old ∈ jdwp.contexts, Alike old new) :
    Kept after := by
  -- what is said of a registered context can be said of its counterpart
  have swap : ∀ p : ContextJdwp → Prop, (∀ {ctx other}, Alike ctx other → p other → p ctx) →
      ((∃ ctx ∈ jdwp.contexts, ctx.Registered ∧ p ctx) ↔
        ∃ ctx ∈ after.contexts, ctx.Registered ∧ p ctx) := by
    intro p moves
    constructor
    · rintro ⟨ctx, mem, registered, here⟩
      obtain ⟨new, inside, alike⟩ := forth ctx mem registered
      exact ⟨new, inside, alike.registered registered, moves alike here⟩
    · rintro ⟨new, mem, registered, here⟩
      obtain ⟨old, inside, alike⟩ := back new mem registered
      exact ⟨old, inside, alike.registered registered, moves alike here⟩
  refine ⟨numbers, bounded, fds, fun pid number => ?_, fun node => ?_⟩
  · rw [map, kept.entries]
    exact swap _ fun alike here => ⟨alike.pid.trans here.1, alike.number.trans here.2⟩
  · rw [nodes, kept.nodes]
    exact swap _ fun alike here => ⟨alike.fd.trans here.1, alike.pid.trans here.2⟩

theorem mallocContext (kept : Kept jdwp) {fd : Nat} (unused : ∀ ctx ∈ jdwp.contexts, ctx.fd ≠ fd) :
    Kept (jdwp.mallocContext fd) := by
  apply kept.of_registered
  · rw [HdcJdwp.mallocContext, map_append, map_singleton, ← concat_eq_append]
    apply kept.numbers.concat
    intro inside
    obtain ⟨ctx, mem, same⟩ := mem_map.mp inside
    exact (kept.bounded ctx mem).ne same
  · refine forall_mem_append.mpr ⟨fun ctx old => ?_, forall_mem_singleton.mpr (Nat.lt_succ_self _)⟩
    exact Nat.lt_succ_of_lt (kept.bounded ctx old)
  · rw [HdcJdwp.mallocContext, map_append, map_singleton, ← concat_eq_append]
    apply kept.fds.concat
    intro inside
    obtain ⟨ctx, mem, same⟩ := mem_map.mp inside
    exact unused ctx mem same
  · rfl
  · rfl
  · exact fun ctx mem _ => ⟨ctx, mem_append_left _ mem, rfl, rfl, rfl, rfl⟩
  · intro ctx mem registered
    rcases mem_append.mp mem with old | new
    · exact ⟨ctx, old, rfl, rfl, rfl, rfl⟩
    · obtain rfl := mem_singleton.mp new
      exact absurd rfl registered.2

theorem closeContext (kept : Kept jdwp) (number : Nat) : Kept (jdwp.closeContext number) := by
  rw [HdcJdwp.closeContext]
  split
  · exact kept
  case h_2 ctx here =>
    obtain ⟨mem, isNumber⟩ := mem_of_context here
    split
    case isTrue finished =>
      apply kept.of_registered
      · exact kept.numbers.sublist (filter_sublist.map _)
      · exact fun other inside => kept.bounded other (mem_of_mem_filter inside)
      · exact kept.fds.sublist (filter_sublist.map _)
      · rfl
      · rfl
      · intro other inside registered
        refine ⟨other, mem_filter.mpr ⟨inside, ?_⟩, rfl, rfl, rfl, rfl⟩
        have : other.number ≠ number := by
          intro same
          obtain rfl := kept.eq_of_number mem inside (same.trans isNumber.symm)
          rw [registered.1] at finished
          cases finished
        simpa using this
      · exact fun other inside _ => ⟨other, mem_of_mem_filter inside, rfl, rfl, rfl, rfl⟩
    · exact kept

end Kept

section Change

variable {jdwp : HdcJdwp} {number : Nat} {f : ContextJdwp → ContextJdwp}

theorem Kept.nodup_change {β : Type} {field : ContextJdwp → β}
    (distinct : (jdwp.contexts.map field).Nodup) (same : ∀ ctx, field (f ctx) = field ctx) :
    ((jdwp.change number f).contexts.map field).Nodup := by
  rw [change, map_map]
  convert distinct using 2
  funext ctx
  dsimp only [Function.comp_apply]
  split
  · exact same ctx
  · rfl

theorem mem_change {ctx : ContextJdwp} : ctx ∈ (jdwp.change number f).contexts ↔
    ∃ old ∈ jdwp.contexts, ctx = if old.number = number then f old else old := by
  rw [change, mem_map]
  constructor
  · rintro ⟨old, mem, rfl⟩
    exact ⟨old, mem, rfl⟩
  · rintro ⟨old, mem, rfl⟩
    exact ⟨old, mem, rfl⟩

theorem Kept.bounded_change (kept : Kept jdwp) (same : ∀ ctx, (f ctx).number = ctx.number) :
    ∀ ctx ∈ (jdwp.change number f).contexts, ctx.number < jdwp.next := by
  intro ctx mem
  obtain ⟨old, inside, rfl⟩ := mem_change.mp mem
  split
  · rw [same]
    exact kept.bounded old inside
  · exact kept.bounded old inside

end Change

theorem exists_before {jdwp : HdcJdwp} {number : Nat} {package : Option (Bytes × UInt8)}
    {ctx : ContextJdwp} (mem : ctx ∈ (jdwp.setPackage number package).contexts) :
    ∃ old ∈ jdwp.contexts, Alike old ctx := by
  cases package with
  | none => exact ⟨ctx, mem, rfl, rfl, rfl, rfl⟩
  | some package =>
    obtain ⟨old, inside, rfl⟩ := mem_change.mp mem
    refine ⟨old, inside, ?_⟩
    split
    · exact ⟨rfl, rfl, rfl, rfl⟩
    · exact ⟨rfl, rfl, rfl, rfl⟩

theorem exists_after {jdwp : HdcJdwp} (number : Nat) (package : Option (Bytes × UInt8))
    {ctx : ContextJdwp} (mem : ctx ∈ jdwp.contexts) :
    ∃ new ∈ (jdwp.setPackage number package).contexts, Alike new ctx := by
  cases package with
  | none => exact ⟨ctx, mem, rfl, rfl, rfl, rfl⟩
  | some package =>
    refine ⟨_, mem_change.mpr ⟨ctx, mem, rfl⟩, ?_⟩
    split
    · exact ⟨rfl, rfl, rfl, rfl⟩
    · exact ⟨rfl, rfl, rfl, rfl⟩

namespace Kept

variable {jdwp : HdcJdwp} {ctx : ContextJdwp}

section

variable (kept : Kept jdwp)
include kept

/-- The name of the package and the flag are of no account. -/
theorem setPackage (number : Nat) (package : Option (Bytes × UInt8)) :
    Kept (jdwp.setPackage number package) := by
  cases package with
  | none => exact kept
  | some package =>
    apply kept.of_registered
    · exact nodup_change kept.numbers fun _ => rfl
    · exact kept.bounded_change fun _ => rfl
    · exact nodup_change kept.fds fun _ => rfl
    · rfl
    · rfl
    · exact fun ctx mem _ => exists_after number (some package) mem
    · exact fun new mem _ => exists_before mem

/-- The registered contexts after one is finished are the others. -/
theorem registered_finish (mem : ctx ∈ jdwp.contexts) {other : ContextJdwp} :
    (other ∈ (jdwp.change ctx.number fun ctx => { ctx with finish := true }).contexts ∧
        other.Registered) ↔
      other ∈ jdwp.contexts ∧ other.Registered ∧ other ≠ ctx := by
  constructor
  · rintro ⟨inside, registered⟩
    obtain ⟨_, oldMem, rfl⟩ := mem_change.mp inside
    split at registered
    · exact absurd registered.1 (by simp)
    case isFalse apart =>
      rw [if_neg apart]
      refine ⟨oldMem, registered, ?_⟩
      rintro rfl
      exact apart rfl
  · rintro ⟨inside, registered, apart⟩
    refine ⟨mem_change.mpr ⟨other, inside, (if_neg ?_).symm⟩, registered⟩
    exact fun same => apart (kept.eq_of_number mem inside same)

/-- The node that is taken out with a registered context is its own. -/
theorem mem_adminRemove {base : HdcJdwp} (nodes : base.pollNodeMap = jdwp.pollNodeMap)
    (mem : ctx ∈ jdwp.contexts) (unfinished : ctx.finish = false) (pick : Nat) (node : PollNode) :
    node ∈ (base.adminRemove ctx.pid pick).pollNodeMap ↔
    ∃ other ∈ jdwp.contexts, other.Registered ∧ other ≠ ctx ∧ other.fd = node.fd ∧
    other.pid = node.ppid := by
  rw [adminRemove, removeFdFromPollList]
  rw [nodes]
  split
  case h_1 none =>
    -- no node for the pid, so the context has none
    have empty : jdwp.pollNodeMap.filter (·.ppid = ctx.pid) = [] := by
      by_contra some
      have positive := length_pos_of_ne_nil some
      rw [List.getElem?_eq_none_iff] at none
      exact absurd (Nat.mod_lt _ positive) (Nat.not_lt.mpr none)
    rw [kept.nodes]
    constructor
    · rintro ⟨other, inside, registered, fd, pid⟩
      refine ⟨other, inside, registered, ?_, fd, pid⟩
      rintro rfl
      have its : node ∈ jdwp.pollNodeMap.filter (·.ppid = other.pid) :=
        mem_filter.mpr ⟨(kept.nodes node).mpr ⟨other, inside, registered, fd, pid⟩,
          by simp [pid]⟩
      rw [empty] at its
      cases its
    · rintro ⟨other, inside, registered, -, rest⟩
      exact ⟨other, inside, registered, rest⟩
  case h_2 first here =>
    -- every node for the pid is that of the context
    have own : first.fd = ctx.fd := by
      obtain ⟨listed, samePid⟩ := mem_filter.mp (mem_of_getElem? here)
      obtain ⟨other, inside, registered, fd, pid⟩ := (kept.nodes first).mp listed
      obtain rfl := kept.eq_of_pid mem unfinished inside registered
        (pid.trans (by simpa using samePid))
      exact fd.symm
    rw [mem_filter, kept.nodes, own]
    constructor
    · rintro ⟨⟨other, inside, registered, fd, pid⟩, apart⟩
      refine ⟨other, inside, registered, ?_, fd, pid⟩
      rintro rfl
      simp [fd] at apart
    · rintro ⟨other, inside, registered, apart, fd, pid⟩
      refine ⟨⟨other, inside, registered, fd, pid⟩, ?_⟩
      have : node.fd ≠ ctx.fd := fun same => apart (kept.eq_of_fd mem inside (fd.trans same))
      simpa using this

theorem freeContext (number pick : Nat) : Kept (jdwp.freeContext number pick) := by
  rw [HdcJdwp.freeContext]
  split
  · exact kept
  case h_2 ctx here =>
    obtain ⟨mem, rfl⟩ := mem_of_context here
    split
    · exact kept
    case isFalse finish =>
      have unfinished : ctx.finish = false := by simpa using finish
      obtain ⟨contexts, next, map⟩ := adminRemove_eq
        (jdwp.change ctx.number fun ctx => { ctx with finish := true }) ctx.pid pick
      constructor
      · rw [contexts]
        exact nodup_change kept.numbers fun _ => rfl
      · rw [contexts, next]
        exact kept.bounded_change fun _ => rfl
      · rw [contexts]
        exact nodup_change kept.fds fun _ => rfl
      · intro pid number
        rw [contexts, map, Std.TreeMap.getElem?_erase]
        constructor
        · intro found
          split at found
          · cases found
          case isFalse apart =>
            obtain ⟨other, inside, registered, rfl, rfl⟩ := (kept.entries pid number).mp found
            have others := (kept.registered_finish mem).mpr ⟨inside, registered, by
              rintro rfl
              exact apart (by simp)⟩
            exact ⟨other, others.1, others.2, rfl, rfl⟩
        · rintro ⟨other, inside, registered, rfl, rfl⟩
          obtain ⟨old, isRegistered, apart⟩ := (kept.registered_finish mem).mp ⟨inside, registered⟩
          rw [if_neg]
          · exact kept.entry old isRegistered
          · intro same
            obtain same : ctx.pid = other.pid := by simpa using same
            exact apart (kept.eq_of_pid mem unfinished old isRegistered same.symm)
      · intro node
        rw [contexts]
        have untouched : (jdwp.change ctx.number fun ctx => { ctx with finish := true }).pollNodeMap =
          jdwp.pollNodeMap := rfl
        rw [kept.mem_adminRemove untouched mem unfinished]
        refine exists_congr fun other => ?_
        rw [← and_assoc (a := other ∈ (jdwp.change _ _).contexts), kept.registered_finish mem, and_assoc,
          and_assoc]

/-- A pid that is sent again changes nothing. -/
theorem register_again (mem : ctx ∈ jdwp.contexts) (registered : ctx.Registered)
    (fileno : Bool) : Kept (jdwp.register ctx ctx.pid fileno) := by
  have noChange : (jdwp.change ctx.number fun old => { old with pid := ctx.pid }) = jdwp := by
    rw [change]
    congr 1
    conv_rhs => rw [← map_id jdwp.contexts]
    apply map_congr_left
    intro other inside
    split
    case isTrue same =>
      obtain rfl := kept.eq_of_number mem inside same
      rfl
    case isFalse => rfl
  have nodes : (jdwp.adminAdd ctx.pid ctx.number).pollNodeMap = jdwp.pollNodeMap := by
    rw [adminAdd]
    split
    · rfl
    · rfl
  have listed : (jdwp.adminAdd ctx.pid ctx.number).pollNodeMap.any (·.fd = ctx.fd) = true := by
    rw [nodes, any_eq_true]
    exact ⟨⟨ctx.fd, ctx.pid⟩, (kept.nodes _).mpr ⟨ctx, mem, registered, rfl, rfl⟩, by simp⟩
  have unchanged : jdwp.register ctx ctx.pid fileno = jdwp.adminAdd ctx.pid ctx.number := by
    rw [register, noChange, emplace]
    split
    · rfl
    · rfl
  rw [unchanged, adminAdd]
  split
  · refine { kept with entries := fun pid number => ?_ }
    rw [← kept.entries, Std.TreeMap.getElem?_insert]
    split
    case isTrue same =>
      obtain rfl : ctx.pid = pid := by simpa using same
      rw [kept.entry mem registered]
    case isFalse => rfl
  · exact kept

end

section

variable (kept : Kept jdwp) (mem : ctx ∈ jdwp.contexts) (unfinished : ctx.finish = false)
  (fresh : ctx.pid = 0) {pid : UInt32} (positive : pid ≠ 0)
include kept mem unfinished fresh positive

/-- The registered contexts after one gets its first pid. -/
theorem registered_new (other : ContextJdwp) :
    (other ∈ (jdwp.change ctx.number fun ctx => { ctx with pid := pid }).contexts ∧
        other.Registered) ↔
      (other ∈ jdwp.contexts ∧ other.Registered) ∨ other = { ctx with pid := pid } := by
  constructor
  · rintro ⟨inside, registered⟩
    obtain ⟨_, oldMem, rfl⟩ := mem_change.mp inside
    split at registered
    case isTrue same =>
      rw [if_pos same, kept.eq_of_number mem oldMem same]
      exact .inr rfl
    case isFalse apart =>
      rw [if_neg apart]
      exact .inl ⟨oldMem, registered⟩
  · rintro (⟨inside, registered⟩ | rfl)
    · refine ⟨mem_change.mpr ⟨other, inside, (if_neg ?_).symm⟩, registered⟩
      intro same
      obtain rfl := kept.eq_of_number mem inside same
      exact registered.2 fresh
    · exact ⟨mem_change.mpr ⟨ctx, mem, (if_pos rfl).symm⟩, unfinished, positive⟩

theorem register_new (others : ∀ other ∈ jdwp.contexts, other.number ≠ ctx.number → other.finish = false →
    other.pid ≠ pid) (room : jdwp.mapCtxJdwp.size < maxMapSize) :
    Kept (jdwp.register ctx pid true) := by
  -- no node has the descriptor, since the context is not registered
  have noNode : ¬ jdwp.pollNodeMap.any (·.fd = ctx.fd) = true := by
    rw [any_eq_true]
    rintro ⟨node, listed, same⟩
    obtain ⟨other, inside, registered, fd, -⟩ := (kept.nodes node).mp listed
    obtain rfl := kept.eq_of_fd mem inside (fd.trans (by simpa using same))
    exact registered.2 fresh
  have apart : ∀ other ∈ jdwp.contexts, other.Registered → other.pid ≠ pid := by
    intro other inside registered
    apply others other inside _ registered.1
    intro same
    obtain rfl := kept.eq_of_number mem inside same
    exact registered.2 fresh
  have after : jdwp.register ctx pid true =
      { jdwp.change ctx.number (fun ctx => { ctx with pid := pid }) with
        mapCtxJdwp := jdwp.mapCtxJdwp.insert pid ctx.number
        pollNodeMap := jdwp.pollNodeMap ++ [⟨ctx.fd, pid⟩] } := by
    dsimp only [register, adminAdd, change]
    rw [if_pos room, if_pos rfl, emplace, if_neg noNode]
  have registered : ∀ p : ContextJdwp → Prop,
      (∃ other ∈ (jdwp.change ctx.number fun ctx => { ctx with pid := pid }).contexts,
        other.Registered ∧ p other) ↔
      (∃ other ∈ jdwp.contexts, other.Registered ∧ p other) ∨ p { ctx with pid := pid } := by
    intro p
    simp only [← and_assoc, kept.registered_new mem unfinished fresh positive, or_and_right, exists_or,
      exists_eq_left]
  rw [after]
  refine ⟨nodup_change kept.numbers fun _ => rfl, kept.bounded_change fun _ => rfl,
    nodup_change kept.fds fun _ => rfl, fun wanted number => ?_, fun node => ?_⟩
  · rw [Std.TreeMap.getElem?_insert, registered, ← kept.entries]
    split
    case isTrue same =>
      obtain rfl : pid = wanted := by simpa using same
      have absent : ¬ jdwp.mapCtxJdwp[pid]? = some number := by
        rw [kept.entries]
        rintro ⟨other, inside, isRegistered, same, -⟩
        exact apart other inside isRegistered same
      simp [absent]
    case isFalse different =>
      have different : ¬ pid = wanted := by simpa using different
      simp [different]
  · rw [mem_append, mem_singleton, kept.nodes, registered]
    obtain ⟨fd, ppid⟩ := node
    simp [eq_comm]

end

/-- A pid, with the package it came with, on a connection that has none or the same. -/
theorem register (kept : Kept jdwp) {number : Nat} (here : jdwp.context number = some ctx)
    {pid : UInt32} {fileno : Bool} (positive : pid ≠ 0) (unfinished : ctx.finish = false)
    (samePid : ctx.pid = 0 ∨ ctx.pid = pid)
    (others : ∀ other ∈ jdwp.contexts, other.number ≠ number → other.finish = false →
    other.pid ≠ pid)
    (room : ctx.pid = 0 → jdwp.mapCtxJdwp.size < maxMapSize ∧ fileno = true)
    (package : Option (Bytes × UInt8)) :
    Kept ((jdwp.setPackage number package).register ctx pid fileno) := by
  obtain ⟨mem, rfl⟩ := mem_of_context here
  obtain ⟨new, inside, alike⟩ := exists_after ctx.number package mem
  have after := kept.setPackage ctx.number package
  -- what is registered is read off the number and the descriptor
  have same : (jdwp.setPackage ctx.number package).register ctx pid fileno =
      (jdwp.setPackage ctx.number package).register new pid fileno := by
    rw [HdcJdwp.register, HdcJdwp.register, alike.number, alike.fd]
  rw [same]
  rcases samePid with fresh | rfl
  · obtain ⟨space, rfl⟩ := room fresh
    apply after.register_new inside (alike.finish.trans unfinished) (alike.pid.trans fresh) positive
    · intro other otherMem apart otherUnfinished
      obtain ⟨old, oldMem, oldAlike⟩ := exists_before otherMem
      rw [← oldAlike.pid]
      apply others old oldMem _ (oldAlike.finish.trans otherUnfinished)
      rw [oldAlike.number, ← alike.number]
      exact apart
    · cases package with
      | none => exact space
      | some package => exact space
  · rw [← alike.pid]
    exact after.register_again inside (alike.registered ⟨unfinished, positive⟩) _

end Kept

end HdcJdwp

/-- A pid that was read is below `2 ^ 31`. -/
theorem readPid_lt (js : Bool) (bytes : Bytes) : (readPid js bytes).1 < 2 ^ 31 := by
  rw [readPid]
  split
  · calc atoi (bytes.take (min 4 (bufSize js - 1)))
        < 10 ^ (bytes.take (min 4 (bufSize js - 1))).length := Base.atoi_lt _
      _ ≤ 10 ^ 4 := by
        have short : (bytes.take (min 4 (bufSize js - 1))).length ≤ 4 := by
          rw [length_take]
          omega
        exact_mod_cast Nat.pow_le_pow_right (by decide) short
      _ < 2 ^ 31 := by decide
  · split
    · dsimp only
      have := BitVec.toInt_lt (x := BitVec.ofNat 32 (Endian.ofLE ((bytes.drop 4).take 4)))
      omega
    · dsimp only
      omega

theorem pid_ne_zero {js : Bool} {bytes : Bytes} (positive : 0 < (readPid js bytes).1) :
    UInt32.ofNat (readPid js bytes).1.toNat ≠ 0 := by
  have bound := readPid_lt js bytes
  intro zero
  have value := congrArg UInt32.toNat zero
  have small : (readPid js bytes).1.toNat < UInt32.size := by
    rw [show UInt32.size = 4294967296 from rfl]
    omega
  rw [UInt32.toNat_ofNat_of_lt' small, UInt32.toNat_zero] at value
  omega

namespace HdcJdwp

/-- Fine operations keep both maps right. -/
theorem Kept.step {js : Bool} {jdwp : HdcJdwp} (kept : Kept jdwp) {op : JdwpOp}
    (fine : jdwp.Fine js op) : Kept (jdwp.step js op) := by
  cases op with
  | accept fd memory accepted pick =>
    rw [HdcJdwp.step, acceptClient]
    split
    · exact kept
    case isFalse opens =>
      have unused : ∀ ctx ∈ jdwp.contexts, ctx.fd ≠ fd := by
        intro ctx mem same
        exact opens (by simpa using .inr ⟨ctx, mem, same⟩)
      split
      · exact kept.mallocContext unused
      · exact (kept.mallocContext unused).freeContext _ _
  | read number result fileno pick =>
    rw [HdcJdwp.step, readStream]
    split
    · exact kept
    case h_2 ctx here =>
      cases result with
      | error => exact kept.freeContext _ _
      | data bytes =>
        dsimp only
        split
        · exact kept
        split
        · exact kept.freeContext _ _
        case isFalse valid =>
          split
          · exact (kept.setPackage _ _).freeContext _ _
          case isFalse positive =>
            rw [Int.not_le] at positive
            obtain ⟨unfinished, samePid, others, room⟩ := fine ctx here (by simpa using valid) positive
            exact kept.register here (pid_ne_zero positive) unfinished samePid others room _
  | close number => exact kept.closeContext _

end HdcJdwp

/-- Along every run of connections, packets, errors and idle tasks, with and without
`JS_JDWP_CONNECT`, entries lead to contexts that are in use and have the pid, every context takes its
own entry and no other when it is freed, and the descriptors are those of the entries, as long as
every process sends one pid of its own, there is room for it, and its descriptor is known. -/
theorem registrations_sound (js : Bool) (ops : List JdwpOp)
    (fine : ExactRuns.AllFine (HdcJdwp.step js) (HdcJdwp.Fine js) .start ops) (k : Nat) :
    HdcJdwp.Sound ((ops.take k).foldl (HdcJdwp.step js) .start) :=
  (ExactRuns.inv_run HdcJdwp.Kept HdcJdwp.Kept.start (fun kept fine => kept.step fine)
    fun j _ op here => fine j op here).sound

/-- A process sends 19 bytes: the head with the length and the pid, and the name of the package. -/
def package (pid : UInt8) : ReadResult :=
  .data ([19, 0, 0, 0, pid, 0, 0, 0, 1, 0, 0, 0] ++ List.replicate 7 97)

/-- A process comes, sends its pid twice, and goes. -/
theorem registrations_sound_one :
    let ops := [JdwpOp.accept 5 true true 0, .read 0 (package 7) true 0, .read 0 (package 7) true 0,
      .read 0 .error true 0]
    HdcJdwp.Sound ((ops.take 4).foldl (HdcJdwp.step true) .start) := by
  refine registrations_sound true _ ?_ 4
  intro j op here
  match j, here with
  | 0, rfl => trivial
  | 1, rfl =>
    intro ctx here _ _
    cases here
    decide
  | 2, rfl =>
    intro ctx here _ _
    cases here
    decide
  | 3, rfl => trivial

/-- A process that sends two pids leaves the entry under the first one behind, which leads to a
context that is finished and deleted. Of two processes that send the same pid, the first takes the
entry of the second along; and a pid may have an entry and no descriptor. -/
theorem secondPid_leavesEntry :
    let twice := [JdwpOp.accept 5 true true 0, .read 0 (package 7) true 0,
      .read 0 (package 8) true 0, .read 0 .error true 0, .close 0].foldl (HdcJdwp.step true) .start
    let same := [JdwpOp.accept 5 true true 0, .accept 6 true true 0, .read 0 (package 7) true 0,
      .read 1 (package 7) true 0, .read 0 .error true 0].foldl (HdcJdwp.step true) .start
    let hidden := [JdwpOp.accept 5 true true 0, .read 0 (package 7) false 0].foldl
      (HdcJdwp.step true) .start
    (twice.contexts = [] ∧ twice.mapCtxJdwp.toList = [(7, 0)] ∧ twice.pollNodeMap = [⟨5, 7⟩]) ∧
      ((same.contexts.filter (·.finish = false)).map (fun ctx => (ctx.number, ctx.pid)) = [(1, 7)] ∧
        same.mapCtxJdwp.toList = []) ∧
      hidden.mapCtxJdwp.toList = [(7, 0)] ∧ hidden.pollNodeMap = [] := by
  decide

/-! ### The watcher -/

/-- `GetPollFd`: the vector of the thread, filled anew if its length is not that of the map. -/
def HdcJdwp.getPollFd (jdwp : HdcJdwp) (awakenPollFd : Nat) (pollfds : List Nat) : List Nat :=
  if pollfds.length = jdwp.pollNodeMap.length ∨ jdwp.pollNodeMap = [] then pollfds
  else jdwp.pollNodeMap.map (·.fd) ++ [awakenPollFd]

/-- The `size` of `FdEventPollThread`, which is set before its loop only. -/
def pollSize : Nat := 0

/-- The calls of `poll` while the main thread (`some op`) and the watcher (`none`) take turns: the
daemon that `GetPollFd` saw, and the descriptors. Without any, none has an event. -/
def pollCalls (js : Bool) (awakenPollFd : Nat) :
    HdcJdwp → List Nat → List (Option JdwpOp) → List (HdcJdwp × List Nat)
  | _, _, [] => []
  | jdwp, pollfds, some op :: turns => pollCalls js awakenPollFd (jdwp.step js op) pollfds turns
  | jdwp, pollfds, none :: turns =>
    let pollfds := jdwp.getPollFd awakenPollFd pollfds
    (jdwp, pollfds.take pollSize) :: pollCalls js awakenPollFd jdwp pollfds turns

/-- The wake-up descriptor and those of the map. -/
def Covers (awakenPollFd : Nat) (call : HdcJdwp × List Nat) : Prop :=
  ∀ fd, fd ∈ call.2 ↔ fd = awakenPollFd ∨ ∃ node ∈ call.1.pollNodeMap, node.fd = fd

/-- No call of `poll` covers the wake-up descriptor, so a history is covered if the watcher has no
turn in it. -/
theorem covered_iff (js : Bool) (awakenPollFd : Nat) (jdwp : HdcJdwp) (pollfds : List Nat)
    (turns : List (Option JdwpOp)) :
    (∀ call ∈ pollCalls js awakenPollFd jdwp pollfds turns, Covers awakenPollFd call) ↔
      none ∉ turns := by
  induction turns generalizing jdwp pollfds with
  | nil => simp [pollCalls]
  | cons turn turns ih =>
    cases turn with
    | some op => simpa [pollCalls] using ih (jdwp.step js op) pollfds
    | none =>
      refine iff_of_false (fun covered => ?_) fun absent => absent mem_cons_self
      have awake := (covered _ mem_cons_self awakenPollFd).mpr (.inl rfl)
      exact not_mem_nil awake

/-- A process is registered, and the watcher polls nothing. -/
theorem hangup_unseen :
    let turns := [some (.accept 5 true true 0), some (.read 0 (package 7) true 0), none]
    (pollCalls true 3 .start [] turns).map (fun call => (call.1.pollNodeMap, call.2)) =
      [([⟨5, 7⟩], [])] := by
  decide

end Hdc.Daemon.Jdwp
