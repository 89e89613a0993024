import Hdc.Lib.ExactRuns

/-!
Forward contexts of the Rust implementation (`common/forward.rs`).

One map serves all sessions. An id is the clock of the moment, or what the peer names. Frames and
connections are served by tasks that run side by side: a task takes a copy of an entry out of the
map and puts it back later, whatever became of the entry meanwhile. `slave_connect` stores its
context under the clock first and under the peer's id then, and nothing removes the first entry;
after `ForwardCheck`, and where its setup fails, it stores the context that it has just freed.

* `separate_run`: for any tasks in any order, ids are distinct, frames stay in their session and
  freed contexts are gone, as long as new ids are unused, frames name contexts of their session, and
  what is freed has one entry and is in no other hands.
-/

namespace Hdc.Rust.Contexts

/-- `ContextForward`, and which context it is a copy of. -/
structure ContextForward where
  context : Nat
  sessionId : UInt32
  id : UInt32
deriving DecidableEq

/-! ### What the functions do with the map -/

/-- One lock of the map by a task that works on a copy of a context. -/
inductive Op
  /-- `malloc_context`. -/
  | malloc (clock : UInt32)
  /-- `slave_connect` gives its context the peer's id and stores it. -/
  | rename (id : UInt32)
  | update
  /-- The lookup of the copy. A task that finds none ends. -/
  | get (cid : UInt32)
  /-- The lookup of `free_context`, and the removal of what it found. -/
  | find (cid : UInt32)
  | remove (cid : UInt32)
  /-- `setup_tcp_point` spawns `daemon_connect_tcp`. -/
  | spawn (cid : UInt32) (connected checkOrder : Bool)
deriving DecidableEq

/-- The operations that store the copy of the task. -/
def Op.stores : Op → Bool
  | .rename _ | .update => true
  | _ => false

def freeContext (cid : UInt32) : List Op := [.find cid, .remove cid]

/-- The frame of `send_active_master` is short, so `send_to_task` never refuses it. -/
def sendActiveMaster (checkOrder : Bool) (cid : UInt32) : List Op :=
  if checkOrder then freeContext cid else []

def onAccept (cid : UInt32) : List Op := [.get cid]

/-- One connection in the loop of `forward_tcp_accept`. -/
def forwardTcpAccept (clock : UInt32) : List Op := .malloc clock :: .update :: onAccept clock

/-- `daemon_connect_tcp`, by the answer of `connect` and the `check_order` of the copy. -/
def daemonConnectTcp (cid : UInt32) (connected checkOrder : Bool) : List Op :=
  .get cid :: if connected then sendActiveMaster checkOrder cid ++ [.update] else freeContext cid

/-- `forward_type`, and whether the point of that type can be set up. -/
inductive Setup
  | unknown
  | tcp (ready connected checkOrder : Bool)
  | device (ready : Bool)
  | jdwp (ready : Bool)
  | file (ready : Bool)
deriving DecidableEq

/-- `setup_point` and what it returns. -/
def setupPoint (isMaster : Bool) (cid : UInt32) : Setup → List Op × Bool
  | .unknown => ([], false)
  | .tcp ready connected checkOrder =>
    -- a master only listens
    ((if ready && !isMaster then [.update, .spawn cid connected checkOrder] else []) ++ [.update],
      ready)
  | .device ready => ((if ready then [.update] else []) ++ [.update], ready)
  | .jdwp ready => ([.update], ready)
  | .file ready =>
    if isMaster then ([.update, .update], ready)
    -- `daemon_connect_pipe` frees the context of a connection that fails, but nobody is told
    else (.update :: (if ready then [] else freeContext cid) ++ [.update], true)

/-- `begin_forward`, by the answer of `forward_parse_cmd`. -/
def beginForward (clock : UInt32) (parsed : Bool) (setup : Setup) : List Op :=
  .malloc clock :: if parsed then (setupPoint true clock setup).1 else []

/-- `slave_connect`: what `filter_command` says, with the answer of `check_node_info`. -/
def slaveConnect (clock : UInt32) (content : Option (UInt32 × Bool)) (checkOrder : Bool)
    (setup : Setup) : List Op :=
  let finish (id : UInt32) : List Op :=
    if checkOrder then sendActiveMaster true id ++ [.update]
    else
      let (ops, ready) := setupPoint false id setup
      ops ++ (if ready then [] else freeContext id) ++ [.update]
  .malloc clock :: match content with
    -- without arguments `detech_forward_type` panics
    | none => if checkOrder then finish clock else []
    | some (_, false) => []
    | some (id, true) => .rename id :: finish id

/-- The frames of `forward_command_dispatch`. `read_data_to_forward` goes to `setup_device_point`
where the copy is of a device. A `ForwardCheckResult` is never empty: it holds the id. -/
inductive Command
  | checkResult
  | data
  | freeContext
  | activeMaster (device checkOrder : Bool)
deriving DecidableEq

/-- `forward_command_dispatch`. The id of the copy is the one it was found under. -/
def forwardCommandDispatch (cid : UInt32) (command : Command) : List Op :=
  .get cid :: match command with
    | .checkResult | .data => []
    | .freeContext => freeContext cid
    | .activeMaster device checkOrder =>
      if device then sendActiveMaster checkOrder cid ++ [.update] else []

/-- What a task is started for. -/
inductive Job
  | accept (clock : UInt32)
  | acceptPipe (cid : UInt32)
  | beginForward (clock : UInt32) (parsed : Bool) (setup : Setup)
  | slaveConnect (clock : UInt32) (content : Option (UInt32 × Bool)) (checkOrder : Bool)
    (setup : Setup)
  | frame (cid : UInt32) (command : Command)
  /-- `recv_tcp_msg`, and the readers of pipes and devices, at the end of their stream. -/
  | readerEnds (cid : UInt32)
deriving DecidableEq

def Job.ops : Job → List Op
  | .accept clock => forwardTcpAccept clock
  | .acceptPipe cid => onAccept cid
  | .beginForward clock parsed setup => Contexts.beginForward clock parsed setup
  | .slaveConnect clock content checkOrder setup => Contexts.slaveConnect clock content checkOrder setup
  | .frame cid command => forwardCommandDispatch cid command
  | .readerEnds cid => freeContext cid

/-! ### Tasks side by side -/

/-- A task of a session: its copy, what `free_context` found, and what it still does. -/
structure Task where
  sessionId : UInt32
  copy : Option ContextForward := none
  found : Option ContextForward := none
  rest : List Op
deriving DecidableEq

/-- The task has a copy of the context that it will put into the map. -/
def Task.holds (task : Task) (context : Nat) : Bool :=
  task.copy.any (·.context = context) && task.rest.any Op.stores

structure State where
  /-- `ForwardContextMap`; each entry is stored under its own id. -/
  map : List ContextForward := []
  tasks : List Task := []
  /-- The contexts that are in use, as they were stored last, and those that were freed. -/
  live : List ContextForward := []
  freed : List Nat := []
  next : Nat := 0
  /-- A task read or changed an entry of another session. -/
  strayed : Bool := false
deriving DecidableEq

/-- The id leads to an entry of another session. -/
def State.foreign (s : State) (sessionId cid : UInt32) : Bool :=
  s.map.any fun entry => entry.id = cid && entry.sessionId ≠ sessionId

/-- A task of a session uses the entry under an id. -/
def State.visit (s : State) (sessionId cid : UInt32) : State :=
  { s with strayed := s.strayed || s.foreign sessionId cid }

/-- `ForwardContextMap::get`. -/
def State.get (s : State) (cid : UInt32) : Option ContextForward :=
  s.map.find? (·.id = cid)

/-- `ForwardContextMap::update`. -/
def State.update (s : State) (sessionId : UInt32) (ctx : ContextForward) : State :=
  { s.visit sessionId ctx.id with
    map := ctx :: s.map.filter (·.id ≠ ctx.id)
    live := ctx :: s.live.filter (·.context ≠ ctx.context) }

/-- `ForwardContextMap::remove`, by a task that frees a context. -/
def State.remove (s : State) (sessionId cid : UInt32) (ctx : ContextForward) : State :=
  { s.visit sessionId cid with
    map := s.map.filter (·.id ≠ cid)
    live := s.live.filter (·.context ≠ ctx.context)
    freed := ctx.context :: s.freed }

def State.exec (s : State) (task : Task) : Op → State × Task
  | .malloc clock =>
    let ctx := ⟨s.next, task.sessionId, clock⟩
    ({ s.update task.sessionId ctx with next := s.next + 1 }, { task with copy := some ctx })
  | .rename id =>
    match task.copy with
    | none => (s, task)
    | some ctx =>
      (s.update task.sessionId { ctx with id }, { task with copy := some { ctx with id } })
  | .update =>
    match task.copy with
    | none => (s, task)
    | some ctx => (s.update task.sessionId ctx, task)
  | .get cid =>
    match s.get cid with
    | none => (s, { task with rest := [] })
    | some ctx => (s.visit task.sessionId cid, { task with copy := some ctx })
  | .find cid => (s.visit task.sessionId cid, { task with found := s.get cid })
  | .remove cid =>
    match task.found with
    | none => (s, task)
    | some ctx => (s.remove task.sessionId cid ctx, task)
  | .spawn cid connected checkOrder =>
    ({ s with tasks := s.tasks ++
        [{ sessionId := task.sessionId, rest := daemonConnectTcp cid connected checkOrder }] }, task)

inductive Event
  | start (sessionId : UInt32) (job : Job)
  /-- The next operation of a task. -/
  | step (i : Nat)
deriving DecidableEq

def State.step (s : State) : Event → State
  | .start sessionId job => { s with tasks := s.tasks ++ [{ sessionId, rest := job.ops }] }
  | .step i =>
    match s.tasks[i]? with
    | some { sessionId, copy, found, rest := op :: rest } =>
      let (after, task) := s.exec { sessionId, copy, found, rest } op
      { after with tasks := after.tasks.set i task }
    | _ => s

/-- Contexts in use have ids of their own, tasks keep to their session, and what was freed is gone. -/
structure Separate (s : State) : Prop where
  own : s.strayed = false
  distinct : ∀ a ∈ s.live, ∀ b ∈ s.live, a.context ≠ b.context → a.id ≠ b.id
  gone : ∀ entry ∈ s.map, entry.context ∉ s.freed

/-! ### Clocks, peer ids and frees -/

/-- The id leads to no other session, and no other context in use has it. -/
def State.Unused (s : State) (sessionId : UInt32) (context : Nat) (id : UInt32) : Prop :=
  s.foreign sessionId id = false ∧ ∀ other ∈ s.live, other.context ≠ context → other.id ≠ id

/-- What keeps the contexts apart. Putting a copy back asks for nothing. -/
def State.Fits (s : State) (i : Nat) (task : Task) : Op → Prop
  | .malloc clock => s.Unused task.sessionId s.next clock
  | .rename id => ∀ ctx ∈ task.copy, s.Unused task.sessionId ctx.context id ∧
      ∀ other ∈ s.tasks.eraseIdx i, other.holds ctx.context = false
  | .get cid => s.foreign task.sessionId cid = false ∧
      -- what is put back later was found under the id that it has
      (task.rest.any Op.stores → ∀ entry ∈ s.map, entry.id = cid → entry ∈ s.live)
  | .find cid => s.foreign task.sessionId cid = false
  | .remove cid => s.foreign task.sessionId cid = false ∧ ∀ ctx ∈ task.found,
      (∀ entry ∈ s.map, entry.context = ctx.context → entry.id = cid) ∧
      ∀ other ∈ s.tasks, other.holds ctx.context = false
  | .update | .spawn .. => True

instance (s : State) (i : Nat) (task : Task) (op : Op) : Decidable (s.Fits i task op) := by
  unfold State.Fits State.Unused
  cases op <;> infer_instance

def Fine (s : State) : Event → Prop
  | .start .. => True
  | .step i => ∀ task ∈ s.tasks[i]?, ∀ op ∈ task.rest.head?,
      s.Fits i { task with rest := task.rest.tail } op

instance (s : State) (event : Event) : Decidable (Fine s event) := by
  unfold Fine
  cases event <;> infer_instance

/-! ### The invariant -/

/-- The map and the contexts in use. An entry under the id of a context in use is that context. -/
structure Sound (s : State) : Prop where
  own : s.strayed = false
  single : ∀ a ∈ s.live, ∀ b ∈ s.live, a.context = b.context → a = b
  distinct : ∀ a ∈ s.live, ∀ b ∈ s.live, a.id = b.id → a = b
  named : ∀ a ∈ s.live, ∀ entry ∈ s.map, entry.id = a.id → entry = a
  gone : ∀ entry ∈ s.map, entry.context ∉ s.freed
  alive : ∀ a ∈ s.live, a.context ∉ s.freed
  numbered : (∀ a ∈ s.live, a.context < s.next) ∧ (∀ entry ∈ s.map, entry.context < s.next) ∧
    ∀ context ∈ s.freed, context < s.next

/-- What a task will put back is in use, as the task has it. -/
structure Task.Sound (live : List ContextForward) (next : Nat) (task : Task) : Prop where
  copy : ∀ ctx ∈ task.copy, task.rest.any Op.stores → ctx ∈ live ∧ ctx.sessionId = task.sessionId
  found : ∀ ctx ∈ task.found, ctx.context < next

structure Inv (s : State) : Prop where
  sound : Sound s
  tasks : ∀ task ∈ s.tasks, task.Sound s.live s.next

variable {s : State} {task : Task}

theorem Inv.separate (inv : Inv s) : Separate s where
  own := inv.sound.own
  distinct a memA b memB apart same := apart (by rw [inv.sound.distinct a memA b memB same])
  gone := inv.sound.gone

theorem State.visit_of_home {sessionId cid : UInt32} (home : s.foreign sessionId cid = false) :
    s.visit sessionId cid = s := by
  rw [State.visit, home, Bool.or_false]

theorem State.session_of_home {sessionId cid : UInt32} (home : s.foreign sessionId cid = false)
    {entry : ContextForward} (mem : entry ∈ s.map) (named : entry.id = cid) :
    entry.sessionId = sessionId := by
  have all : ∀ entry ∈ s.map, entry.id = cid → entry.sessionId = sessionId := by
    simpa [State.foreign] using home
  exact all entry mem named

theorem Sound.update (sound : Sound s) {sessionId : UInt32} {ctx : ContextForward}
    (unused : s.Unused sessionId ctx.context ctx.id) (alive : ctx.context ∉ s.freed)
    (number : ctx.context < s.next) : Sound (s.update sessionId ctx) := by
  obtain ⟨home, unused⟩ := unused
  have other : ∀ a ∈ s.live.filter (·.context ≠ ctx.context),
      a ∈ s.live ∧ a.context ≠ ctx.context ∧ a.id ≠ ctx.id := fun a mem => by
    obtain ⟨old, apart⟩ := List.mem_filter.mp mem
    exact ⟨old, by simpa using apart, unused a old (by simpa using apart)⟩
  have entries : ∀ entry ∈ s.map.filter (·.id ≠ ctx.id), entry ∈ s.map ∧ entry.id ≠ ctx.id :=
    fun entry mem => by simpa using mem
  refine ⟨by simp [State.update, State.visit, sound.own, home], ?_, ?_, ?_, ?_, ?_, ?_, ?_, ?_⟩
  · rintro a (_ | ⟨_, memA⟩) b (_ | ⟨_, memB⟩) same
    · rfl
    · exact absurd same.symm (other b memB).2.1
    · exact absurd same (other a memA).2.1
    · exact sound.single a (other a memA).1 b (other b memB).1 same
  · rintro a (_ | ⟨_, memA⟩) b (_ | ⟨_, memB⟩) same
    · rfl
    · exact absurd same.symm (other b memB).2.2
    · exact absurd same (other a memA).2.2
    · exact sound.distinct a (other a memA).1 b (other b memB).1 same
  · rintro a (_ | ⟨_, memA⟩) entry (_ | ⟨_, memE⟩) same
    · rfl
    · exact absurd same (entries entry memE).2
    · exact absurd same.symm (other a memA).2.2
    · exact sound.named a (other a memA).1 entry (entries entry memE).1 same
  · rintro entry (_ | ⟨_, mem⟩)
    · exact alive
    · exact sound.gone entry (entries entry mem).1
  · rintro a (_ | ⟨_, mem⟩)
    · exact alive
    · exact sound.alive a (other a mem).1
  · rintro a (_ | ⟨_, mem⟩)
    · exact number
    · exact sound.numbered.1 a (other a mem).1
  · rintro entry (_ | ⟨_, mem⟩)
    · exact number
    · exact sound.numbered.2.1 entry (entries entry mem).1
  · exact sound.numbered.2.2

theorem Sound.remove (sound : Sound s) {sessionId cid : UInt32} {ctx : ContextForward}
    (home : s.foreign sessionId cid = false)
    (one : ∀ entry ∈ s.map, entry.context = ctx.context → entry.id = cid)
    (number : ctx.context < s.next) : Sound (s.remove sessionId cid ctx) := by
  have rest : ∀ a ∈ s.live.filter (·.context ≠ ctx.context),
      a ∈ s.live ∧ a.context ≠ ctx.context := fun a mem => by simpa using mem
  have entries : ∀ entry ∈ s.map.filter (·.id ≠ cid), entry ∈ s.map ∧ entry.id ≠ cid :=
    fun entry mem => by simpa using mem
  refine ⟨by simp [State.remove, State.visit, sound.own, home],
    fun a memA b memB => sound.single a (rest a memA).1 b (rest b memB).1,
    fun a memA b memB => sound.distinct a (rest a memA).1 b (rest b memB).1,
    fun a memA entry memE => sound.named a (rest a memA).1 entry (entries entry memE).1,
    fun entry mem => ?_, fun a mem => ?_, fun a mem => sound.numbered.1 a (rest a mem).1,
    fun entry mem => sound.numbered.2.1 entry (entries entry mem).1, ?_⟩
  · obtain ⟨old, elsewhere⟩ := entries entry mem
    have apart : entry.context ≠ ctx.context := fun same => elsewhere (one entry old same)
    simpa [State.remove, apart] using sound.gone entry old
  · obtain ⟨old, apart⟩ := rest a mem
    simpa [State.remove, apart] using sound.alive a old
  · rintro context (_ | ⟨_, mem⟩)
    · exact number
    · exact sound.numbered.2.2 context mem

/-- The id of a context in use is its own. -/
theorem Sound.unused (sound : Sound s) {ctx : ContextForward} (mem : ctx ∈ s.live) :
    s.Unused ctx.sessionId ctx.context ctx.id := by
  constructor
  · have own : ∀ entry ∈ s.map, entry.id = ctx.id → entry.sessionId = ctx.sessionId :=
      fun entry memE same => by rw [sound.named ctx mem entry memE same]
    simpa [State.foreign] using own
  · intro other memO apart same
    exact apart (by rw [sound.distinct other memO ctx mem same])

/-- A task that holds the context has it. -/
theorem Task.holds_eq_false {context : Nat} (free : task.holds context = false)
    {ctx : ContextForward} (mem : ctx ∈ task.copy) (stores : task.rest.any Op.stores) :
    ctx.context ≠ context := by
  rintro rfl
  simp [Task.holds, Option.mem_def.mp mem, stores] at free

/-- A context is stored that other tasks do not hold, or hold as it is. -/
theorem Task.Sound.update {live : List ContextForward} {next : Nat} (sound : task.Sound live next)
    {ctx : ContextForward}
    (same : ∀ theirs ∈ task.copy, task.rest.any Op.stores → theirs.context = ctx.context →
      theirs = ctx) : task.Sound (ctx :: live.filter (·.context ≠ ctx.context)) next := by
  refine ⟨fun theirs mem stores => ?_, sound.found⟩
  obtain ⟨inUse, session⟩ := sound.copy theirs mem stores
  refine ⟨?_, session⟩
  by_cases this : theirs.context = ctx.context
  · exact same theirs mem stores this ▸ List.mem_cons_self
  · exact List.mem_cons_of_mem _ (List.mem_filter.mpr ⟨inUse, by simpa using this⟩)

/-- A context is freed that the task does not hold. -/
theorem Task.Sound.remove {live : List ContextForward} {next context : Nat}
    (sound : task.Sound live next) (free : task.holds context = false) :
    task.Sound (live.filter (·.context ≠ context)) next := by
  refine ⟨fun ctx mem stores => ?_, sound.found⟩
  obtain ⟨inUse, session⟩ := sound.copy ctx mem stores
  have apart := Task.holds_eq_false free mem stores
  exact ⟨List.mem_filter.mpr ⟨inUse, by simpa using apart⟩, session⟩

/-- The task at a place has changed, and the others may go on. -/
theorem Inv.set {after : State} (sound : Sound after) {i : Nat} {new : Task}
    (changed : new.Sound after.live after.next)
    (others : ∀ other ∈ after.tasks.eraseIdx i, other.Sound after.live after.next) :
    Inv { after with tasks := after.tasks.set i new } := by
  refine ⟨{ sound with }, fun task mem => ?_⟩
  obtain ⟨j, here⟩ := List.mem_iff_getElem?.mp mem
  rw [List.getElem?_set] at here
  by_cases same : i = j
  · by_cases inside : j < after.tasks.length
    · obtain rfl : new = task := by simpa [same, inside] using here
      exact changed
    · simp [same, inside] at here
  · rw [if_neg same] at here
    exact others task (List.mem_eraseIdx_iff_getElem?.mpr ⟨j, Ne.symm same, here⟩)

/-- A task has stored its copy. -/
theorem Inv.update (sound : Sound s) {i : Nat} {ctx : ContextForward}
    (unused : s.Unused ctx.sessionId ctx.context ctx.id) (alive : ctx.context ∉ s.freed)
    (number : ctx.context < s.next) {found : Option ContextForward} {rest : List Op}
    (before : ∀ other ∈ found, other.context < s.next)
    (others : ∀ other ∈ s.tasks.eraseIdx i, other.Sound s.live s.next ∧ ∀ theirs ∈ other.copy,
      other.rest.any Op.stores → theirs.context = ctx.context → theirs = ctx) :
    Inv { s.update ctx.sessionId ctx with
      tasks := s.tasks.set i ⟨ctx.sessionId, some ctx, found, rest⟩ } := by
  refine Inv.set (sound.update unused alive number) ⟨?_, before⟩ fun other mem =>
    (others other mem).1.update (others other mem).2
  rintro _ ⟨⟩ _
  exact ⟨List.mem_cons_self, rfl⟩

/-- The next operation of a task keeps the invariant. -/
theorem Inv.exec (inv : Inv s) {i : Nat} {op : Op} {sessionId : UInt32}
    {copy found : Option ContextForward} {rest : List Op}
    (here : s.tasks[i]? = some ⟨sessionId, copy, found, op :: rest⟩)
    (fits : s.Fits i ⟨sessionId, copy, found, rest⟩ op) {after : State} {new : Task}
    (done : s.exec ⟨sessionId, copy, found, rest⟩ op = (after, new)) :
    Inv { after with tasks := after.tasks.set i new } := by
  obtain ⟨sound, tasks⟩ := inv
  obtain ⟨held, before⟩ := tasks _ (List.mem_of_getElem? here)
  have others : ∀ other ∈ s.tasks.eraseIdx i, other.Sound s.live s.next := fun other mem =>
    tasks other (List.mem_of_mem_eraseIdx mem)
  cases op with
  | malloc clock =>
    cases done
    have later : Sound { s with next := s.next + 1 } :=
      { sound with
        numbered := ⟨fun a mem => Nat.lt_succ_of_lt (sound.numbered.1 a mem),
          fun entry mem => Nat.lt_succ_of_lt (sound.numbered.2.1 entry mem),
          fun context mem => Nat.lt_succ_of_lt (sound.numbered.2.2 context mem)⟩ }
    refine @Inv.update _ later i ⟨s.next, sessionId, clock⟩ fits
      (fun freed => Nat.lt_irrefl _ (sound.numbered.2.2 _ freed)) (Nat.lt_succ_self _) found rest
      (fun other mem => Nat.lt_succ_of_lt (before other mem)) fun other mem => ?_
    obtain ⟨copy, found⟩ := others other mem
    refine ⟨⟨copy, fun ctx mem => Nat.lt_succ_of_lt (found ctx mem)⟩, fun ctx mem stores same => ?_⟩
    exact absurd same (Nat.ne_of_lt (sound.numbered.1 ctx (copy ctx mem stores).1))
  | rename id =>
    cases copy with
    | none =>
      cases done
      exact Inv.set sound ⟨by simp, before⟩ others
    | some ctx =>
      cases done
      obtain ⟨inUse, rfl⟩ := held ctx rfl rfl
      obtain ⟨unused, free⟩ := fits ctx rfl
      refine @Inv.update _ sound i { ctx with id } unused (sound.alive ctx inUse)
        (sound.numbered.1 ctx inUse) _ _ before fun other mem => ⟨others other mem, ?_⟩
      intro theirs mem' stores same
      exact absurd same (Task.holds_eq_false (free other mem) mem' stores)
  | update =>
    cases copy with
    | none =>
      cases done
      exact Inv.set sound ⟨by simp, before⟩ others
    | some ctx =>
      cases done
      obtain ⟨inUse, rfl⟩ := held ctx rfl rfl
      refine Inv.update sound (sound.unused inUse) (sound.alive ctx inUse)
        (sound.numbered.1 ctx inUse) before fun other mem => ⟨others other mem, ?_⟩
      intro theirs mem' stores same
      exact sound.single theirs ((others other mem).copy theirs mem' stores).1 ctx inUse same
  | get cid =>
    obtain ⟨home, inUse⟩ := fits
    rw [State.exec, State.visit_of_home home] at done
    cases entry : s.get cid with
    | none =>
      rw [entry] at done
      cases done
      exact Inv.set sound ⟨by simp, before⟩ others
    | some ctx =>
      rw [entry] at done
      cases done
      have mem := List.mem_of_find?_eq_some entry
      have named : ctx.id = cid := by simpa using List.find?_some entry
      refine Inv.set sound ⟨?_, before⟩ others
      rintro _ ⟨⟩ stores
      exact ⟨inUse stores ctx mem named, State.session_of_home home mem named⟩
  | find cid =>
    rw [State.exec, State.visit_of_home fits] at done
    cases done
    refine Inv.set sound ⟨held, fun ctx entry => ?_⟩ others
    exact sound.numbered.2.1 ctx (List.mem_of_find?_eq_some entry)
  | remove cid =>
    cases found with
    | none =>
      cases done
      exact Inv.set sound ⟨held, before⟩ others
    | some ctx =>
      cases done
      obtain ⟨home, one⟩ := fits
      obtain ⟨one, free⟩ := one ctx rfl
      have own := free _ (List.mem_of_getElem? here)
      refine Inv.set (sound.remove home one (before ctx rfl)) ?_ fun other mem =>
        (others other mem).remove (free other (List.mem_of_mem_eraseIdx mem))
      exact Task.Sound.remove ⟨held, before⟩ own
  | spawn cid connected checkOrder =>
    cases done
    have same : Sound { s with tasks := s.tasks ++
        [{ sessionId, rest := daemonConnectTcp cid connected checkOrder }] } := { sound with }
    refine Inv.set same ⟨held, before⟩ fun other mem => ?_
    rcases List.mem_append.mp (List.mem_of_mem_eraseIdx mem) with old | new
    · exact tasks other old
    · cases List.mem_singleton.mp new
      exact ⟨by simp, by simp⟩

theorem Inv.step (inv : Inv s) {event : Event} (fine : Fine s event) : Inv (s.step event) := by
  cases event with
  | start sessionId job =>
    refine ⟨{ inv.sound with }, fun task mem => ?_⟩
    rcases List.mem_append.mp mem with old | new
    · exact inv.tasks task old
    · cases List.mem_singleton.mp new
      exact ⟨by simp, by simp⟩
  | step i =>
    cases here : s.tasks[i]? with
    | none => simpa [State.step, here] using inv
    | some task =>
      obtain ⟨sessionId, copy, found, rest⟩ := task
      cases rest with
      | nil => simpa [State.step, here] using inv
      | cons op rest =>
        simp only [State.step, here]
        exact inv.exec here (fine _ here op rfl) rfl

/-- Contexts stay apart in every state of every run of any tasks, whatever the order of their
operations, as long as new ids are unused, frames name contexts of their session, and what is freed
has one entry and is in no other hands. -/
theorem separate_run (events : List Event) (fine : ExactRuns.AllFine State.step Fine {} events) :
    ∀ k, Separate ((events.take k).foldl State.step {}) := by
  intro k
  have initial : Inv {} := ⟨⟨rfl, by simp, by simp, by simp, by simp, by simp, by simp⟩, by simp⟩
  have run : Inv ((events.take k).foldl State.step {}) :=
    ExactRuns.inv_run Inv initial (fun inv fine => inv.step fine) fun j _ op here => fine j op here
  exact run.separate

/-- Two sessions at once: an accepted connection, and a slave whose peer names the clock's id. -/
def sideBySide : List Event :=
  [.start 1 (.accept 5), .start 2 (.slaveConnect 9 (some (9, true)) false (.tcp true true false)),
    .step 0, .step 1, .step 1, .step 0, .step 1, .step 1, .step 2, .step 0, .step 1, .step 1, .step 2,
    .start 2 (.frame 9 .data), .step 3, .start 1 (.readerEnds 5), .step 4, .step 4,
    .start 2 (.frame 9 .freeContext), .step 5, .step 5, .step 5]

theorem separate_run_two_sessions :
    (∀ k, Separate ((sideBySide.take k).foldl State.step {})) ∧
      (sideBySide.foldl State.step {}).freed = [1, 0] := by
  refine ⟨separate_run sideBySide ?_, by decide⟩
  unfold sideBySide
  iterate 22 refine ExactRuns.AllFine.cons (by decide) ?_
  exact ExactRuns.allFine_nil

/-- The first entry of a slave stays behind when the peer frees its context, a context that was only
checked is put back, a frame frees the context of another session, and two contexts made in one
millisecond share their id. -/
theorem entry_left_behind :
    let freed := [.start 1 (.slaveConnect 100 (some (7, true)) false (.tcp true true false)),
      .step 0, .step 0, .step 0, .step 0, .step 0, .step 0, .step 1, .step 1,
      .start 1 (.frame 7 .freeContext), .step 2, .step 2, .step 2].foldl State.step {}
    let checked := [.start 1 (.slaveConnect 100 (some (7, true)) true .unknown),
      .step 0, .step 0, .step 0, .step 0, .step 0].foldl State.step {}
    let crossed := [.start 1 (.accept 5), .step 0, .start 2 (.frame 5 .freeContext),
      .step 1, .step 1, .step 1].foldl State.step {}
    let twice := [.start 1 (.accept 5), .start 2 (.accept 5), .step 0, .step 1].foldl State.step {}
    (freed.freed = [0] ∧ freed.map = [⟨0, 1, 100⟩]) ∧
      (checked.freed = [0] ∧ checked.map = [⟨0, 1, 7⟩, ⟨0, 1, 100⟩]) ∧
      (crossed.strayed = true ∧ crossed.freed = [0]) ∧
      twice.live = [⟨1, 2, 5⟩, ⟨0, 1, 5⟩] := by
  decide

end Hdc.Rust.Contexts
