import Hdc.Forward.Context
import Hdc.Lib.ExactRuns

/-!
What becomes of the map of a forward task.

Apart from the three places where a context is made, and the one where it is deleted, nothing
touches the map, the ids or the number of contexts (`Tame`). A context that is made keeps the map in
order exactly when its random id, and the id that the peer names for it, are no other context's.
Otherwise the context that had the id cannot be found, and the entry of the new one goes with it.
`refCount` is right whatever the ids are: it counts the contexts, and the requests to a debugger
that are still to be answered.

* `contexts_exact`: both together, along every run.
-/

namespace Hdc.Forward

open List ForwardTask HdcCommand

open Session (Build)

namespace ForwardTask

/-! ### What leaves the map alone -/

/-- The map, the contexts and their ids are the same, and every count that was added is one that
a debugger is being asked for. -/
structure Tame (task after : ForwardTask) : Prop where
  similar : Registry.Similar task.contexts after.contexts
  balance : after.refCount + task.idle.length = task.refCount + after.idle.length
  waiting : task.idle ⊆ after.idle

variable {payload : Bytes}

namespace Tame

variable (task : ForwardTask)

theorem refl : Tame task task := ⟨.refl _, rfl, List.Subset.refl _⟩

theorem trans {task between after : ForwardTask} (first : Tame task between)
    (second : Tame between after) : Tame task after where
  similar := first.similar.trans second.similar
  balance := by
    have := first.balance
    have := second.balance
    omega
  waiting := List.Subset.trans first.waiting second.waiting

variable (number : Nat)

theorem change (f : Context → Context) : Tame task (task.change number f) :=
  ⟨.change _ _ f, rfl, List.Subset.refl _⟩

theorem sendToTask (id : UInt32) (command : HdcCommand) : Tame task (task.sendToTask id command) :=
  ⟨.refl _, rfl, List.Subset.refl _⟩

theorem freeContext (bNotifyRemote : Bool) :
    Tame task (task.freeContext number bNotifyRemote) := by
  rw [ForwardTask.freeContext]
  split
  · exact refl _
  split
  · exact refl _
  dsimp only
  refine trans ?_ (change _ _ _)
  split
  · exact ⟨.refl _, rfl, List.Subset.refl _⟩
  · exact ⟨.refl _, rfl, List.Subset.refl _⟩

theorem doForwardBegin (begins : Bool) :
    Tame task (task.doForwardBegin number begins).2 := by
  rw [ForwardTask.doForwardBegin]
  split
  · exact change _ _ _
  · exact refl _

theorem setupPointContinue (status : Int) (outcome : Outcome) :
    Tame task (task.setupPointContinue number status outcome).2 := by
  rw [ForwardTask.setupPointContinue]
  split
  · exact refl _
  split
  · split
    · exact (sendToTask _ _ _).trans (freeContext _ _ false)
    · exact freeContext _ _ true
  · split
    · exact freeContext _ _ true
    · split
      · exact (sendToTask _ _ _).trans (doForwardBegin _ _ _)
      · exact freeContext _ _ true

theorem waitIdle : Tame task (task.waitIdle number) where
  similar := .refl _
  balance := by
    dsimp only [ForwardTask.waitIdle]
    rw [length_append, length_singleton]
    omega
  waiting := subset_append_left _ _

variable (build : Build)

theorem setupJdwpPoint (task : ForwardTask) (number : Nat) (checkPoint : Bool)
    (outcome : Outcome) : Tame task (task.setupJdwpPoint build number checkPoint outcome).2 := by
  cases build with
  | host => exact refl _
  | daemon =>
    rw [setupJdwpPoint]
    split
    · exact setupPointContinue _ _ outcome.status _
    · split
      · exact waitIdle _ _
      · exact refl _

theorem setupArkPoint (task : ForwardTask) (number : Nat) (outcome : Outcome) :
    Tame task (task.setupArkPoint build number outcome).2 := by
  cases build with
  | host => exact refl _
  | daemon =>
    rw [setupArkPoint]
    split
    · exact setupPointContinue _ _ 0 _
    · split
      · exact waitIdle _ _
      · exact refl _

theorem setupPoint (task : ForwardTask) (number : Nat)
    (masterSlave checkPoint : Bool) (type : ForwardType) (outcome : Outcome) :
    Tame task (task.setupPoint build number masterSlave checkPoint type outcome).2 := by
  cases type with
  | tcp => exact refl _
  | reserved => exact refl _
  | filesystem => exact refl _
  | ark => exact refl _
  | jdwp => exact setupJdwpPoint _ _ _ checkPoint _
  | device =>
    rw [ForwardTask.setupPoint]
    split
    · exact setupPointContinue _ _ outcome.status _
    · exact refl _
  | abstract =>
    rw [ForwardTask.setupPoint]
    split
    · exact refl _
    · exact setupPointContinue _ _ _ _

theorem slaveSetup (task : ForwardTask) (number : Nat) (bCheckPoint : Bool)
    (outcome : Outcome) : Tame task (task.slaveSetup build number bCheckPoint outcome).2 := by
  rw [ForwardTask.slaveSetup]
  split
  · exact refl _
  case h_2 type _ =>
    refine (change task number fun data => { data with type := type }).trans ?_
    split
    · split
      · exact setupArkPoint _ _ _ _
      · exact setupPointContinue _ _ 0 _
    · split
      · exact setupPoint _ _ _ false bCheckPoint _ _
      · exact setupPointContinue _ _ 0 _

theorem beginForward (task : ForwardTask) (id : UInt32) (outcome : Outcome) :
    Tame (task.mallocContext true id) (task.beginForward build id outcome).2 := by
  rw [ForwardTask.beginForward]
  split
  · exact refl _
  case h_2 type _ =>
    refine (change _ task.contexts.next fun data => { data with type := type }).trans ?_
    refine (setupPoint build _ task.contexts.next true false type outcome).trans ?_
    dsimp only
    split
    · exact sendToTask _ id _
    · exact refl _

theorem slaveConnect (task : ForwardTask) (bCheckPoint : Bool) (id : UInt32) (outcome : Outcome)
    (long : ¬ payload.length ≤ dwordSerializeSize + forwardParameterBufSize) :
    Tame (task.slaveContext payload bCheckPoint id)
    (task.slaveConnect build payload bCheckPoint id outcome).2 := by
  rw [ForwardTask.slaveConnect, if_neg long]
  dsimp only
  refine (slaveSetup build _ task.contexts.next bCheckPoint outcome).trans ?_
  split
  · exact refl _
  · exact freeContext _ _ true

theorem forwardCommand (ctx : Keyed UInt32 Context) (command : UInt16)
    (outcome : Outcome) : Tame task (task.forwardCommand ctx command outcome).2 := by
  rw [ForwardTask.forwardCommand]
  split
  · exact change _ ctx.number _
  · exact doForwardBegin _ ctx.number _
  · split
    · exact refl _
    · exact freeContext _ ctx.number true
  · exact freeContext _ ctx.number false
  · exact refl _

theorem forwardCommandDispatch (command : UInt16) (payload : Bytes)
    (outcome : Outcome) : Tame task (task.forwardCommandDispatch command payload outcome).2 := by
  rw [ForwardTask.forwardCommandDispatch]
  split
  · exact refl _
  split
  · exact refl _
  case h_2 ctx _ =>
    dsimp only
    refine (forwardCommand task ctx command outcome).trans ?_
    split
    · exact refl _
    · exact freeContext _ _ true

/-- A connection that is let in. -/
theorem listenCallback_accept {task : ForwardTask} {listen : Nat} {ctxListen : Keyed UInt32 Context}
    (here : task.contexts.object listen = some ctxListen) (ready : ctxListen.data.ready = true)
    (id : UInt32) (accepted : Bool) :
    Tame (task.mallocContext true id) (task.listenCallback listen false id accepted) := by
  rw [listenCallback, here]
  dsimp only
  rw [if_neg (by simp [ready])]
  split
  · exact (change _ _ _).trans (sendToTask _ _ _)
  · exact freeContext _ _ false

/-- One that is not. -/
theorem listenCallback_refuse {task : ForwardTask} {listen : Nat} {failed : Bool}
    (refused : ∀ ctxListen, task.contexts.object listen = some ctxListen →
    failed = false → ctxListen.data.ready = false) (id : UInt32) (accepted : Bool) :
    Tame task (task.listenCallback listen failed id accepted) := by
  rw [listenCallback]
  split
  · exact refl _
  case h_2 ctxListen here =>
    rw [if_pos (by cases failed <;> simp_all)]
    exact (freeContext _ _ false).trans (sendToTask _ 0 _)

end Tame

/-! ### The count -/

/-- `refCount` is the number of contexts in memory and of requests to a debugger. -/
structure Counted (task : ForwardTask) : Prop where
  numbered : task.contexts.Numbered
  counted : task.refCount = task.contexts.live.length + task.idle.length

theorem Counted.start : Counted .start := ⟨.empty, rfl⟩

theorem Counted.tame {task after : ForwardTask} (counted : Counted task) (tame : Tame task after) :
    Counted after where
  numbered := tame.similar.numbered counted.numbered
  counted := by
    have := tame.balance
    have := counted.counted
    rw [tame.similar.length_live]
    omega

variable {task : ForwardTask}

theorem Counted.mallocContext (counted : Counted task) (masterSlave : Bool) (id : UInt32) :
    Counted (task.mallocContext masterSlave id) where
  numbered := counted.numbered.add id _
  counted := by
    have := counted.counted
    dsimp only [ForwardTask.mallocContext]
    rw [Registry.length_add]
    omega

theorem Counted.slaveContext (counted : Counted task) (payload : Bytes) (bCheckPoint : Bool)
    (id : UInt32) : Counted (task.slaveContext payload bCheckPoint id) := by
  have made := (counted.mallocContext false id).tame
    (.change _ task.contexts.next fun data => { data with checkPoint := bCheckPoint })
  constructor
  · exact made.numbered.rekey _ _
  · dsimp only [ForwardTask.slaveContext]
    rw [Registry.length_rekey]
    exact made.counted

theorem Counted.freeContextCallBack (counted : Counted task) (number : Nat) :
    Counted (task.freeContextCallBack number) := by
  rw [ForwardTask.freeContextCallBack]
  split
  · split
    · exact counted
    case h_2 ctx here =>
      have fewer := counted.numbered.length_remove here
      have := counted.counted
      constructor
      · exact counted.numbered.remove _
      · dsimp only
        split <;> omega
  · exact counted

theorem Counted.setupJdwpPointCallBack (counted : Counted task) (number : Nat) (outcome : Outcome) :
    Counted (task.setupJdwpPointCallBack number outcome) := by
  rw [ForwardTask.setupJdwpPointCallBack]
  split
  case isTrue waiting =>
    have tame := Tame.setupPointContinue task number 1 outcome
    have after := counted.tame tame
    have count := after.counted
    have still := tame.waiting waiting
    constructor
    · exact after.numbered
    · have fewer := length_erase_of_mem still
      have := length_pos_of_mem still
      dsimp only
      omega
  · exact counted

/-- No context has the id. -/
def Free (task : ForwardTask) (id : UInt32) : Prop := ∀ ctx ∈ task.contexts.live, ctx.key ≠ id

/-- Where a context is made, its random id is free, and so is the one that the peer names. -/
def Fine (task : ForwardTask) : ForwardOp → Prop
  | .frame command payload id _ =>
    (command = forwardInit.code → task.Free id) ∧
      (command = forwardCheck.code ∨ command = forwardActiveSlave.code →
        ¬ payload.length ≤ dwordSerializeSize + forwardParameterBufSize →
          task.Free id ∧ task.Free (filterCommand payload))
  | .accept listen failed id _ =>
    ∀ ctxListen, task.contexts.object listen = some ctxListen → failed = false →
      ctxListen.data.ready = true → task.Free id
  | _ => True

/-- An operation makes no context, one of the side that listens or one of the side that connects, or
it is one of two callbacks. -/
inductive Does (task : ForwardTask) (op : ForwardOp) (after : ForwardTask) : Prop
  | tame (tame : Tame task after) (fine : task.Fine op)
  | listens (id : UInt32) (tame : Tame (task.mallocContext true id) after)
      (free : task.Fine op ↔ task.Free id)
  | connects (payload : Bytes) (bCheckPoint : Bool) (id : UInt32)
      (tame : Tame (task.slaveContext payload bCheckPoint id) after)
      (free : task.Fine op ↔ task.Free id ∧ task.Free (filterCommand payload))
  | idle (number : Nat) (outcome : Outcome) (same : op = .idle number outcome)
  | release (number : Nat) (same : op = .release number)

theorem does_frame (task : ForwardTask) (build : Build) (command : UInt16) (payload : Bytes)
    (id : UInt32) (outcome : Outcome) : Does task (.frame command payload id outcome)
      (task.commandDispatch build command payload id outcome).2 := by
  rw [commandDispatch]
  split
  case isTrue init =>
    subst init
    exact .listens id (.beginForward _ _ _ _) ⟨fun fine => fine.1 rfl, fun free =>
      ⟨fun _ => free, fun slave => absurd slave (by decide)⟩⟩
  case isFalse init =>
    have connects (bCheckPoint : Bool) (slave : command = forwardCheck.code ∨
        command = forwardActiveSlave.code) :
        Does task (.frame command payload id outcome)
          (task.slaveConnect build payload bCheckPoint id outcome).2 := by
      by_cases short : payload.length ≤ dwordSerializeSize + forwardParameterBufSize
      · rw [slaveConnect, if_pos short]
        exact .tame (.refl _) ⟨fun same => absurd same init, fun _ long => absurd short long⟩
      · exact .connects _ _ _ (.slaveConnect _ _ bCheckPoint id _ short)
          ⟨fun fine => fine.2 slave short, fun free => ⟨fun same => absurd same init, fun _ _ => free⟩⟩
    split
    case isTrue check => exact connects true (.inl check)
    case isFalse check =>
      split
      case isTrue active => exact connects false (.inr active)
      case isFalse active =>
        exact .tame (.forwardCommandDispatch _ _ _ _)
          ⟨fun same => absurd same init, fun slave => (slave.elim check active).elim⟩

theorem does_step (task : ForwardTask) (build : Build) (op : ForwardOp) :
    Does task op (task.step build op) := by
  cases op with
  | frame command payload id outcome => exact does_frame _ _ _ _ _ _
  | accept listen failed id accepted =>
    by_cases opens : ∃ ctxListen, task.contexts.object listen = some ctxListen ∧ failed = false ∧
        ctxListen.data.ready = true
    · obtain ⟨_, here, rfl, ready⟩ := opens
      exact .listens id (.listenCallback_accept here ready _ _)
        ⟨fun fine => fine _ here rfl ready, fun free _ _ _ _ => free⟩
    · refine .tame (.listenCallback_refuse ?_ _ _) fun _ here fine ready =>
        absurd ⟨_, here, fine, ready⟩ opens
      intro ctxListen here fine
      exact Bool.eq_false_iff.mpr fun ready => opens ⟨_, here, fine, ready⟩
  | connected number status outcome => exact .tame (.setupPointContinue _ _ _ _) trivial
  | idle number outcome => exact .idle _ _ rfl
  | free number bNotifyRemote => exact .tame (.freeContext _ _ _) trivial
  | release number => exact .release _ rfl

variable {build : Build}

/-- Every operation keeps the count. -/
theorem Counted.step (counted : Counted task) (op : ForwardOp) : Counted (task.step build op) := by
  cases task.does_step build op with
  | tame tame => exact counted.tame tame
  | listens id tame => exact (counted.mallocContext true id).tame tame
  | connects payload bCheckPoint id tame => exact (counted.slaveContext _ _ _).tame tame
  | idle number outcome same => exact same ▸ counted.setupJdwpPointCallBack _ _
  | release number same => exact same ▸ counted.freeContextCallBack _

/-! ### The map -/

/-- Every context is found under its id, releasing one takes no entry but its own, and the task is
ready to be released when it has no context and waits for no debugger. -/
structure Sound (task : ForwardTask) : Prop where
  found : task.contexts.Found
  own : ∀ (number : Nat) (key : UInt32),
    (task.freeContextCallBack number).contexts.map[key]? ≠ task.contexts.map[key]? →
      task.contexts.map[key]? = some number
  counted : task.refCount = task.contexts.live.length + task.idle.length
  ready : task.readyForRelease = true ↔ task.contexts.live = [] ∧ task.idle = []

/-- What fine operations keep. -/
structure Kept (task : ForwardTask) : Prop where
  consistent : task.contexts.Consistent
  counted : Counted task

namespace Kept

theorem start : Kept .start := ⟨.empty, .start⟩

theorem sound {task : ForwardTask} (kept : Kept task) : Sound task where
  found := kept.consistent.found
  own := by
    intro number key changed
    rw [freeContextCallBack] at changed
    split at changed
    · split at changed
      · exact absurd rfl changed
      · exact kept.consistent.found.own_of_remove changed
    · exact absurd rfl changed
  counted := kept.counted.counted
  ready := by
    rw [readyForRelease, beq_iff_eq, kept.counted.counted, Nat.add_eq_zero_iff,
      length_eq_zero_iff, length_eq_zero_iff]

variable {task : ForwardTask} {id : UInt32}

theorem mallocContext (kept : Kept task) (masterSlave : Bool) (free : task.Free id) :
    (task.mallocContext masterSlave id).contexts.Consistent :=
  kept.consistent.add _ free

theorem not_found_mallocContext (kept : Kept task) (masterSlave : Bool) (taken : ¬ task.Free id) :
    ¬ (task.mallocContext masterSlave id).contexts.Found := by
  rw [Free] at taken
  push Not at taken
  obtain ⟨_, mem, rfl⟩ := taken
  exact kept.consistent.not_found_add mem

/-- The contexts, while a new one still has its random id. -/
theorem similar_slave (task : ForwardTask) (bCheckPoint : Bool) (id : UInt32) :
    Registry.Similar (task.contexts.add id (.new false))
      ((task.mallocContext false id).change task.contexts.next
        fun data => { data with checkPoint := bCheckPoint }).contexts :=
  (Tame.change (task.mallocContext false id) task.contexts.next
    fun data => { data with checkPoint := bCheckPoint }).similar

/-- The new context among them. -/
theorem object_slave (kept : Kept task) (id : UInt32) (bCheckPoint : Bool) :
    ∃ data, ((task.mallocContext false id).change task.contexts.next
        fun data => { data with checkPoint := bCheckPoint }).contexts.object task.contexts.next =
      some ⟨task.contexts.next, id, data⟩ := by
  have new : (⟨task.contexts.next, id, .new false⟩ : Keyed UInt32 Context) ∈
      (task.contexts.add id (.new false)).live :=
    mem_append_right _ (mem_singleton_self _)
  have made := (kept.counted.numbered.add _ (.new false)).object_of_mem new
  refine ⟨{ Context.new false with checkPoint := bCheckPoint }, ?_⟩
  dsimp only [ForwardTask.change, ForwardTask.mallocContext] at made ⊢
  rw [Registry.object_change, made, Option.map_some, if_pos rfl]

/-- The others among them. -/
theorem other_slave (kept : Kept task) (id : UInt32) (bCheckPoint : Bool) {ctx : Keyed UInt32 Context}
    (mem : ctx ∈ task.contexts.live) :
    ∃ other ∈ ((task.mallocContext false id).change task.contexts.next
        fun data => { data with checkPoint := bCheckPoint }).contexts.live,
      other.key = ctx.key ∧ other.number ≠ task.contexts.next := by
  obtain ⟨other, inside, number, key⟩ :=
    (similar_slave task bCheckPoint id).symm.exists_old (mem_append_left _ mem)
  refine ⟨other, inside, key, ?_⟩
  rw [number]
  exact Nat.ne_of_lt (kept.consistent.bounded _ mem)

theorem slaveContext (kept : Kept task) (bCheckPoint : Bool)
    (free : task.Free id) (peer : task.Free (filterCommand payload)) :
    (task.slaveContext payload bCheckPoint id).contexts.Consistent := by
  have similar := similar_slave task bCheckPoint id
  apply (similar.consistent (kept.mallocContext false free)).rekey
  intro ctx mem apart
  obtain ⟨old, inside, number, key⟩ := similar.exists_old mem
  rw [← key]
  rcases mem_append.mp inside with before | new
  · exact peer old before
  · obtain rfl := mem_singleton.mp new
    exact absurd number.symm apart

/-- An id that is taken, whether drawn or named by the peer. -/
theorem not_found_slaveContext (kept : Kept task) (bCheckPoint : Bool)
    (taken : ¬ (task.Free id ∧ task.Free (filterCommand payload))) :
    ¬ (task.slaveContext payload bCheckPoint id).contexts.Found := by
  obtain ⟨_, here⟩ := kept.object_slave id bCheckPoint
  by_cases free : task.Free id
  · have peer : ¬ task.Free (filterCommand payload) := fun peer => taken ⟨free, peer⟩
    rw [Free] at peer
    push Not at peer
    obtain ⟨ctx, mem, named⟩ := peer
    obtain ⟨other, inside, key, apart⟩ := kept.other_slave id bCheckPoint mem
    have consistent := (similar_slave task bCheckPoint id).consistent (kept.mallocContext false free)
    dsimp only [ForwardTask.slaveContext]
    rw [← named, ← key]
    exact consistent.not_found_rekey (Registry.mem_of_object here) inside apart
  · rw [Free] at free
    push Not at free
    obtain ⟨ctx, mem, rfl⟩ := free
    obtain ⟨other, inside, key, apart⟩ := kept.other_slave ctx.key bCheckPoint mem
    exact Registry.not_found_rekey_shared here inside apart key

end Kept

theorem Tame.not_found {task after : ForwardTask} (tame : Tame task after)
    (lost : ¬ task.contexts.Found) : ¬ after.contexts.Found :=
  fun found => lost (tame.similar.symm.found found)

/-- Fine operations keep the map. -/
theorem Kept.step (kept : Kept task) {op : ForwardOp} (fine : task.Fine op) :
    Kept (task.step build op) := by
  refine ⟨?_, kept.counted.step _⟩
  cases task.does_step build op with
  | tame tame => exact tame.similar.consistent kept.consistent
  | listens id tame free => exact tame.similar.consistent (kept.mallocContext true (free.mp fine))
  | connects payload bCheckPoint id tame free =>
    exact tame.similar.consistent (kept.slaveContext _ (free.mp fine).1 (free.mp fine).2)
  | idle number outcome same =>
    subst same
    rw [ForwardTask.step, ForwardTask.setupJdwpPointCallBack]
    split
    · exact (Tame.setupPointContinue _ _ 1 _).similar.consistent kept.consistent
    · exact kept.consistent
  | release number same =>
    subst same
    rw [ForwardTask.step, ForwardTask.freeContextCallBack]
    split
    · split
      · exact kept.consistent
      · exact kept.consistent.remove _
    · exact kept.consistent

/-- Every other operation makes a context unreachable. -/
theorem Kept.not_fine_breaks (kept : Kept task) {op : ForwardOp} (bad : ¬ task.Fine op) :
    ¬ Sound (task.step build op) := by
  suffices lost : ¬ (task.step build op).contexts.Found from fun sound => lost sound.found
  cases task.does_step build op with
  | tame tame fine => exact absurd fine bad
  | listens id tame free => exact tame.not_found (kept.not_found_mallocContext true (mt free.mpr bad))
  | connects payload bCheckPoint id tame free =>
    exact tame.not_found (kept.not_found_slaveContext _ (mt free.mpr bad))
  | idle number outcome same => exact absurd (same ▸ trivial) bad
  | release number same => exact absurd (same ▸ trivial) bad

end ForwardTask

/-- Along every run of a forward task, on either side, the contexts are all found under their ids,
each takes only its own entry when it is released, and the count is right, if and only if every
context is made with ids that no other context has. -/
theorem contexts_exact (build : Build) (ops : List ForwardOp) :
    (∀ k, ForwardTask.Sound ((ops.take k).foldl (step build) .start)) ↔
      ExactRuns.AllFine (step build) ForwardTask.Fine .start ops :=
  ExactRuns.holds_iff ForwardTask.Kept ForwardTask.Kept.start (fun kept fine => kept.step fine)
    (fun kept bad => kept.not_fine_breaks bad) ForwardTask.Kept.sound

/-- A peer that opens two connections under one id: the first context is no longer found, and when
it is released the entry of the second one goes. A random number that is drawn again does the same
on the side that listens. -/
theorem secondConnection_orphansFirst :
    let works : Outcome := ⟨some .tcp, true, 0, true, true⟩
    let connect (id : UInt32) := ForwardOp.frame forwardActiveSlave.code
      (List.replicate 3 0 ++ [7] ++ List.replicate 9 0) id works
    let both := [connect 100, connect 200].foldl (step .daemon) .start
    let released := [ForwardOp.free 0 false, .release 0].foldl (step .daemon) both
    let drawn := [ForwardOp.frame forwardInit.code [] 9 works,
      .frame forwardInit.code [] 9 works].foldl (step .host) .start
    (both.contexts.live.map (fun ctx => (ctx.number, ctx.key)) = [(0, 7), (1, 7)] ∧
        both.contexts.map.toList = [(7, 1)]) ∧
      (released.contexts.live.map Keyed.number = [1] ∧ released.contexts.map.toList = []) ∧
      drawn.contexts.live.map Keyed.number = [0, 1] ∧ drawn.contexts.map.toList = [(9, 1)] := by
  decide

end Hdc.Forward
