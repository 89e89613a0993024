import Hdc.Define
import Hdc.Lib.ExactRuns
import Hdc.Lib.Registry

/-!
The sessions of an instance (`session.cpp`, `MallocSession`, `FreeSessionFinally` and
`AdminSession`; `daemon.cpp`, `DaemonSessionHandshakeInit`).

A session has an id, by which everybody looks it up, and is counted in `sessionRef`; an
instance that shuts down waits for the count to reach zero. An id that is generated is
tried until it is free. One that is given, by a packet on a cable or by the first frame of
a handshake, is not looked at: the session takes the place of the one that has it. When
something fails while a session is made, the session is deleted and stays counted.

* `sessions_exact`: along every run.
-/

namespace Hdc.Session

inductive ConnType where
  | usb
  | tcp
  | serial
  | bt
  | unknown
deriving DecidableEq, Repr

/-- The sessions in memory, `mapSession`, and `sessionRef`. -/
structure Sessions where
  registry : Registry UInt32 ConnType
  sessionRef : Nat

/-- What is outside while a session is made: memory, the random numbers that are drawn, and
whether the handle or the object of the transport can be had. -/
structure MallocAnswer where
  newSession : Bool
  drawn : List UInt32
  newMapTask : Bool
  newListKey : Bool
  pollHandle : Bool
  transport : Bool
deriving DecidableEq, Repr

namespace Sessions

def empty : Sessions := ⟨.empty, 0⟩

/-- `GetSessionPseudoUid`: the first number that is drawn and free. -/
def getSessionPseudoUid (sessions : Sessions) (drawn : List UInt32) : Option UInt32 :=
  drawn.find? fun uid => sessions.registry.map[uid]?.isNone

/-- `MallocSessionByConnectType`, with or without support for a serial line. -/
def mallocSessionByConnectType (uart : Bool) (connType : ConnType) (answer : MallocAnswer) : Bool :=
  match connType with
  | .tcp | .usb => answer.transport
  | .serial => uart
  | .bt | .unknown => false

/-- What is needed after the session itself. -/
def complete (uart : Bool) (connType : ConnType) (answer : MallocAnswer) : Bool :=
  answer.newMapTask && answer.newListKey && answer.pollHandle &&
    mallocSessionByConnectType uart connType answer

/-- The id of a new session; none as long as all that was drawn is in use. -/
def chosen (sessions : Sessions) (sessionId : UInt32) (answer : MallocAnswer) : Option UInt32 :=
  if sessionId = 0 then sessions.getSessionPseudoUid answer.drawn else some sessionId

/-- `MallocSession`. -/
def mallocSession (uart : Bool) (sessions : Sessions) (connType : ConnType) (sessionId : UInt32)
    (answer : MallocAnswer) : Sessions :=
  if !answer.newSession then sessions
  else
    match sessions.chosen sessionId answer with
    | none => sessions
    | some sessionId =>
      let sessions := { sessions with sessionRef := sessions.sessionRef + 1 }
      -- every failure deletes the session and returns
      if !complete uart connType answer then sessions
      else { sessions with registry := sessions.registry.add sessionId connType }

/-- `DaemonSessionHandshakeInit`: the session takes the id that the frame names. -/
def daemonSessionHandshakeInit (sessions : Sessions) (session : Nat) (sessionId : UInt32) : Sessions :=
  { sessions with registry := sessions.registry.rekey session sessionId }

/-- `FreeSessionFinally`, which waits for the handles of the session. -/
def freeSessionFinally (sessions : Sessions) (session : Nat) (uvHandleRef : Nat) : Sessions :=
  match sessions.registry.object session with
  | none => sessions
  | some _ =>
    if uvHandleRef > 0 then sessions
    else ⟨sessions.registry.remove session, sessions.sessionRef - 1⟩

end Sessions

inductive SessionOp where
  | malloc (connType : ConnType) (sessionId : UInt32) (answer : MallocAnswer)
  | handshake (session : Nat) (sessionId : UInt32)
  | free (session : Nat) (uvHandleRef : Nat)

namespace Sessions

def step (uart : Bool) (sessions : Sessions) : SessionOp → Sessions
  | .malloc connType sessionId answer => sessions.mallocSession uart connType sessionId answer
  | .handshake session sessionId => sessions.daemonSessionHandshakeInit session sessionId
  | .free session uvHandleRef => sessions.freeSessionFinally session uvHandleRef

/-- The count is the number of sessions in memory, and each of them is found under its id. -/
structure Sound (sessions : Sessions) : Prop where
  counted : sessions.sessionRef = sessions.registry.live.length
  found : sessions.registry.Found

/-- A session that is begun is completed, and no session is given the id of another one. -/
def Fine (uart : Bool) (sessions : Sessions) : SessionOp → Prop
  | .malloc connType sessionId answer =>
    answer.newSession = true → (sessions.chosen sessionId answer).isSome = true →
      complete uart connType answer = true ∧
        (sessionId ≠ 0 → ∀ other ∈ sessions.registry.live, other.key ≠ sessionId)
  | .handshake session sessionId =>
    (sessions.registry.object session).isSome = true →
      ∀ other ∈ sessions.registry.live, other.number ≠ session → other.key ≠ sessionId
  | .free _ _ => True

/-- What fine operations keep. -/
structure Kept (sessions : Sessions) : Prop where
  counted : sessions.sessionRef = sessions.registry.live.length
  consistent : sessions.registry.Consistent

theorem Kept.sound {sessions : Sessions} (kept : Kept sessions) : Sound sessions :=
  ⟨kept.counted, kept.consistent.found⟩

theorem Kept.empty : Kept .empty := ⟨rfl, .empty⟩

section Malloc

variable {uart : Bool} {sessions : Sessions} {connType : ConnType} {sessionId : UInt32}
  {answer : MallocAnswer}

/-- What `MallocSession` does once it has an id. -/
theorem mallocSession_eq (memory : answer.newSession = true) {id : UInt32}
    (chosen : sessions.chosen sessionId answer = some id) :
    sessions.mallocSession uart connType sessionId answer =
      if complete uart connType answer then
        ⟨sessions.registry.add id connType, sessions.sessionRef + 1⟩
      else ⟨sessions.registry, sessions.sessionRef + 1⟩ := by
  rw [mallocSession, memory, chosen]
  cases complete uart connType answer with
  | true => rfl
  | false => rfl

theorem mallocSession_none (none : answer.newSession = false ∨
    sessions.chosen sessionId answer = none) :
    sessions.mallocSession uart connType sessionId answer = sessions := by
  rw [mallocSession]
  rcases none with noMemory | drawing
  · rw [noMemory]
    rfl
  · rw [drawing]
    split <;> rfl

/-- An id that was drawn is free. -/
theorem Kept.free_of_drawn (kept : Kept sessions) {id : UInt32}
    (chosen : sessions.chosen 0 answer = some id) {other : Keyed UInt32 ConnType}
    (mem : other ∈ sessions.registry.live) : other.key ≠ id := by
  apply kept.consistent.free_of_absent _ mem
  simpa using List.find?_some chosen

end Malloc

/-- Fine operations keep the count and the map. -/
theorem Kept.step {uart : Bool} {sessions : Sessions} (kept : Kept sessions) {op : SessionOp}
    (fine : sessions.Fine uart op) : Kept (sessions.step uart op) := by
  cases op with
  | malloc connType sessionId answer =>
    rw [Sessions.step]
    cases memory : answer.newSession with
    | false =>
      rw [mallocSession_none (.inl memory)]
      exact kept
    | true =>
      cases chosen : sessions.chosen sessionId answer with
      | none =>
        rw [mallocSession_none (.inr chosen)]
        exact kept
      | some id =>
        obtain ⟨completed, given⟩ := fine memory (by rw [chosen]; rfl)
        rw [mallocSession_eq memory chosen, if_pos completed]
        have free : ∀ other ∈ sessions.registry.live, other.key ≠ id := by
          intro other mem
          by_cases drawn : sessionId = 0
          · subst drawn
            exact kept.free_of_drawn chosen mem
          · rw [Sessions.chosen, if_neg drawn] at chosen
            obtain rfl := Option.some.inj chosen
            exact given drawn _ mem
        refine ⟨?_, kept.consistent.add _ free⟩
        rw [Registry.length_add, kept.counted]
  | handshake session sessionId =>
    refine ⟨?_, ?_⟩
    · change sessions.sessionRef = _
      rw [Sessions.step, daemonSessionHandshakeInit, Registry.length_rekey, kept.counted]
    · cases here : sessions.registry.object session with
      | none =>
        have same : sessions.registry.rekey session sessionId = sessions.registry := by
          rw [Registry.rekey, here]
        rw [Sessions.step, daemonSessionHandshakeInit, same]
        exact kept.consistent
      | some object => exact kept.consistent.rekey (fine (by rw [here]; rfl))
  | free session uvHandleRef =>
    rw [Sessions.step, freeSessionFinally]
    split
    · exact kept
    case h_2 object here =>
      split
      · exact kept
      · have fewer := kept.consistent.length_remove here
        refine ⟨?_, kept.consistent.remove _⟩
        rw [kept.counted]
        dsimp only
        omega

/-- Every other operation breaks the count or the map at once. -/
theorem Kept.not_fine_breaks {uart : Bool} {sessions : Sessions} (kept : Kept sessions)
    {op : SessionOp} (bad : ¬ sessions.Fine uart op) : ¬ Sound (sessions.step uart op) := by
  cases op with
  | malloc connType sessionId answer =>
    rw [Fine] at bad
    push Not at bad
    obtain ⟨memory, choice, bad⟩ := bad
    obtain ⟨_, chosen⟩ := Option.isSome_iff_exists.mp choice
    rw [Sessions.step, mallocSession_eq memory chosen]
    by_cases completed : complete uart connType answer = true
    · obtain ⟨given, other, mem, taken⟩ := bad completed
      rw [Sessions.chosen, if_neg given] at chosen
      obtain rfl := Option.some.inj chosen
      rw [if_pos completed, ← taken]
      exact fun sound => kept.consistent.not_found_add mem sound.found
    · rw [if_neg completed]
      intro sound
      have counted := sound.counted
      rw [← kept.counted] at counted
      exact Nat.succ_ne_self _ counted
  | handshake session sessionId =>
    rw [Fine] at bad
    push Not at bad
    obtain ⟨isLive, other, mem, _, taken⟩ := bad
    obtain ⟨_, here⟩ := Option.isSome_iff_exists.mp isLive
    have isNumber := Registry.number_of_object here
    intro sound
    have found := sound.found
    rw [← taken, ← isNumber] at found
    exact kept.consistent.not_found_rekey (Registry.mem_of_object here) mem
      (by rwa [isNumber]) found
  | free session uvHandleRef => exact absurd trivial bad

end Sessions

/-- Along every run, the count of sessions is right and every session is found under its id, if and
only if every session that is begun is completed and none is given the id of another one. -/
theorem sessions_exact (uart : Bool) (ops : List SessionOp) :
    (∀ k, Sessions.Sound ((ops.take k).foldl (Sessions.step uart) .empty)) ↔
      ExactRuns.AllFine (Sessions.step uart) (Sessions.Fine uart) .empty ops :=
  ExactRuns.holds_iff Sessions.Kept Sessions.Kept.empty (fun kept fine => kept.step fine)
    (fun kept bad => kept.not_fine_breaks bad) Sessions.Kept.sound

/-- A session for which there is no memory for its tasks stays counted; and a session that is
given the id of another one, by a packet or by a handshake, is found in its place. -/
theorem failure_counted_and_id_taken :
    let memory : MallocAnswer := ⟨true, [], true, true, true, true⟩
    let failed := [SessionOp.malloc .tcp 5 { memory with newMapTask := false }].foldl
      (Sessions.step true) .empty
    let given := [SessionOp.malloc .usb 5 memory, .malloc .usb 5 memory].foldl
      (Sessions.step true) .empty
    let shaken := [SessionOp.malloc .usb 5 memory, .malloc .usb 6 memory, .handshake 1 5].foldl
      (Sessions.step true) .empty
    (failed.sessionRef = 1 ∧ failed.registry.live = []) ∧
      (given.registry.live.map Keyed.number = [0, 1] ∧ given.registry.map.toList = [(5, 1)]) ∧
      shaken.registry.live.map Keyed.number = [0, 1] ∧ shaken.registry.map.toList = [(5, 1)] := by
  decide

end Hdc.Session
