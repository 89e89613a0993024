import Mathlib.Data.List.Basic
import Mathlib.Data.List.Nodup
import Mathlib.Data.List.Infix

/-!
Stop-and-wait delivery over two lossy first-in-first-out channels.

The sender holds a queue of numbered messages and may transmit only its first one, as often as it
likes; a message leaves the queue when an acknowledgement with its number arrives. The receiver
acknowledges what arrives, or leaves that out, and passes a message on unless its number is the one
it saw last. Either channel may lose anything at any time and keeps the order of the rest.

This is enough because both channels only ever hold copies of two neighbouring messages, in order:

* `Phase`: either the receiver has exactly what was acknowledged, or it is one message ahead;
* `Step.inv`: every step keeps this;
* `Inv.got_prefix`: the messages passed on are a prefix of those submitted.
-/

namespace StopAndWait

open List

variable {ι β : Type}

/-- The two parties and the two channels. `acks` runs from the receiver, its own
outbox included, to the sender. -/
structure State (ι β : Type) where
  done : List (ι × β)
  todo : List (ι × β)
  flight : List (ι × β)
  acks : List ι
  last : ι
  got : List (ι × β)

/-- Everything submitted so far, in order. -/
def State.submitted (s : State ι β) : List (ι × β) := s.done ++ s.todo

/-- The state before the first message; `start` is the number the receiver begins
with, which no message carries. -/
def State.initial (start : ι) : State ι β := ⟨[], [], [], [], start, []⟩

/-- One step of either party or of a channel. -/
inductive Step [DecidableEq ι] (start : ι) (s : State ι β) : State ι β → Prop where
  | submit (x : ι × β) (fresh : x.1 ∉ s.submitted.map Prod.fst) (used : x.1 ≠ start) :
      Step start s { s with todo := s.todo ++ [x] }
  | send {x : ι × β} (first : s.todo.head? = some x) :
      Step start s { s with flight := s.flight ++ [x] }
  | loseData {flight : List (ι × β)} (kept : flight.Sublist s.flight) :
      Step start s { s with flight }
  | loseAck {acks : List ι} (kept : acks.Sublist s.acks) : Step start s { s with acks }
  | receive {x : ι × β} {flight : List (ι × β)} {acks : List ι} (arrived : s.flight = x :: flight)
      (answered : acks = s.acks ∨ acks = s.acks ++ [x.1]) :
      Step start s
        { s with
          flight, acks, last := x.1
          got := if s.last = x.1 then s.got else s.got ++ [x] }
  | ack {i : ι} {acks : List ι} (arrived : s.acks = i :: acks) :
      Step start s
        { s with
          acks
          done := s.done ++ (s.todo.find? fun x => x.1 = i).toList
          todo := s.todo.eraseP fun x => x.1 = i }

/-- How far the receiver is: level with the acknowledgements, or one message
ahead of them. In both cases each channel holds copies of at most two
neighbouring messages, the older ones first. -/
inductive Phase (s : State ι β) : Prop where
  | level (got : s.got = s.done) (old new : List (ι × β)) (flight : s.flight = old ++ new)
      (oldCopy : ∀ y ∈ old, s.done.getLast? = some y) (newCopy : ∀ y ∈ new, s.todo.head? = some y)
      (ackCopy : ∀ i ∈ s.acks, s.done.getLast?.map Prod.fst = some i)
  | ahead (x : ι × β) (rest : List (ι × β)) (todo : s.todo = x :: rest)
      (got : s.got = s.done ++ [x]) (copy : ∀ y ∈ s.flight, y = x)
      (old new : List ι) (acks : s.acks = old ++ new)
      (oldAck : ∀ i ∈ old, s.done.getLast?.map Prod.fst = some i) (newAck : ∀ i ∈ new, i = x.1)

/-- The invariant: numbers are never reused, the receiver remembers the number
of the last message it passed on, and the two sides are in phase. -/
structure Inv (start : ι) (s : State ι β) : Prop where
  nodup : (s.submitted.map Prod.fst).Nodup
  unused : start ∉ s.submitted.map Prod.fst
  last : (s.got.getLast?.map Prod.fst).getD start = s.last
  phase : Phase s

theorem Inv.initial (start : ι) : Inv start (State.initial start : State ι β) where
  nodup := nodup_nil
  unused := not_mem_nil
  last := rfl
  phase := .level rfl [] [] rfl (by simp) (by simp) (by simp [State.initial])

variable {s : State ι β} {start : ι}

/-- What was passed on is a prefix of what was submitted. -/
theorem Inv.got_prefix (inv : Inv start s) : s.got <+: s.submitted := by
  cases inv.phase with
  | level got => exact ⟨s.todo, by rw [got, State.submitted]⟩
  | ahead x rest todo got => exact ⟨rest, by rw [got, State.submitted, todo, append_assoc]; rfl⟩

variable {i : ι}

/-- The number of the last message acknowledged is not waiting. -/
theorem Inv.last_done_not_todo (inv : Inv start s) (last : s.done.getLast?.map Prod.fst = some i) :
    ∀ x ∈ s.todo, x.1 ≠ i := by
  intro x mem same
  obtain ⟨y, yLast, rfl⟩ := Option.map_eq_some_iff.mp last
  have apart := inv.nodup
  rw [State.submitted, map_append, nodup_append] at apart
  exact apart.2.2 y.1 (mem_map_of_mem (mem_of_getLast? yLast)) x.1
    (mem_map_of_mem mem) same.symm

/-- An acknowledgement of a message that is not waiting changes nothing. -/
theorem ack_other [DecidableEq ι] {todo : List (ι × β)} (other : ∀ x ∈ todo, x.1 ≠ i) :
    (todo.find? fun x => x.1 = i) = none ∧ (todo.eraseP fun x => x.1 = i) = todo := by
  constructor
  · exact find?_eq_none.mpr fun x mem => by simpa using other x mem
  · exact eraseP_of_forall_not fun x mem => by simpa using other x mem

/-- Losing data keeps the two sides in phase. -/
theorem Phase.loseData (phase : Phase s) {flight : List (ι × β)} (kept : flight.Sublist s.flight) :
    Phase { s with flight } := by
  cases phase with
  | level got old new split oldCopy newCopy ackCopy =>
    rw [split] at kept
    obtain ⟨old', new', rfl, oldKept, newKept⟩ := sublist_append_iff.mp kept
    exact .level got old' new' rfl (fun y mem => oldCopy y (oldKept.subset mem))
      (fun y mem => newCopy y (newKept.subset mem)) ackCopy
  | ahead x rest todo got copy old new acks oldAck newAck =>
    exact .ahead x rest todo got (fun y mem => copy y (kept.subset mem)) old new acks oldAck newAck

variable {acks : List ι}

/-- Losing acknowledgements keeps the two sides in phase. -/
theorem Phase.loseAck (phase : Phase s) (kept : acks.Sublist s.acks) : Phase { s with acks } := by
  cases phase with
  | level got old new split oldCopy newCopy ackCopy =>
    exact .level got old new split oldCopy newCopy fun i mem => ackCopy i (kept.subset mem)
  | ahead x rest todo got copy old new split oldAck newAck =>
    rw [split] at kept
    obtain ⟨old', new', rfl, oldKept, newKept⟩ := sublist_append_iff.mp kept
    exact .ahead x rest todo got copy old' new' rfl (fun i mem => oldAck i (oldKept.subset mem))
      fun i mem => newAck i (newKept.subset mem)

/-- A submission goes to the end of the queue, which neither side looks at. -/
theorem Phase.submit (phase : Phase s) (x : ι × β) :
    Phase { s with todo := s.todo ++ [x] } := by
  cases phase with
  | level got old new split oldCopy newCopy ackCopy =>
    refine .level got old new split oldCopy (fun y mem => ?_) ackCopy
    simp [newCopy y mem]
  | ahead y rest todo got copy old new acks oldAck newAck =>
    exact .ahead y (rest ++ [x]) (by simp [todo]) got copy old new acks oldAck newAck

variable {x : ι × β}

/-- A transmission adds a copy of the first message behind all others. -/
theorem Phase.send (phase : Phase s) (first : s.todo.head? = some x) :
    Phase { s with flight := s.flight ++ [x] } := by
  cases phase with
  | level got old new split oldCopy newCopy ackCopy =>
    refine .level got old (new ++ [x]) (by simp [split]) oldCopy ?_ ackCopy
    exact forall_mem_append.mpr ⟨newCopy, forall_mem_singleton.mpr first⟩
  | ahead y rest todo got copy old new acks oldAck newAck =>
    rw [todo] at first
    refine .ahead y rest todo got ?_ old new acks oldAck newAck
    exact forall_mem_append.mpr ⟨copy, forall_mem_singleton.mpr (Option.some.inj first).symm⟩

section

variable (inv : Inv start s)
include inv

/-- The first message waiting is new to a receiver that is level. -/
theorem Inv.last_ne_first (level : s.got = s.done)
    (first : s.todo.head? = some x) : s.last ≠ x.1 := by
  intro same
  have waits : x ∈ s.todo := mem_of_head? first
  cases passed : s.done.getLast? with
  | none =>
    have atStart : start = s.last := by simpa [level, passed] using inv.last
    exact inv.unused (atStart.trans same ▸ mem_map_of_mem (mem_append_right _ waits))
  | some y =>
    have isLast : y.1 = s.last := by simpa [level, passed] using inv.last
    exact inv.last_done_not_todo (by rw [passed]; rfl) x waits (isLast.trans same).symm

/-- A copy of the last message passed on is recognised. -/
theorem Inv.last_eq (passed : s.got.getLast? = some x) : s.last = x.1 := by
  rw [← inv.last, passed]
  rfl

theorem Inv.receive [DecidableEq ι] {flight : List (ι × β)}
    (arrived : s.flight = x :: flight) (answered : acks = s.acks ∨ acks = s.acks ++ [x.1]) :
    Inv start
      { s with
        flight, acks, last := x.1
        got := if s.last = x.1 then s.got else s.got ++ [x] } := by
  -- a duplicate only moves the channels
  have duplicate : s.last = x.1 → Phase { s with flight, acks, last := x.1 } →
      Inv start { s with flight, acks, last := x.1
                         got := if s.last = x.1 then s.got else s.got ++ [x] } := by
    intro same phase
    simp only [if_pos same]
    exact ⟨inv.nodup, inv.unused, inv.last.trans same, phase⟩
  have ackMem : ∀ i ∈ acks, i ∈ s.acks ∨ i = x.1 := by
    rcases answered with rfl | rfl
    · exact fun i mem => .inl mem
    · intro i mem
      exact (mem_append.mp mem).imp id mem_singleton.mp
  cases inv.phase with
  | level got old new split oldCopy newCopy ackCopy =>
    cases old with
    | cons y old' =>
      obtain ⟨rfl, rest⟩ := List.cons.inj (arrived.symm.trans split)
      have passed := oldCopy x mem_cons_self
      refine duplicate (inv.last_eq (got ▸ passed)) ?_
      refine .level got old' new rest (fun z mem => oldCopy z (mem_cons_of_mem _ mem)) newCopy ?_
      intro i mem
      rcases ackMem i mem with older | rfl
      · exact ackCopy i older
      · exact congrArg (Option.map Prod.fst) passed
    | nil =>
      have heads : ∀ y ∈ x :: flight, s.todo.head? = some y := by
        intro y mem
        exact newCopy y (by rwa [← nil_append new, ← split, arrived])
      have first := heads x mem_cons_self
      obtain ⟨rest, todo⟩ := head?_eq_some_iff.mp first
      simp only [if_neg (inv.last_ne_first got first)]
      refine ⟨inv.nodup, inv.unused, by simp, ?_⟩
      have copy : ∀ y ∈ flight, y = x := fun y mem =>
        Option.some.inj ((heads y (mem_cons_of_mem _ mem)).symm.trans first)
      rcases answered with rfl | rfl
      · exact .ahead x rest todo (by rw [got]) copy s.acks [] (by simp) ackCopy (by simp)
      · exact .ahead x rest todo (by rw [got]) copy s.acks [x.1] rfl ackCopy (by simp)
  | ahead y rest todo got copy old new split oldAck newAck =>
    obtain rfl : x = y := copy x (arrived ▸ mem_cons_self)
    have copy' : ∀ z ∈ flight, z = x := fun z mem => copy z (arrived ▸ mem_cons_of_mem _ mem)
    refine duplicate (inv.last_eq (by simp [got])) ?_
    rcases answered with rfl | rfl
    · exact .ahead x rest todo got copy' old new split oldAck newAck
    · refine .ahead x rest todo got copy' old (new ++ [x.1]) (by simp [split]) oldAck ?_
      intro i mem
      exact (mem_append.mp mem).elim (newAck i) mem_singleton.mp

/-- An acknowledgement names the first message waiting, or none. -/
theorem Inv.ack_names (mem : i ∈ s.acks) :
    (∀ x ∈ s.todo, x.1 ≠ i) ∨ ∃ x rest, s.todo = x :: rest ∧ x.1 = i := by
  cases inv.phase with
  | level got old new split oldCopy newCopy ackCopy =>
    exact .inl (inv.last_done_not_todo (ackCopy i mem))
  | ahead x rest todo got copy old new split oldAck newAck =>
    rw [split] at mem
    rcases mem_append.mp mem with stale | fresh
    · exact .inl (inv.last_done_not_todo (oldAck i stale))
    · exact .inr ⟨x, rest, todo, (newAck i fresh).symm⟩

/-- An acknowledgement only moves the border between what is done and what waits. -/
theorem Inv.ack_submitted [DecidableEq ι] (mem : i ∈ s.acks) :
    s.done ++ (s.todo.find? fun x => x.1 = i).toList ++ (s.todo.eraseP fun x => x.1 = i) =
    s.submitted := by
  rcases inv.ack_names mem with other | ⟨x, rest, todo, rfl⟩
  · obtain ⟨absent, same⟩ := ack_other other
    rw [absent, same, Option.toList_none, append_nil, State.submitted]
  · simp [State.submitted, todo]

theorem Inv.ack [DecidableEq ι] (arrived : s.acks = i :: acks) :
    Inv start
      { s with
        acks
        done := s.done ++ (s.todo.find? fun x => x.1 = i).toList
        todo := s.todo.eraseP fun x => x.1 = i } := by
  -- an old acknowledgement only leaves the channel
  have stale : s.done.getLast?.map Prod.fst = some i → Inv start
      { s with
        acks
        done := s.done ++ (s.todo.find? fun x => x.1 = i).toList
        todo := s.todo.eraseP fun x => x.1 = i } := by
    intro last
    obtain ⟨absent, same⟩ := ack_other (inv.last_done_not_todo last)
    simp only [absent, same, Option.toList_none, append_nil]
    exact { inv with phase := inv.phase.loseAck (arrived ▸ sublist_cons_self i acks) }
  cases inv.phase with
  | level got old new split oldCopy newCopy ackCopy =>
    exact stale (ackCopy i (arrived ▸ mem_cons_self))
  | ahead x rest todo got copy old new split oldAck newAck =>
    cases old with
    | cons j old' =>
      obtain ⟨rfl, -⟩ := List.cons.inj (arrived.symm.trans split)
      exact stale (oldAck i mem_cons_self)
    | nil =>
      have copies : ∀ j ∈ i :: acks, j = x.1 := fun j mem =>
        newAck j (by rwa [← nil_append new, ← split, arrived])
      obtain rfl := copies i mem_cons_self
      have submitted := inv.ack_submitted (arrived ▸ mem_cons_self)
      refine ⟨?_, ?_, inv.last, ?_⟩
      · rw [State.submitted, submitted]
        exact inv.nodup
      · rw [State.submitted, submitted]
        exact inv.unused
      simp only [todo, find?_cons, eraseP_cons, decide_true, cond_true,
        Option.toList_some]
      refine .level got s.flight [] (by simp) (fun y mem => ?_) (by simp) (fun j mem => ?_)
      · simp [copy y mem]
      · simp [copies j (mem_cons_of_mem _ mem)]

end

/-- Every step keeps the invariant. -/
theorem Step.inv [DecidableEq ι] {s s' : State ι β} (step : Step start s s') (inv : Inv start s) :
    Inv start s' := by
  cases step with
  | submit x fresh used =>
    have submitted : s.done ++ (s.todo ++ [x]) = s.submitted ++ [x] := by simp [State.submitted]
    refine ⟨?_, ?_, inv.last, inv.phase.submit x⟩
    · rw [State.submitted, submitted, map_append]
      exact nodup_append.mpr ⟨inv.nodup, nodup_singleton _, fun i mem j same =>
        fun eq => fresh (by rwa [← mem_singleton.mp same, ← eq])⟩
    · rw [State.submitted, submitted, map_append, mem_append]
      rintro (old | new)
      · exact inv.unused old
      · exact used (mem_singleton.mp new).symm
  | send first => exact { inv with phase := inv.phase.send first }
  | loseData kept => exact { inv with phase := inv.phase.loseData kept }
  | loseAck kept => exact { inv with phase := inv.phase.loseAck kept }
  | receive arrived answered => exact inv.receive arrived answered
  | ack arrived => exact inv.ack arrived

end StopAndWait
