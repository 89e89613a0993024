import Hdc.Define
import Mathlib.Algebra.Order.Group.Multiset
import Mathlib.Logic.Relation
import Mathlib.Tactic.Abel

/-!
The order in which data of one channel is written by the Rust implementation (`daemon_lib/mod.rs`,
`transfer/base.rs`, `forward.rs`, `task.rs`, `shell.rs`).

A frame is unpacked in a spawned task (over USB and UART; over TCP the reader does it), sent through
a queue, and handled in a task that is spawned for it alone, which writes it. Between spawned tasks
there is no order. `subprocess_task` writes no frame that holds a ctrl-D or a ctrl-C: the first ends
the terminal, the second becomes a signal.

* `reaches_of_perm`, `perm_of_reaches`: what is written is any order of the frames;
* `taken_of_written`: nothing is left out exactly if every frame is taken;
* `ordered_iff`: every schedule writes them as they came exactly if all are taken and their order
  does not matter.
-/

namespace Hdc.Rust.Ordering

open List

/-- Where the data goes: the socket of `write_forward_bufer`, or the terminal of `PtyMap`. -/
inductive Sink
  | forward
  | shell
deriving DecidableEq

/-- The bytes of ctrl-C and ctrl-D. -/
def ctrlC : UInt8 := 0x3
def ctrlD : UInt8 := 0x4

/-- What is written when the frames are handled in this order. -/
def written : Sink → List Bytes → Bytes
  | _, [] => []
  | .forward, payload :: rest => payload ++ written .forward rest
  | .shell, payload :: rest =>
    -- ends the loop, and `PtyMap` knows the terminal no more
    if payload.contains ctrlD then []
    else if payload.contains ctrlC then written .shell rest
    else payload ++ written .shell rest

/-- Whether the frame is data for the sink. -/
def Sink.takes : Sink → Bytes → Bool
  | .forward, _ => true
  | .shell, payload => !payload.contains ctrlD && !payload.contains ctrlC

/-- The frames that are still to be read, in the tasks that unpack them, in the queue, in the tasks
that dispatch them, and those that were handled. -/
structure State where
  incoming : List Bytes
  unpacking : Multiset Bytes
  queue : List Bytes
  dispatching : Multiset Bytes
  handled : List Bytes

def State.start (frames : List Bytes) : State := ⟨frames, 0, [], 0, []⟩

/-- One step of the reader, of a task or of the loop behind the queue. -/
inductive Step : Bool → State → State → Prop
  | readSpawned {payload rest un q di ha} :
    Step true ⟨payload :: rest, un, q, di, ha⟩ ⟨rest, payload ::ₘ un, q, di, ha⟩
  | unpack {i payload un q di ha} :
    Step true ⟨i, payload ::ₘ un, q, di, ha⟩ ⟨i, un, q ++ [payload], di, ha⟩
  | receive {i un payload q di ha} :
    Step true ⟨i, un, payload :: q, di, ha⟩ ⟨i, un, q, payload ::ₘ di, ha⟩
  | read {payload rest un q di ha} :
    Step false ⟨payload :: rest, un, q, di, ha⟩ ⟨rest, un, q, payload ::ₘ di, ha⟩
  | dispatch {spawned i un q payload di ha} :
    Step spawned ⟨i, un, q, payload ::ₘ di, ha⟩ ⟨i, un, q, di, ha ++ [payload]⟩

abbrev Reaches (spawned : Bool) : State → State → Prop := Relation.ReflTransGen (Step spawned)

/-- Every frame was handled. -/
def State.done (frames : List Bytes) : State := ⟨[], 0, [], 0, frames⟩

/-! ### Schedules -/

def State.all (s : State) : Multiset Bytes :=
  s.incoming + s.unpacking + s.queue + s.dispatching + s.handled

variable {spawned : Bool}

theorem Step.all_eq {s t : State} (step : Step spawned s t) : t.all = s.all := by
  cases step <;> simp only [State.all, ← Multiset.coe_add, ← Multiset.cons_coe, Multiset.coe_nil,
    ← Multiset.singleton_add] <;> abel

variable {frames : List Bytes}

theorem perm_of_reaches {handled : List Bytes}
    (run : Reaches spawned (.start frames) (.done handled)) : handled.Perm frames := by
  have all : ∀ {s t}, Reaches spawned s t → t.all = s.all := by
    intro s t run
    induction run with
    | refl => rfl
    | tail _ step ih => exact step.all_eq.trans ih
  simpa [State.all, State.start, State.done] using all run

/-- Frames that move one by one from one place to another. -/
theorem reaches_phase (place : List Bytes → List Bytes → State)
    (each : ∀ moved payload todo, Step spawned (place moved (payload :: todo))
    (place (moved ++ [payload]) todo)) (moved todo : List Bytes) :
    Reaches spawned (place moved todo) (place (moved ++ todo) []) := by
  induction todo generalizing moved with
  | nil => rw [append_nil]
  | cons payload todo ih =>
    have rest := ih (moved ++ [payload])
    rw [append_assoc] at rest
    exact .head (each _ payload _) rest

/-- The spawned tasks may run in any order. -/
theorem reaches_of_perm (spawned : Bool) {order : List Bytes} (perm : order.Perm frames) :
    Reaches spawned (.start frames) (.done order) := by
  have spawn : ∀ (moved : List Bytes) (payload : Bytes),
      Multiset.ofList (moved ++ [payload]) = payload ::ₘ moved := fun moved payload =>
    Multiset.coe_eq_coe.mpr (perm_append_singleton payload moved)
  have same : (frames : Multiset Bytes) = order := (Multiset.coe_eq_coe.mpr perm).symm
  refine .trans ?_ (reaches_phase (fun moved todo => ⟨[], 0, [], _, _⟩)
    (fun moved payload todo => @Step.dispatch spawned [] 0 [] payload todo moved) [] order)
  cases spawned with
  | false =>
    have read := @reaches_phase false (fun moved todo => ⟨todo, 0, [], moved, []⟩)
      (fun moved payload _ => spawn moved payload ▸ .read) [] frames
    rwa [nil_append, same] at read
  | true =>
    have read := @reaches_phase true (fun moved todo => ⟨todo, moved, [], 0, []⟩)
      (fun moved payload _ => spawn moved payload ▸ .readSpawned) [] frames
    have unpacked := @reaches_phase true (fun moved todo => ⟨[], todo, moved, 0, []⟩)
      (fun moved payload todo => @Step.unpack [] payload todo moved 0 []) [] order
    have received := @reaches_phase true (fun moved todo => ⟨[], 0, todo, moved, []⟩)
      (fun moved payload _ => spawn moved payload ▸ .receive) [] order
    rw [nil_append, same] at read
    exact (read.trans unpacked).trans received

/-! ### What the order changes -/

theorem written_eq {sink : Sink} (taken : ∀ payload ∈ frames, sink.takes payload) :
    written sink frames = frames.flatten := by
  induction frames with
  | nil => cases sink <;> rfl
  | cons payload rest ih =>
    obtain ⟨first, others⟩ := forall_mem_cons.mp taken
    rw [flatten_cons, ← ih others]
    cases sink with
    | forward => rfl
    | shell =>
      obtain ⟨noD, noC⟩ : ctrlD ∉ payload ∧ ctrlC ∉ payload := by simpa [Sink.takes] using first
      simp [written, noD, noC]

theorem length_written_le (sink : Sink) (frames : List Bytes) :
    (written sink frames).length ≤ frames.flatten.length := by
  induction frames with
  | nil => cases sink <;> exact Nat.le_refl 0
  | cons payload rest ih =>
    cases sink <;> simp only [written, flatten_cons, length_append] <;> grind

/-- A frame that is not taken has a byte that is missing. -/
theorem taken_of_written {sink : Sink} (whole : written sink frames = frames.flatten) :
    ∀ payload ∈ frames, sink.takes payload := by
  induction frames with
  | nil => exact fun _ mem => absurd mem not_mem_nil
  | cons payload rest ih =>
    cases sink with
    | forward => exact fun _ _ => rfl
    | shell =>
      have shorter := length_written_le .shell rest
      have length := congrArg List.length whole
      simp only [written, flatten_cons, length_append] at length whole
      have noD : ctrlD ∉ payload := fun mem => by
        have := length_pos_of_mem mem
        simp only [contains_iff_mem.mpr mem, if_true, length_nil] at length
        omega
      have noC : ctrlC ∉ payload := fun mem => by
        have := length_pos_of_mem mem
        simp only [contains_iff_mem, mem, noD, if_true, if_false] at length
        omega
      simp only [contains_iff_mem, noD, noC, if_false] at whole
      refine forall_mem_cons.mpr ⟨?_, ih (append_cancel_left whole)⟩
      simp [Sink.takes, noD, noC]

theorem flatten_perm {order : List Bytes} (perm : order.Perm frames)
    (commute : order.Pairwise fun p q => p ++ q = q ++ p) : order.flatten = frames.flatten := by
  induction perm with
  | nil => rfl
  | cons payload _ ih => rw [flatten_cons, flatten_cons, ih commute.of_cons]
  | swap p q rest =>
    have both : q ++ p = p ++ q := (pairwise_cons.mp commute).1 p (by simp)
    simp only [flatten_cons, ← append_assoc, both]
  | trans first _ ih₁ ih₂ =>
    exact (ih₁ commute).trans (ih₂ ((first.pairwise_iff Eq.symm).mp commute))

/-- Whatever the schedule, the frames are written one behind the other as they came, exactly if all
of them are data for the sink and no two can be told apart by their order. -/
theorem ordered_iff (spawned : Bool) (sink : Sink) (frames : List Bytes) :
    (∀ handled, Reaches spawned (.start frames) (.done handled) →
      written sink handled = frames.flatten) ↔
      (∀ payload ∈ frames, sink.takes payload) ∧ frames.Pairwise fun p q => p ++ q = q ++ p := by
  constructor
  · intro ordered
    have each : ∀ {order : List Bytes}, order.Perm frames → written sink order = frames.flatten :=
      fun perm => ordered _ (reaches_of_perm spawned perm)
    have taken := taken_of_written (each (.refl _))
    refine ⟨taken, pairwise_iff_forall_sublist.mpr fun {p q} sub => ?_⟩
    obtain ⟨rest, perm⟩ := sub.exists_perm_append
    have flat : ∀ {order : List Bytes}, order.Perm frames → order.flatten = frames.flatten :=
      fun perm => (written_eq fun payload mem => taken payload (perm.mem_iff.mp mem)) ▸ each perm
    have first := flat perm.symm
    have second := flat ((List.Perm.swap p q rest).trans perm.symm)
    have both : (p ++ q) ++ rest.flatten = (q ++ p) ++ rest.flatten := by
      simpa using first.trans second.symm
    exact append_cancel_right both
  · rintro ⟨taken, commute⟩ handled run
    have perm := perm_of_reaches run
    rw [written_eq fun payload mem => taken payload (perm.mem_iff.mp mem)]
    exact flatten_perm perm ((perm.pairwise_iff Eq.symm).mpr commute)

/-- Two frames of a forwarded socket change places. -/
theorem frames_overtake :
    Reaches false (.start [str "ab", str "cd"]) (.done [str "cd", str "ab"]) ∧
      written .forward [str "cd", str "ab"] = str "cdab" ∧
      [str "ab", str "cd"].flatten = str "abcd" ∧ str "cdab" ≠ str "abcd" :=
  ⟨reaches_of_perm false (.swap ..), by decide, by decide, by decide⟩

end Hdc.Rust.Ordering
