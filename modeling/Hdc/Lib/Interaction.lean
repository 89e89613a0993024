import Mathlib.Data.List.Basic

/-!
Programs that ask the outside.

A program either is done or asks something and goes on with the answer. At every call any answer of
the right type is possible. What a program does in every world is a statement about its runs, lists
of calls with their answers.

* `Runs`: the runs of a program, those included that are cut short;
* `Always`: what holds of every call and of every result, read off the program; `always_bind` is
  exact, so specifications compose without loss;
* `Always.of_runs`: a specification holds along every run.
-/

namespace Interaction

/-- A program over calls `C`, answered in `A`. -/
inductive Prog (C : Type) (A : C → Type) (α : Type) where
  | done (value : α)
  | ask (call : C) (next : A call → Prog C A α)

variable {C : Type} {A : C → Type} {α β γ : Type}

namespace Prog

def bind : Prog C A α → (α → Prog C A β) → Prog C A β
  | .done value, f => f value
  | .ask call next, f => .ask call fun answer => (next answer).bind f

instance : Monad (Prog C A) where
  pure := .done
  bind := bind

/-- A single call. -/
def call (c : C) : Prog C A (A c) := .ask c .done

/-- Two parts that report success: the second one runs where the first succeeds. -/
def andThen (first : Prog C A (Bool × α)) (second : α → Prog C A (Bool × α)) :
    Prog C A (Bool × α) :=
  first.bind fun out => if out.1 then second out.2 else .done out

end Prog

/-- A call with its answer. -/
abbrev Event (C : Type) (A : C → Type) := (c : C) × A c

/-- The runs of a program. A run may stop anywhere, then it has no result. -/
inductive Runs : Prog C A α → List (Event C A) → Option α → Prop where
  | cut (p : Prog C A α) : Runs p [] none
  | done (value : α) : Runs (.done value) [] (some value)
  | ask {c : C} {next : A c → Prog C A α} {trace : List (Event C A)} {result : Option α}
      (answer : A c) (rest : Runs (next answer) trace result) :
      Runs (.ask c next) (⟨c, answer⟩ :: trace) result

/-! ### Sequencing -/

variable {p : Prog C A α} {f : α → Prog C A β}

theorem Runs.bind {before after : List (Event C A)}
    {value : α} {result : Option β} (first : Runs p before (some value))
    (second : Runs (f value) after result) : Runs (p >>= f) (before ++ after) result := by
  generalize ended : some value = out at first
  induction first with
  | cut p => cases ended
  | done other =>
    cases ended
    exact second
  | ask answer rest ih => exact .ask _ (ih ended)

variable {trace : List (Event C A)}

/-- A run of a sequence that delivers a result is a run of each part. -/
theorem Runs.bind_inv {result : β} (run : Runs (p >>= f) trace (some result)) :
    ∃ before after value, trace = before ++ after ∧ Runs p before (some value) ∧
    Runs (f value) after (some result) := by
  induction p generalizing trace with
  | done value => exact ⟨[], _, _, rfl, .done _, run⟩
  | ask c next ih =>
    cases run with
    | ask answer rest =>
      obtain ⟨before, after, value, rfl, first, second⟩ := ih answer rest
      exact ⟨⟨c, _⟩ :: before, _, _, rfl, .ask _ first, second⟩

theorem Runs.call (c : C) (answer : A c) :
    Runs (Prog.call c : Prog C A (A c)) [⟨c, answer⟩] (some answer) :=
  .ask _ (.done _)

/-- Where both parts succeed. -/
theorem Runs.andThen_inv {p : Prog C A (Bool × α)} {f : α → Prog C A (Bool × α)}
    {result : α} (run : Runs (p.andThen f) trace (some (true, result))) :
    ∃ before after value, trace = before ++ after ∧ Runs p before (some (true, value)) ∧
    Runs (f value) after (some (true, result)) := by
  obtain ⟨before, after, ⟨ok, value⟩, rfl, first, second⟩ := Runs.bind_inv run
  cases ok with
  | true => exact ⟨_, _, _, rfl, first, second⟩
  | false => cases second

/-! ### What every run does -/

/-- Every call and its answer satisfy `P`, every result satisfies `Q`. -/
def Always (P : Event C A → Prop) (Q : α → Prop) : Prog C A α → Prop
  | .done value => Q value
  | .ask c next => ∀ answer, P ⟨c, answer⟩ ∧ Always P Q (next answer)

section Rules

variable {P : Event C A → Prop} {Q : α → Prop} {R : β → Prop}

@[simp] theorem always_pure (value : α) : Always P Q (pure value : Prog C A α) ↔ Q value := Iff.rfl

theorem always_bind (p : Prog C A α) (f : α → Prog C A β) :
    Always P R (p >>= f) ↔ Always P (fun value => Always P R (f value)) p := by
  induction p with
  | done value => exact Iff.rfl
  | ask c next ih => exact forall_congr' fun answer => and_congr_right fun _ => ih _

theorem Always.mono {Q' : α → Prop} (spec : Always P Q p)
    (weaker : ∀ value, Q value → Q' value) : Always P Q' p := by
  induction p with
  | done value => exact weaker _ spec
  | ask c next ih => exact fun answer => ⟨(spec _).1, ih _ (spec _).2⟩

/-- A part with its own specification, and what follows with the rest of it. -/
theorem Always.bind (first : Always P Q p)
    (second : ∀ value, Q value → Always P R (f value)) : Always P R (p >>= f) :=
  (always_bind p f).mpr (first.mono second)

/-- The second part may rely on the success of the first. -/
theorem Always.andThen {Q : Bool × α → Prop} {R : Bool × α → Prop} {p : Prog C A (Bool × α)}
    {f : α → Prog C A (Bool × α)} (first : Always P Q p)
    (second : ∀ value, Q (true, value) → Always P R (f value))
    (stopped : ∀ value, Q (false, value) → R (false, value)) : Always P R (p.andThen f) := by
  refine first.bind fun out holds => ?_
  obtain ⟨ok, value⟩ := out
  cases ok with
  | true => exact second _ holds
  | false => exact stopped _ holds

/-- A specification holds along every run. -/
theorem Always.of_runs {result : Option α} (spec : Always P Q p) (run : Runs p trace result) :
    (∀ event ∈ trace, P event) ∧ ∀ value, result = some value → Q value := by
  induction run with
  | cut p => exact ⟨by simp, by simp⟩
  | done value =>
    refine ⟨by simp, fun other same => ?_⟩
    obtain rfl := Option.some.inj same
    exact spec
  | ask answer rest ih =>
    obtain ⟨here, later⟩ := spec answer
    obtain ⟨calls, results⟩ := ih later
    exact ⟨List.forall_mem_cons.mpr ⟨here, calls⟩, results⟩

end Rules

/-! ### A world that answers -/

/-- The run in a world that answers from the calls so far; it ends early at a call
without an answer. -/
def exec (world : List (Event C A) → (c : C) → Option (A c)) :
    List (Event C A) → Prog C A α → List (Event C A) × Option α
  | _, .done value => ([], some value)
  | past, .ask c next =>
    match world past c with
    | none => ([], none)
    | some answer =>
      let rest := exec world (past ++ [⟨c, answer⟩]) (next answer)
      (⟨c, answer⟩ :: rest.1, rest.2)

theorem runs_exec (world : List (Event C A) → (c : C) → Option (A c)) (past : List (Event C A))
    (p : Prog C A α) : Runs p (exec world past p).1 (exec world past p).2 := by
  induction p generalizing past with
  | done value => exact .done _
  | ask c next ih =>
    rw [exec]
    cases world past c with
    | none => exact .cut _
    | some answer => exact .ask _ (ih _ _)

end Interaction
