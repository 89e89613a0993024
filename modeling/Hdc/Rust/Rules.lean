import Hdc.Define
import Mathlib.Data.List.Infix

/-!
Forward rules of the Rust host (`HdcForwardInfoMap` in `common/forward.rs`).

One map holds the rules of all devices, by their text alone. A rule is looked for by a part of its
text, in whatever order the map gives its entries. `check_command` puts a terminator behind the text
of a rule that it registers.

* `removes_exactly_iff`: a removal takes away the rule that it names and no other one exactly if no
  two rules share a text and no other rule of the direction has the text as a part.
-/

namespace Hdc.Rust.Rules

open List

/-- `HdcForwardInfo`; the text has the direction in front. -/
structure HdcForwardInfo where
  sessionId : UInt32
  channelId : UInt32
  taskString : Bytes
deriving DecidableEq

/-- What `on_forward_success` reads from the first byte. -/
def HdcForwardInfo.forwardDirection (info : HdcForwardInfo) : Bool :=
  info.taskString.head? == some 49

/-- The text up to the terminator, if there is one. -/
def HdcForwardInfo.rule (info : HdcForwardInfo) : Bytes := info.taskString.takeWhile (· ≠ 0)

/-- `put`: the text is the key. -/
def put (map : List HdcForwardInfo) (info : HdcForwardInfo) : List HdcForwardInfo :=
  info :: map.filter (·.taskString ≠ info.taskString)

section

variable (rules map : List HdcForwardInfo) (text : Bytes) (direction : Bool)

/-- The text with its direction. -/
def taskString1 : Bytes := (if direction then str "1|" else str "0|") ++ text

/-- What `remove_forward` looks for. -/
def fits (info : HdcForwardInfo) : Bool :=
  taskString1 text direction <:+: info.taskString ∧ info.forwardDirection = direction

/-- `remove_forward`, for the order in which the map gives its entries. The lock is given up before
the rule is removed from what is the map by then. -/
def removeForward (now : List HdcForwardInfo) : Bool × List HdcForwardInfo :=
  match map.find? (fits text direction) with
  | none => (false, now)
  | some info => (now.any (·.taskString = info.taskString),
      now.filter (·.taskString ≠ info.taskString))

/-- Every rule is there; the call says whether one has the text, and takes that one away. -/
def Exact : Prop :=
  rules ⊆ map ∧ removeForward map text direction map =
    (rules.any (·.rule = taskString1 text direction),
      map.filter (·.rule ≠ taskString1 text direction))

end

/-- The map holds rules only, one for each text. -/
structure Holds (rules map : List HdcForwardInfo) : Prop where
  known : map ⊆ rules
  single : ∀ a ∈ map, ∀ b ∈ map, a.taskString = b.taskString → a = b
  texts : ∀ info ∈ rules, ∃ held ∈ map, held.taskString = info.taskString

theorem holds_put (rules : List HdcForwardInfo) : Holds rules (rules.foldl put []) := by
  induction rules using reverseRecOn with
  | nil => exact ⟨nofun, nofun, nofun⟩
  | append_singleton rules new ih =>
    rw [foldl_append, foldl_cons, foldl_nil]
    constructor
    · intro info mem
      have := @ih.known info
      grind [put]
    · grind [put, ih.single]
    · grind [put, ih.texts]

variable {rules map : List HdcForwardInfo} {text : Bytes} {direction : Bool} {info : HdcForwardInfo}

theorem fits_named (named : info.rule = taskString1 text direction) :
    fits text direction info = true := by
  obtain ⟨rest, whole⟩ : taskString1 text direction <+: info.taskString :=
    named ▸ takeWhile_prefix _
  refine decide_eq_true ⟨⟨[], rest, whole⟩, ?_⟩
  rw [HdcForwardInfo.forwardDirection, ← whole]
  cases direction <;> rfl

theorem exact_of_held (held : ∀ info, info ∈ map ↔ info ∈ rules)
    (single : ∀ a ∈ map, ∀ b ∈ map, a.taskString = b.taskString → a = b)
    (whole : ∀ info ∈ rules, fits text direction info = true →
      ∀ other ∈ rules, other.rule = taskString1 text direction ↔ other = info) :
    Exact rules map text direction := by
  refine ⟨fun info mem => (held info).mpr mem, ?_⟩
  rw [removeForward]
  cases found : map.find? (fits text direction) with
  | none =>
    rw [find?_eq_none] at found
    have unnamed : ∀ info ∈ map, info.rule ≠ taskString1 text direction :=
      fun info mem named => found info mem (fits_named named)
    refine Prod.ext ?_ ?_
    · simpa [← held] using unnamed
    · exact (filter_eq_self.mpr fun info mem => decide_eq_true (unnamed info mem)).symm
  | some info =>
    have mem := mem_of_find?_eq_some found
    have named := whole info ((held info).mp mem) (find?_some found)
    have known := (held info).mp mem
    refine Prod.ext ?_ (filter_congr fun other inside => ?_)
    · exact (any_eq_true.mpr ⟨info, mem, decide_eq_true rfl⟩).trans
        (any_eq_true.mpr ⟨info, known, decide_eq_true ((named info known).mpr rfl)⟩).symm
    · have same : other.taskString = info.taskString ↔ other = info :=
        ⟨single other inside info mem, fun same => same ▸ rfl⟩
      simp [same, named other ((held other).mp inside)]

/-- The condition is on the rules: the order of the map does not come into it. -/
theorem removes_exactly_iff (rules : List HdcForwardInfo) (text : Bytes) (direction : Bool) :
    (∀ map, map.Perm (rules.foldl put []) → Exact rules map text direction) ↔
      (∀ a ∈ rules, ∀ b ∈ rules, a.taskString = b.taskString → a = b) ∧
      ∀ info ∈ rules, fits text direction info = true →
        ∀ other ∈ rules, other.rule = taskString1 text direction ↔ other = info := by
  have holds := holds_put rules
  constructor
  · intro exact
    have coexist := (exact _ (.refl _)).1
    refine ⟨fun a memA b memB => holds.single a (coexist memA) b (coexist memB), ?_⟩
    intro info mem fitting other known
    -- an order that gives this rule first
    obtain ⟨before, after, split⟩ := append_of_mem (coexist mem)
    have order : (info :: (before ++ after)).Perm (rules.foldl put []) := split ▸ perm_middle.symm
    have removed := (exact (info :: (before ++ after)) order).2
    rw [removeForward, find?_cons_of_pos fitting] at removed
    have left := congrArg (other ∈ ·) (Prod.mk.inj removed).2
    have inside : other ∈ info :: (before ++ after) := order.mem_iff.mpr (coexist known)
    simp only [mem_filter, inside, true_and, decide_eq_true_eq, eq_iff_iff] at left
    refine (not_iff_not.mp left).symm.trans ?_
    exact ⟨holds.single other (coexist known) info (coexist mem), fun same => same ▸ rfl⟩
  · rintro ⟨distinct, whole⟩ map same
    refine exact_of_held (fun info => same.mem_iff.trans ⟨@holds.known info, fun mem => ?_⟩) ?_ whole
    · obtain ⟨held, inside, text⟩ := holds.texts info mem
      exact distinct held (holds.known inside) info mem text ▸ inside
    · exact fun a memA b memB => holds.single a (same.mem_iff.mp memA) b (same.mem_iff.mp memB)

/-- The rule for another port goes. -/
theorem longer_rule_removed : ¬ Exact [⟨1, 1, str "1|tcp:1 tcp:22" ++ [0]⟩]
    [⟨1, 1, str "1|tcp:1 tcp:22" ++ [0]⟩] (str "tcp:1 tcp:2") true := by
  rintro ⟨-, removed⟩
  revert removed
  decide

end Hdc.Rust.Rules
