import Hdc.Lib.ExactRuns
import Hdc.Uart.Endpoint

/-!
The slots of `HdcUARTBase`, for all sessions that share it.

A session is to have one data package in the table at a time: `SendUARTData` waits for the session's
slot, and the slot is given back when the package leaves the table. The slot and the table have a
lock each, so a call of `RequestSendPackage` can stand between the two; and the packages that are no
data are put into the table without a slot.

Two things go wrong. A package that is refused because its key is taken keeps the slot, so nobody
gets it again. And the slot is given back for packages that never took it: when a request to free
the session is acknowledged while data is on its way.

* `owed`: the data packages of a session in the table and on the way to it; `Inv` says that there is
  one of them exactly if the slot is taken;
* `slot_conservation`: so slots are conserved along the runs with fine operations only.
-/

namespace Hdc.Uart

open List

/-! ### State -/

/-- The packages that `RequestSendPackage` is given with `queue`. They are the ones of
`SendUARTData`, which sets no option but the tail; those of `ResponseUartTrans` are
responses, or ask for a session to be freed. -/
def UartHead.queued (head : UartHead) : Bool := !(head.isResponsePackage || head.has .free)

def HandleOutputPkg.queued (pkg : HandleOutputPkg) : Bool := pkg.head.queued

/-- What `HdcUARTBase` keeps of all its sessions. `slots` is the set `hasWaitPkg` of
`TransferSlot`. The calls of `SendUARTData` that are under way wait for the slot, or hold
it and have not put their package into the table. -/
structure HdcUARTBase where
  outPkgs : List HandleOutputPkg
  slots : List UInt32
  packageIndex : UInt32 → Nat
  waiting : List Sending
  holding : List Sending

open HdcUARTBase

def HdcUARTBase.new : HdcUARTBase :=
  { outPkgs := [], slots := [], packageIndex := fun _ => 0, waiting := [], holding := [] }

namespace HdcUARTBase

/-! ### Operations -/

/-- `++packageIndex` of a session. -/
def takeIndex (base : HdcUARTBase) (sessionId : UInt32) : HdcUARTBase :=
  { base with
    packageIndex := fun other =>
      if other = sessionId then base.packageIndex sessionId + 1 else base.packageIndex other }

/-- `SendUARTData` with the next index, up to the slot. -/
def sendUARTData (base : HdcUARTBase) (sessionId : UInt32) (data : Bytes) : HdcUARTBase :=
  { base.takeIndex sessionId with
    waiting := base.waiting ++ [.next sessionId (base.packageIndex sessionId + 1) data] }

/-- `slots.Wait` for the `i`-th call, which goes on if the slot is free. -/
def wait (base : HdcUARTBase) (i : Nat) : HdcUARTBase :=
  match base.waiting[i]? with
  | none => base
  | some sending =>
    if sending.head.sessionId ∈ base.slots then base
    else
      { base with
        waiting := base.waiting.eraseIdx i
        holding := base.holding ++ [sending]
        slots := sending.head.sessionId :: base.slots }

/-- The rest of `RequestSendPackage` for a call that holds the slot; the loop of
`SendUARTData` goes on with the rest of its data. -/
def request (base : HdcUARTBase) (i : Nat) : HdcUARTBase :=
  match base.holding[i]? with
  | none => base
  | some sending =>
    let base :=
      { base with
        holding := base.holding.eraseIdx i
        outPkgs := requestSendPackage base.outPkgs sending.head sending.payload }
    if sending.rest = [] then base else base.sendUARTData sending.head.sessionId sending.rest

/-- The options of packages that pass by the slot. -/
inductive Bypass where
  | ack
  | free
deriving DecidableEq, Repr

def Bypass.option : Bypass → UartProtocolOption
  | .ack => .ack
  | .free => .free

/-- `ResponseUartTrans`. -/
def responseUartTrans (base : HdcUARTBase) (sessionId packageIndex : UInt32) (option : Bypass) :
    HdcUARTBase :=
  { base with
    outPkgs :=
      requestSendPackage base.outPkgs (.new sessionId option.option.bit 0 packageIndex) [] }

/-- A new `HdcUART` for a session. -/
def newSession (base : HdcUARTBase) (sessionId : UInt32) : HdcUARTBase :=
  { base with
    packageIndex := fun other => if other = sessionId then 0 else base.packageIndex other }

/-- `slots.Free`. -/
def free (base : HdcUARTBase) (sessionId : UInt32) : List UInt32 :=
  base.slots.filter (· ≠ sessionId)

/-- `ProcessResponsePackage`. -/
def processResponsePackage (base : HdcUARTBase) (head : UartHead) : HdcUARTBase :=
  { base with
    outPkgs := Uart.processResponsePackage head base.outPkgs
    slots :=
      match responseTarget base.outPkgs head with
      | none => base.slots
      | some pkg => if head.has .ack then base.free pkg.sessionId else base.slots }

/-- `ClearUARTOutMapRaw`: the slot is given back for each package that is no response. -/
def clearUARTOutMap (base : HdcUARTBase) (sessionId : UInt32) : HdcUARTBase :=
  { base with
    outPkgs := base.outPkgs.filter (·.sessionId ≠ sessionId)
    slots :=
      if base.outPkgs.any fun pkg => pkg.sessionId = sessionId && !pkg.response then
        base.free sessionId
      else base.slots }

/-- The session on which `SendPkgInUARTOutMap` calls `OnTransferErrorRaw`. A failed write is one of a
session that was found; after the last retry it is looked up. -/
def stopSession (raw : HandleOutputPkg → SendResult) (found : UInt32 → Bool) (now : Nat)
    (outPkgs : List HandleOutputPkg) : Option UInt32 :=
  ((sendLoop raw now [] outPkgs).stopped.filter fun pkg =>
    pkg.pkgStatus = .waitSend || found pkg.sessionId).map HandleOutputPkg.sessionId

/-- `SendPkgInUARTOutMap`; `raw` is what writing a package comes to, and `found` says which
sessions `GetSession` finds. -/
def sendPkgInUARTOutMap (base : HdcUARTBase) (raw : HandleOutputPkg → SendResult)
    (found : UInt32 → Bool) (now : Nat) : HdcUARTBase :=
  let after := { base with outPkgs := (sendLoop raw now [] base.outPkgs).outPkgs }
  match stopSession raw found now base.outPkgs with
  | none => after
  | some sessionId => after.clearUARTOutMap sessionId

end HdcUARTBase

/-- The operations, in the steps that the two locks leave undivided. -/
inductive Op where
  | sendUARTData (sessionId : UInt32) (data : Bytes)
  | wait (i : Nat)
  | request (i : Nat)
  | responseUartTrans (sessionId packageIndex : UInt32) (option : HdcUARTBase.Bypass)
  | takeIndex (sessionId : UInt32)
  | newSession (sessionId : UInt32)
  | processResponsePackage (head : UartHead)
  | clearUARTOutMap (sessionId : UInt32)
  | sendPkgInUARTOutMap (raw : HandleOutputPkg → SendResult) (found : UInt32 → Bool) (now : Nat)

namespace HdcUARTBase

def step (base : HdcUARTBase) : Op → HdcUARTBase
  | .sendUARTData sessionId data => base.sendUARTData sessionId data
  | .wait i => base.wait i
  | .request i => base.request i
  | .responseUartTrans sessionId packageIndex option =>
    base.responseUartTrans sessionId packageIndex option
  | .takeIndex sessionId => base.takeIndex sessionId
  | .newSession sessionId => base.newSession sessionId
  | .processResponsePackage head => base.processResponsePackage head
  | .clearUARTOutMap sessionId => base.clearUARTOutMap sessionId
  | .sendPkgInUARTOutMap raw found now => base.sendPkgInUARTOutMap raw found now

/-- The state after some operations. -/
def run (ops : List Op) : HdcUARTBase := ops.foldl step .new

/-! ### Conservation -/

/-- The session has a data package in the table, or on the way to it with the slot. -/
def Outstanding (base : HdcUARTBase) (sessionId : UInt32) : Prop :=
  (∃ pkg ∈ base.outPkgs, pkg.sessionId = sessionId ∧ pkg.queued = true) ∨
    ∃ sending ∈ base.holding, sending.head.sessionId = sessionId

/-- A session's slot is taken exactly if it has a package outstanding. -/
def Conserved (base : HdcUARTBase) : Prop :=
  ∀ sessionId, sessionId ∈ base.slots ↔ base.Outstanding sessionId

/-- The table can be cleared of a session without giving back a slot that a call holds. -/
def ClearFine (base : HdcUARTBase) (sessionId : UInt32) : Prop :=
  (∃ pkg ∈ base.outPkgs, pkg.sessionId = sessionId ∧ pkg.response = false) →
    ∀ sending ∈ base.holding, sending.head.sessionId ≠ sessionId

/-- The operations that keep slots: a data package finds its key free, an ACK is for a data
package or for a session whose slot is not taken, and a session is not cleared while a call
of it holds the slot and another package of it waits for a response. -/
def Fine (base : HdcUARTBase) : Op → Prop
  | .request i => ∀ sending, base.holding[i]? = some sending → ∀ pkg ∈ base.outPkgs,
      pkg.key ≠ sending.head.toPkgIdentityString false
  | .processResponsePackage head => head.has .ack = true → ∀ pkg,
      responseTarget base.outPkgs head = some pkg →
        pkg.queued = true ∨ pkg.sessionId ∉ base.slots
  | .clearUARTOutMap sessionId => base.ClearFine sessionId
  | .sendPkgInUARTOutMap raw found now => ∀ sessionId,
      stopSession raw found now base.outPkgs = some sessionId → base.ClearFine sessionId
  | _ => True

/-! ### What is owed -/

/-- A data package of a session. -/
def counted (sessionId : UInt32) (pkg : HandleOutputPkg) : Bool :=
  pkg.sessionId = sessionId && pkg.queued

/-- The data packages of a session in the table and on the way to it. -/
def owed (base : HdcUARTBase) (sessionId : UInt32) : Nat :=
  base.outPkgs.countP (counted sessionId) + base.holding.countP (·.head.sessionId = sessionId)

theorem outstanding_iff (base : HdcUARTBase) (sessionId : UInt32) :
    base.Outstanding sessionId ↔ 0 < base.owed sessionId := by
  simp only [Outstanding, owed, counted, Nat.add_pos_iff_pos_or_pos, countP_pos_iff, Bool.and_eq_true,
    decide_eq_true_eq]

/-- One package is owed exactly if the slot is taken; and calls under way bring data. -/
structure Inv (base : HdcUARTBase) : Prop where
  slot : ∀ sessionId, base.owed sessionId = if sessionId ∈ base.slots then 1 else 0
  waiting : ∀ sending ∈ base.waiting, sending.head.queued = true
  holding : ∀ sending ∈ base.holding, sending.head.queued = true

theorem inv_new : Inv .new where
  slot _ := rfl
  waiting := nofun
  holding := nofun

theorem Inv.conserved {base : HdcUARTBase} (inv : Inv base) : base.Conserved := by
  intro sessionId
  rw [outstanding_iff, inv.slot]
  split
  case isTrue mem => exact iff_of_true mem Nat.one_pos
  case isFalse absent => exact iff_of_false absent (Nat.lt_irrefl 0)

/-- Of a head only the option says whether it is data. -/
theorem queued_new (sessionId : UInt32) (option : UInt16) (dataSize packageIndex : UInt32) :
    (UartHead.new sessionId option dataSize packageIndex).queued =
    (UartHead.new 0 option 0 0).queued := rfl

theorem queued_next (sessionId : UInt32) (packageIndex : Nat) (data : Bytes) :
    (Sending.next sessionId packageIndex data).head.queued = true := by
  unfold Sending.next
  rw [queued_new]
  split <;> decide

theorem not_response_of_queued {head : UartHead} (queued : head.queued = true) :
    head.isResponsePackage = false := by
  simp only [UartHead.queued, Bool.not_eq_true', Bool.or_eq_false_iff] at queued
  exact queued.1

/-! ### Operations on the table -/

section Table

variable (sessionId : UInt32)

/-- A package that is put into the table counts if it is data. -/
theorem countP_requestSendPackage (outPkgs : List HandleOutputPkg) (head : UartHead)
    (payload : Bytes) :
    (requestSendPackage outPkgs head payload).countP (counted sessionId) =
      outPkgs.countP (counted sessionId) +
        if (∀ pkg ∈ outPkgs, pkg.key ≠ head.toPkgIdentityString head.isResponsePackage) ∧
          head.sessionId = sessionId ∧ head.queued = true then 1 else 0 := by
  have sum : ((head.updateCheckSum payload).sessionId = head.sessionId) ∧
      (head.updateCheckSum payload).queued = head.queued := by
    unfold UartHead.updateCheckSum
    split <;> exact ⟨rfl, rfl⟩
  unfold requestSendPackage
  split
  case isTrue taken =>
    obtain ⟨pkg, mem, same⟩ := any_eq_true.mp taken
    rw [if_neg fun apart => apart.1 pkg mem (beq_iff_eq.mp same), Nat.add_zero]
  case isFalse granted =>
    have apart : ∀ pkg ∈ outPkgs, pkg.key ≠ head.toPkgIdentityString head.isResponsePackage := by
      intro pkg mem same
      exact granted (any_eq_true.mpr ⟨_, mem, beq_iff_eq.mpr same⟩)
    rw [countP_append, countP_singleton]
    simp only [counted, HandleOutputPkg.new, HandleOutputPkg.sessionId, HandleOutputPkg.queued, sum,
      Bool.and_eq_true, decide_eq_true_eq, eq_true apart, true_and]

theorem responseTarget_cons (pkg : HandleOutputPkg) (outPkgs : List HandleOutputPkg)
    (head : UartHead) : responseTarget (pkg :: outPkgs) head =
      if pkg.key == head.toPkgIdentityString false then some pkg
      else responseTarget outPkgs head := by
  rw [responseTarget, find?_cons]
  cases pkg.key == head.toPkgIdentityString false <;> rfl

/-- A response that is no ACK changes no count, and neither does one without a match. -/
theorem countP_processResponsePackage {head : UartHead} (outPkgs : List HandleOutputPkg)
    (nak : head.has .ack = false ∨ responseTarget outPkgs head = none) :
    (Uart.processResponsePackage head outPkgs).countP (counted sessionId) =
    outPkgs.countP (counted sessionId) := by
  induction outPkgs with
  | nil => rfl
  | cons pkg outPkgs ih =>
    rw [Uart.processResponsePackage]
    split
    case isTrue same =>
      have noAck : head.has .ack = false := by
        refine nak.resolve_right fun none => ?_
        rw [responseTarget_cons, if_pos same] at none
        cases none
      rw [noAck]
      rfl
    case isFalse other =>
      rw [responseTarget_cons, if_neg other] at nak
      rw [countP_cons, countP_cons, ih nak]

/-- An ACK takes its match out of the table. -/
theorem perm_processResponsePackage {head : UartHead} {outPkgs : List HandleOutputPkg}
    {pkg : HandleOutputPkg} (ack : head.has .ack = true)
    (target : responseTarget outPkgs head = some pkg) :
    outPkgs.Perm (pkg :: Uart.processResponsePackage head outPkgs) := by
  induction outPkgs with
  | nil => cases target
  | cons other outPkgs ih =>
    rw [Uart.processResponsePackage]
    split
    case isTrue same =>
      rw [responseTarget_cons, if_pos same] at target
      obtain rfl := Option.some.inj target
      exact Perm.refl _
    case isFalse apart =>
      rw [responseTarget_cons, if_neg apart] at target
      exact ((ih target).cons _).trans (Perm.swap _ _ _)

section

variable (raw : HandleOutputPkg → SendResult) (now : Nat) (hasWaitPkg : List UInt32)
  (outPkgs : List HandleOutputPkg)
include raw now hasWaitPkg outPkgs

/-- Only responses leave the table in a pass, and heads do not change. -/
theorem countP_head_sendLoop {p : UartHead → Bool}
    (skips : ∀ head, head.isResponsePackage = true → ¬ p head = true) :
    (sendLoop raw now hasWaitPkg outPkgs).outPkgs.countP (fun pkg => p pkg.head) =
      outPkgs.countP fun pkg => p pkg.head := by
  induction outPkgs generalizing hasWaitPkg with
  | nil => rfl
  | cons pkg outPkgs ih =>
    rw [sendLoop]
    cases pkg.pkgStatus with
    | waitSend =>
      dsimp only
      split
      case isTrue => rw [Pass.keep, countP_cons, countP_cons, ih]
      case isFalse =>
        cases raw pkg with
        | failed => rfl
        | broken => rfl
        | sent =>
          dsimp only
          split
          case isTrue response =>
            rw [Pass.wrote, countP_cons, if_neg (skips _ response), ih]
            rfl
          case isFalse =>
            rw [Pass.wrote, Pass.keep, countP_cons, countP_cons, ih]
    | waitResponse =>
      dsimp only
      split
      case isTrue => split <;> rfl
      case isFalse => rw [Pass.keep, countP_cons, countP_cons, ih]

theorem countP_sendLoop : (sendLoop raw now hasWaitPkg outPkgs).outPkgs.countP (counted sessionId) =
    outPkgs.countP (counted sessionId) := by
  refine @countP_head_sendLoop _ _ _ _ (fun head => head.sessionId = sessionId && head.queued) ?_
  intro head response counts
  rw [Bool.and_eq_true] at counts
  rw [not_response_of_queued counts.2] at response
  cases response

/-- Packages that are no responses stay in the table during a pass. -/
theorem exists_sendLoop_iff : (∃ pkg ∈ (sendLoop raw now hasWaitPkg outPkgs).outPkgs,
    pkg.sessionId = sessionId ∧ pkg.response = false) ↔
    ∃ pkg ∈ outPkgs, pkg.sessionId = sessionId ∧ pkg.response = false := by
  have same := @countP_head_sendLoop raw now hasWaitPkg outPkgs
    (fun head => head.sessionId = sessionId && !head.isResponsePackage) (by simp +contextual)
  have positive := congrArg (0 < ·) same
  simpa [HandleOutputPkg.sessionId, HandleOutputPkg.response, countP_pos_iff] using positive

end

theorem countP_eq_zero {outPkgs : List HandleOutputPkg}
    (none : ¬ ∃ pkg ∈ outPkgs, pkg.sessionId = sessionId ∧ pkg.response = false) :
    outPkgs.countP (counted sessionId) = 0 := by
  refine List.countP_eq_zero.mpr fun pkg mem counts => none ⟨_, mem, ?_⟩
  simp only [counted, Bool.and_eq_true, decide_eq_true_eq] at counts
  exact ⟨counts.1, not_response_of_queued counts.2⟩

theorem countP_cleared (cleared : UInt32) (outPkgs : List HandleOutputPkg) :
    (outPkgs.filter (·.sessionId ≠ cleared)).countP (counted sessionId) =
      if sessionId = cleared then 0 else outPkgs.countP (counted sessionId) := by
  rw [countP_filter]
  split
  case isTrue same =>
    refine List.countP_eq_zero.mpr fun pkg _ counts => ?_
    subst same
    simp only [counted, Bool.and_eq_true, decide_eq_true_eq] at counts
    exact counts.2 counts.1.1
  case isFalse other =>
    refine countP_congr fun pkg _ => ?_
    simp only [counted, Bool.and_eq_true, decide_eq_true_eq, and_iff_left_iff_imp, and_imp]
    rintro rfl -
    exact other

end Table

variable {i : Nat}

theorem countP_eraseIdx {α : Type} (p : α → Bool) {xs : List α} {x : α}
    (found : xs[i]? = some x) : xs.countP p = (xs.eraseIdx i).countP p + if p x then 1 else 0 := by
  obtain ⟨inside, rfl⟩ := List.getElem?_eq_some_iff.mp found
  rw [← (getElem_cons_eraseIdx_perm inside).countP_eq, countP_cons]

/-! ### Steps -/

section Steps

variable {base : HdcUARTBase}

section

variable (inv : Inv base)
include inv

/-- The calls under way after one began. -/
theorem Inv.sendUARTData (sessionId : UInt32) (data : Bytes) :
    Inv (base.sendUARTData sessionId data) where
  slot := inv.slot
  waiting := forall_mem_append.mpr
    ⟨inv.waiting, forall_mem_singleton.mpr (queued_next _ _ _)⟩
  holding := inv.holding

theorem Inv.wait (i : Nat) : Inv (base.wait i) := by
  unfold HdcUARTBase.wait
  split
  case h_1 => exact inv
  case h_2 sending found =>
    split
    case isTrue => exact inv
    case isFalse free =>
      have mem := mem_of_getElem? found
      constructor
      · intro sessionId
        have before := inv.slot sessionId
        rw [owed] at before
        simp only [owed, countP_append, countP_singleton, mem_cons,
          decide_eq_true_eq]
        by_cases same : sending.head.sessionId = sessionId
        · subst same
          rw [if_neg free] at before
          simp only [true_or]
          omega
        · simp only [same, Ne.symm same, false_or]
          exact before
      · exact fun other inside => inv.waiting _ (mem_of_mem_eraseIdx inside)
      · exact forall_mem_append.mpr
          ⟨inv.holding, forall_mem_singleton.mpr (inv.waiting sending mem)⟩

/-- What is owed after a call went on with its package. -/
theorem owed_request {sending : Sending}
    (found : base.holding[i]? = some sending) (sessionId : UInt32) :
    (base.request i).owed sessionId + (if sending.head.sessionId = sessionId ∧
    ∃ pkg ∈ base.outPkgs, pkg.key = sending.head.toPkgIdentityString false then 1 else 0) =
    base.owed sessionId := by
  have queued := inv.holding sending (mem_of_getElem? found)
  have erased := countP_eraseIdx (·.head.sessionId = sessionId) found
  have unfolded : (base.request i).owed sessionId =
      (requestSendPackage base.outPkgs sending.head sending.payload).countP (counted sessionId) +
        (base.holding.eraseIdx i).countP (·.head.sessionId = sessionId) := by
    unfold request
    rw [found]
    dsimp only
    split <;> rfl
  rw [unfolded, countP_requestSendPackage, not_response_of_queued queued, owed, erased]
  simp only [queued, and_true, decide_eq_true_eq]
  by_cases same : sending.head.sessionId = sessionId
  · by_cases taken : ∃ pkg ∈ base.outPkgs, pkg.key = sending.head.toPkgIdentityString false
    · obtain ⟨pkg, mem, equal⟩ := taken
      rw [if_neg fun both => both.1 pkg mem equal, if_pos ⟨same, pkg, mem, equal⟩, if_pos same]
      omega
    · have free : ∀ pkg ∈ base.outPkgs, pkg.key ≠ sending.head.toPkgIdentityString false :=
        fun pkg mem equal => taken ⟨pkg, mem, equal⟩
      rw [if_pos ⟨free, same⟩, if_neg fun both => taken both.2, if_pos same]
      omega
  · rw [if_neg fun both => same both.2, if_neg fun both => same both.1, if_neg same]
    omega

/-- The slots and the calls that hold one, and those that wait, after a call went on. -/
theorem request_calls (i : Nat) : (base.request i).slots = base.slots ∧
    (∀ sending ∈ (base.request i).waiting, sending.head.queued = true) ∧
    ∀ sending ∈ (base.request i).holding, sending.head.queued = true := by
  unfold request
  split
  case h_1 => exact ⟨rfl, inv.waiting, inv.holding⟩
  case h_2 sending found =>
    have kept : ∀ other ∈ base.holding.eraseIdx i, other.head.queued = true := fun other inside =>
      inv.holding other (mem_of_mem_eraseIdx inside)
    split
    case isTrue => exact ⟨rfl, inv.waiting, kept⟩
    case isFalse => exact ⟨rfl, (inv.sendUARTData _ _).waiting, kept⟩

theorem Inv.request (fine : base.Fine (.request i)) : Inv (base.request i) := by
  obtain ⟨slots, waiting, holding⟩ := request_calls inv i
  refine ⟨fun sessionId => ?_, waiting, holding⟩
  rw [slots, ← inv.slot]
  cases found : base.holding[i]? with
  | none =>
    unfold HdcUARTBase.request
    rw [found]
  | some sending =>
    have owed := owed_request inv found sessionId
    rwa [if_neg fun both => absurd both.2 (by simpa using fine sending found)] at owed

/-- A package that is refused keeps the slot. -/
theorem not_conserved_request (bad : ¬ base.Fine (.request i)) :
    ¬ (base.request i).Conserved := by
  simp only [Fine, not_forall, Decidable.not_not] at bad
  obtain ⟨sending, found, pkg, mem, taken⟩ := bad
  have owed := owed_request inv found sending.head.sessionId
  rw [if_pos ⟨rfl, pkg, mem, taken⟩, inv.slot] at owed
  intro conserved
  have slot := conserved sending.head.sessionId
  rw [outstanding_iff, (request_calls inv i).1] at slot
  split at owed
  case isTrue marked =>
    have := slot.mp marked
    omega
  case isFalse => omega

theorem Inv.responseUartTrans (sessionId packageIndex : UInt32)
    (option : Bypass) : Inv (base.responseUartTrans sessionId packageIndex option) := by
  refine ⟨fun other => ?_, inv.waiting, inv.holding⟩
  have notData : (UartHead.new sessionId option.option.bit 0 packageIndex).queued = false := by
    rw [queued_new]
    cases option <;> decide
  rw [HdcUARTBase.owed, HdcUARTBase.responseUartTrans, countP_requestSendPackage, notData,
    if_neg fun all => Bool.false_ne_true all.2.2]
  exact inv.slot other

end

theorem mem_free {sessionId other : UInt32} :
    other ∈ base.free sessionId ↔ other ∈ base.slots ∧ other ≠ sessionId := by
  simp [free]

section

variable {head : UartHead} {pkg : HandleOutputPkg} (ack : head.has .ack = true)
  (target : responseTarget base.outPkgs head = some pkg)
include ack target

/-- What is owed after an ACK. -/
theorem owed_ack (sessionId : UInt32) : (base.processResponsePackage head).owed sessionId +
    (if counted sessionId pkg then 1 else 0) = base.owed sessionId := by
  have perm := (perm_processResponsePackage ack target).countP_eq (counted sessionId)
  rw [countP_cons] at perm
  rw [owed, owed, processResponsePackage]
  dsimp only
  omega

theorem slots_ack : (base.processResponsePackage head).slots = base.free pkg.sessionId := by
  rw [processResponsePackage, target]
  exact if_pos ack

end

theorem Inv.processResponsePackage (inv : Inv base) {head : UartHead}
    (fine : base.Fine (.processResponsePackage head)) : Inv (base.processResponsePackage head) := by
  refine ⟨fun sessionId => ?_, inv.waiting, inv.holding⟩
  by_cases matched : head.has .ack = true ∧ (responseTarget base.outPkgs head).isSome = true
  · obtain ⟨ack, some⟩ := matched
    obtain ⟨pkg, target⟩ := Option.isSome_iff_exists.mp some
    have owed := owed_ack ack target sessionId
    have before := inv.slot sessionId
    have data := fine ack pkg target
    rw [slots_ack ack target]
    simp only [mem_free]
    by_cases same : pkg.sessionId = sessionId
    · rw [if_neg fun both => both.2 same.symm]
      rcases data with queued | free
      · have counts : counted sessionId pkg = true := by simp [counted, same, queued]
        rw [if_pos counts] at owed
        split at before <;> omega
      · rw [same] at free
        rw [if_neg free] at before
        omega
    · have skipped : ¬ counted sessionId pkg = true := by simp [counted, same]
      rw [if_neg skipped, Nat.add_zero] at owed
      rw [owed, before]
      simp only [ne_eq, Ne.symm same, not_false_eq_true, and_true]
  · have unmatched : head.has .ack = false ∨ responseTarget base.outPkgs head = none := by
      rw [not_and_or, Bool.not_eq_true, Bool.not_eq_true, Option.isSome_eq_false_iff,
        Option.isNone_iff_eq_none] at matched
      exact matched
    have slots : (base.processResponsePackage head).slots = base.slots := by
      unfold HdcUARTBase.processResponsePackage
      rcases unmatched with noAck | nothing
      · rw [noAck]
        cases responseTarget base.outPkgs head <;> rfl
      · rw [nothing]
    rw [slots, ← inv.slot, HdcUARTBase.owed, HdcUARTBase.owed, HdcUARTBase.processResponsePackage,
      countP_processResponsePackage sessionId _ unmatched]

/-- The ACK of a package without a slot gives back the slot of another one. -/
theorem not_conserved_processResponsePackage (inv : Inv base) {head : UartHead}
    (bad : ¬ base.Fine (.processResponsePackage head)) :
    ¬ (base.processResponsePackage head).Conserved := by
  simp only [Fine, not_forall, not_or, Decidable.not_not] at bad
  obtain ⟨ack, pkg, target, notData, marked⟩ := bad
  have owed := owed_ack ack target pkg.sessionId
  have skipped : ¬ counted pkg.sessionId pkg = true := by simp [counted, notData]
  rw [if_neg skipped, Nat.add_zero, inv.slot, if_pos marked] at owed
  intro conserved
  have slot := conserved pkg.sessionId
  rw [outstanding_iff, owed, slots_ack ack target, mem_free] at slot
  exact (slot.mpr Nat.one_pos).2 rfl

/-! ### Clearing -/

variable {cleared : UInt32}

theorem mem_slots_clear {sessionId : UInt32} :
    sessionId ∈ (base.clearUARTOutMap cleared).slots ↔ sessionId ∈ base.slots ∧
    ¬ (sessionId = cleared ∧
    ∃ pkg ∈ base.outPkgs, pkg.sessionId = cleared ∧ pkg.response = false) := by
  have anyIff : (base.outPkgs.any fun pkg => pkg.sessionId = cleared && !pkg.response) = true ↔
      ∃ pkg ∈ base.outPkgs, pkg.sessionId = cleared ∧ pkg.response = false := by
    simp only [any_eq_true, Bool.and_eq_true, decide_eq_true_eq, Bool.not_eq_true']
  rw [clearUARTOutMap]
  dsimp only
  split
  case isTrue found =>
    rw [mem_free, and_congr_right_iff]
    exact fun _ => not_congr (and_iff_left (anyIff.mp found)).symm
  case isFalse nothing =>
    rw [and_iff_left fun both => nothing (anyIff.mpr both.2)]

theorem Inv.clearUARTOutMap (inv : Inv base) (fine : base.ClearFine cleared) :
    Inv (base.clearUARTOutMap cleared) := by
  refine ⟨fun sessionId => ?_, inv.waiting, inv.holding⟩
  have before := inv.slot sessionId
  rw [owed] at before
  simp only [mem_slots_clear]
  rw [owed, HdcUARTBase.clearUARTOutMap, countP_cleared]
  by_cases same : sessionId = cleared
  · subst same
    by_cases found : ∃ pkg ∈ base.outPkgs, pkg.sessionId = sessionId ∧ pkg.response = false
    · have none : base.holding.countP (·.head.sessionId = sessionId) = 0 :=
        List.countP_eq_zero.mpr fun sending mem => by simpa using fine found sending mem
      rw [if_pos rfl, none, if_neg fun both => both.2 ⟨rfl, found⟩]
    · rw [countP_eq_zero sessionId found] at before
      rw [if_pos rfl, before]
      simp only [found, and_false, not_false_eq_true, and_true]
  · rw [if_neg same, before]
    simp only [same, false_and, not_false_eq_true, and_true]

/-- A session that is cleared loses the slot that a call of it holds. -/
theorem not_conserved_clearUARTOutMap (bad : ¬ base.ClearFine cleared) :
    ¬ (base.clearUARTOutMap cleared).Conserved := by
  simp only [ClearFine, not_forall, Decidable.not_not] at bad
  obtain ⟨found, sending, mem, same⟩ := bad
  intro conserved
  have slot := (conserved _).mpr (.inr ⟨sending, mem, same⟩)
  exact (mem_slots_clear.mp slot).2 ⟨rfl, found⟩

/-! ### The pass over the table -/

/-- The state between the loop and what it may end with. -/
def passed (base : HdcUARTBase) (raw : HandleOutputPkg → SendResult) (now : Nat) : HdcUARTBase :=
  { base with outPkgs := (sendLoop raw now [] base.outPkgs).outPkgs }

theorem Inv.passed (inv : Inv base) (raw : HandleOutputPkg → SendResult) (now : Nat) :
    Inv (base.passed raw now) := by
  refine ⟨fun sessionId => ?_, inv.waiting, inv.holding⟩
  rw [HdcUARTBase.owed, HdcUARTBase.passed, countP_sendLoop]
  exact inv.slot sessionId

theorem clearFine_passed (raw : HandleOutputPkg → SendResult) (now : Nat) (sessionId : UInt32) :
    (base.passed raw now).ClearFine sessionId ↔ base.ClearFine sessionId := by
  rw [ClearFine, ClearFine, passed, exists_sendLoop_iff]

theorem sendPkgInUARTOutMap_eq (base : HdcUARTBase) (raw : HandleOutputPkg → SendResult)
    (found : UInt32 → Bool) (now : Nat) :
    base.sendPkgInUARTOutMap raw found now =
      match stopSession raw found now base.outPkgs with
      | none => base.passed raw now
      | some sessionId => (base.passed raw now).clearUARTOutMap sessionId := rfl

end Steps

/-- A fine operation keeps the invariant. -/
theorem inv_step {base : HdcUARTBase} (inv : Inv base) {op : Op} (fine : base.Fine op) :
    Inv (base.step op) := by
  cases op with
  | sendUARTData sessionId data => exact inv.sendUARTData _ _
  | wait i => exact inv.wait i
  | request i => exact inv.request fine
  | responseUartTrans sessionId packageIndex option =>
    exact inv.responseUartTrans _ _ _
  | takeIndex sessionId => exact { inv with }
  | newSession sessionId => exact { inv with }
  | processResponsePackage head => exact inv.processResponsePackage fine
  | clearUARTOutMap sessionId => exact inv.clearUARTOutMap fine
  | sendPkgInUARTOutMap raw found now =>
    rw [step, sendPkgInUARTOutMap_eq]
    split
    case h_1 => exact inv.passed _ _
    case h_2 sessionId stopped =>
      refine (inv.passed _ _).clearUARTOutMap ((clearFine_passed _ _ _).mpr ?_)
      exact fine _ stopped

/-- An operation that is not fine breaks the conservation right away. -/
theorem not_conserved_step {base : HdcUARTBase} (inv : Inv base) {op : Op}
    (bad : ¬ base.Fine op) : ¬ (base.step op).Conserved := by
  cases op with
  | request i => exact not_conserved_request inv bad
  | processResponsePackage head => exact not_conserved_processResponsePackage inv bad
  | clearUARTOutMap sessionId => exact not_conserved_clearUARTOutMap bad
  | sendPkgInUARTOutMap raw found now =>
    simp only [Fine, not_forall] at bad
    obtain ⟨sessionId, stopped, bad⟩ := bad
    rw [step, sendPkgInUARTOutMap_eq, stopped]
    exact not_conserved_clearUARTOutMap (mt (clearFine_passed _ _ _).mp bad)
  | _ => exact absurd trivial bad

/-! ### Runs -/

/-- Every operation of a run is fine in the state it meets. -/
def AllFine (ops : List Op) : Prop :=
  ∀ k op, ops[k]? = some op → (run (ops.take k)).Fine op

/-- Slots are conserved throughout a run exactly if all its operations are fine; between
operations a slot is then taken exactly if the table holds a data package of the session. -/
theorem slot_conservation (ops : List Op) :
    ((∀ k, (run (ops.take k)).Conserved) ↔ AllFine ops) ∧
    (AllFine ops → ∀ k, (run (ops.take k)).holding = [] → ∀ sessionId,
      sessionId ∈ (run (ops.take k)).slots ↔
        ∃ pkg ∈ (run (ops.take k)).outPkgs, pkg.sessionId = sessionId ∧ pkg.queued = true) := by
  have exact : (∀ k, (run (ops.take k)).Conserved) ↔ AllFine ops :=
    ExactRuns.holds_iff Inv inv_new (fun inv => inv_step inv) (fun inv => not_conserved_step inv)
      Inv.conserved
  refine ⟨exact, fun fine k between sessionId => ?_⟩
  have conserved := exact.mpr fine k sessionId
  rw [Outstanding, between] at conserved
  simpa using conserved

/-- A request to free session 1 is on its way when data is queued; its ACK gives back the
slot of the data. -/
def releasedEarly : List Op :=
  [.takeIndex 1, .responseUartTrans 1 1 .free,
    .sendPkgInUARTOutMap (fun _ => .sent) (fun _ => true) 0,
    .sendUARTData 1 [7], .wait 0, .request 0,
    .processResponsePackage (.new 1 UartProtocolOption.ack.bit 0 1)]

/-- The first packages of two sessions whose masked ids are the same: the second one is
refused, and its slot stays taken. -/
def leaked : List Op :=
  [.sendUARTData 1001001 [7], .wait 0, .request 0, .sendUARTData 1002001 [8], .wait 0, .request 0]

theorem slots_not_conserved :
    ((run releasedEarly).holding = [] ∧ 1 ∉ (run releasedEarly).slots ∧
      ∃ pkg ∈ (run releasedEarly).outPkgs, pkg.sessionId = 1 ∧ pkg.queued = true) ∧
    ((run leaked).holding = [] ∧ 1002001 ∈ (run leaked).slots ∧
      ¬ ∃ pkg ∈ (run leaked).outPkgs, pkg.sessionId = 1002001 ∧ pkg.queued = true) := by
  decide +kernel

end HdcUARTBase

end Hdc.Uart
