import Hdc.DefinePlus
import Hdc.Lib.Words

/-!
Packages of the serial link and the table of outgoing packages (`uart.h`, `uart.cpp`).

A package is a head and, for data, a payload. Outgoing packages wait in a table until they are sent,
and those that are no responses until a response comes back. The table is keyed by a text made from
the response flag, the masked session id and the package index; requests are refused when the key is
taken, and responses are matched by key.

* `toPkgIdentityString_eq_iff`: which packages share a key;
* `identity_key_exact`: the key is exact when no two session ids that the mask identifies meet in
  the same index.
-/

namespace Hdc.Uart

open List

/-! ### Heads and keys -/

/-- `UartProtocolOption`. -/
inductive UartProtocolOption where
  | tail
  | reset
  | ack
  | nak
  | free
deriving DecidableEq, Repr

def UartProtocolOption.bit : UartProtocolOption → UInt16
  | .tail => 1
  | .reset => 2
  | .ack => 4
  | .nak => 8
  | .free => 16

/-- `UartHead`. -/
structure UartHead where
  flag : UInt8 × UInt8
  option : UInt16
  sessionId : UInt32
  dataSize : UInt32
  packageIndex : UInt32
  dataCheckSum : UInt32
  headCheckSum : UInt32
deriving DecidableEq, Repr

/-- An option bit of the head. -/
def UartHead.has (head : UartHead) (option : UartProtocolOption) : Bool :=
  head.option &&& option.bit != 0

def UartHead.isResponsePackage (head : UartHead) : Bool := head.has .ack || head.has .nak

/-- `ToPkgIdentityString`. -/
def UartHead.toPkgIdentityString (head : UartHead) (responsePackage : Bool) : Bytes :=
  (if responsePackage then str "R-" else []) ++ str "Id:" ++
    maskSessionIdToString head.sessionId ++ str "pkgIdx:" ++ decimal head.packageIndex.toNat

/-- What a key is meant to stand for. -/
def UartHead.identity (head : UartHead) (responsePackage : Bool) : Bool × UInt32 × UInt32 :=
  (responsePackage, head.sessionId, head.packageIndex)

/-- Two packages that differ only in their session ids, where the mask keeps the
same digits of both. -/
def Confused (a b : Bool × UInt32 × UInt32) : Prop :=
  a.1 = b.1 ∧ a.2.2 = b.2.2 ∧ a.2.1 ≠ b.2.1 ∧ MaskedAlike a.2.1.toNat b.2.1.toNat

instance (a b : Bool × UInt32 × UInt32) : Decidable (Confused a b) := by
  unfold Confused
  exact inferInstance

/-- A mark that occurs in neither of two texts separates them from what follows. -/
private theorem append_cons_inj {α : Type} {mark : α} {as bs xs ys : List α} (ha : mark ∉ as)
    (hb : mark ∉ bs) (same : as ++ mark :: xs = bs ++ mark :: ys) : as = bs ∧ xs = ys := by
  induction as generalizing bs with
  | nil =>
    cases bs with
    | nil => exact ⟨rfl, (List.cons.inj same).2⟩
    | cons b bs => exact absurd (List.cons.inj same).1 fun h => hb (h ▸ mem_cons_self)
  | cons a as ih =>
    cases bs with
    | nil => exact absurd (List.cons.inj same).1 fun h => ha (h ▸ mem_cons_self)
    | cons b bs =>
      obtain ⟨rfl, rest⟩ := List.cons.inj same
      obtain ⟨rfl, rfl⟩ := ih (fun h => ha (mem_cons_of_mem _ h))
        (fun h => hb (mem_cons_of_mem _ h)) rest
      exact ⟨rfl, rfl⟩

/-- The letter `p` does not occur in decimal text. -/
theorem not_mem_decimal (n : Nat) : (112 : UInt8) ∉ decimal n := by
  rw [decimal_eq_map, mem_map]
  rintro ⟨digit, mem, same⟩
  have small := digitList_lt mem
  have := congrArg UInt8.toNat same
  change (48 + digit) % 2 ^ 8 = 112 at this
  omega

/-- The letter `p` does not occur in a masked session id. -/
theorem not_mem_maskSessionId (sessionId : UInt32) :
    (112 : UInt8) ∉ maskSessionIdToString sessionId := by
  have free := not_mem_decimal sessionId.toNat
  have len := not_mem_decimal (decimal sessionId.toNat).length
  have stars : ∀ n, (112 : UInt8) ∉ List.replicate n (42 : UInt8) := by
    intro n mem
    exact absurd (eq_of_mem_replicate mem) (by decide)
  have marks : (112 : UInt8) ∉ str "(L:" ∧ (112 : UInt8) ∉ str ")" := by decide
  unfold maskSessionIdToString maskString
  split
  · exact free
  split
  · simp only [mem_append, not_or]
    exact ⟨⟨fun h => free (mem_of_mem_take h), stars _⟩,
      fun h => free (mem_of_mem_drop h)⟩
  · simp only [mem_append, not_or]
    exact ⟨⟨⟨⟨⟨fun h => free (mem_of_mem_take h), stars _⟩,
      fun h => free (mem_of_mem_drop h)⟩, marks.1⟩, len⟩, marks.2⟩

/-- Which packages share a key. -/
theorem toPkgIdentityString_eq_iff (a b : UartHead) (ra rb : Bool) :
    a.toPkgIdentityString ra = b.toPkgIdentityString rb ↔
    ra = rb ∧ a.packageIndex = b.packageIndex ∧
    MaskedAlike a.sessionId.toNat b.sessionId.toNat := by
  have shape : ∀ (h : UartHead) (r : Bool), h.toPkgIdentityString r =
      (if r then str "R-" else []) ++ (str "Id:" ++ (maskSessionIdToString h.sessionId ++
        112 :: (str "kgIdx:" ++ decimal h.packageIndex.toNat))) := by
    intro h r
    have mark : str "pkgIdx:" = 112 :: str "kgIdx:" := by decide
    simp only [UartHead.toPkgIdentityString, mark, append_assoc, cons_append]
  constructor
  · intro same
    rw [shape, shape] at same
    have response : ra = rb := by
      cases ra <;> cases rb
      · rfl
      · exact absurd (List.cons.inj same).1 (by decide)
      · exact absurd (List.cons.inj same).1 (by decide)
      · rfl
    subst response
    rw [append_cancel_left_eq, append_cancel_left_eq] at same
    obtain ⟨mask, rest⟩ := append_cons_inj (not_mem_maskSessionId _) (not_mem_maskSessionId _) same
    rw [append_cancel_left_eq] at rest
    exact ⟨rfl, UInt32.toNat_inj.mp (decimal_injective rest),
      (maskSessionIdToString_eq_iff ..).mp mask⟩
  · rintro ⟨rfl, index, masked⟩
    rw [shape, shape, index, (maskSessionIdToString_eq_iff ..).mpr masked]

/-- A shared key is the same package or a confused one. -/
theorem key_eq_iff (a b : UartHead) (ra rb : Bool) :
    a.toPkgIdentityString ra = b.toPkgIdentityString rb ↔
    a.identity ra = b.identity rb ∨ Confused (a.identity ra) (b.identity rb) := by
  rw [toPkgIdentityString_eq_iff]
  simp only [UartHead.identity, Prod.mk.injEq]
  constructor
  · rintro ⟨response, index, masked⟩
    by_cases session : a.sessionId = b.sessionId
    · exact .inl ⟨response, session, index⟩
    · exact .inr ⟨response, index, session, masked⟩
  · rintro (⟨response, session, index⟩ | ⟨response, index, -, masked⟩)
    · exact ⟨response, index, session ▸ MaskedAlike.refl _⟩
    · exact ⟨response, index, masked⟩

/-! ### The table of outgoing packages -/

/-- `PkgStatus`. -/
inductive PkgStatus where
  | waitSend
  | waitResponse
deriving DecidableEq, Repr

/-- `HandleOutputPkg`. The source also stores the key, the session id and the
response and ack flags, all of them computed from the head when the package is
put into the table; here they are functions of the head. -/
structure HandleOutputPkg where
  head : UartHead
  payload : Bytes
  pkgStatus : PkgStatus
  retryChance : Nat
  sendTimePoint : Nat
deriving DecidableEq, Repr

namespace HandleOutputPkg

def sessionId (pkg : HandleOutputPkg) : UInt32 := pkg.head.sessionId

def response (pkg : HandleOutputPkg) : Bool := pkg.head.isResponsePackage

def ack (pkg : HandleOutputPkg) : Bool := pkg.head.has .ack

def key (pkg : HandleOutputPkg) : Bytes := pkg.head.toPkgIdentityString pkg.response

def identity (pkg : HandleOutputPkg) : Bool × UInt32 × UInt32 := pkg.head.identity pkg.response

end HandleOutputPkg

/-- The bytes of a head that its checksum covers. -/
def UartHead.checkedBytes (head : UartHead) : Bytes :=
  [head.flag.1, head.flag.2] ++ Endian.toLE 2 head.option.toNat ++
    Endian.toLE 4 head.sessionId.toNat ++ Endian.toLE 4 head.dataSize.toNat ++
    Endian.toLE 4 head.packageIndex.toNat ++ Endian.toLE 4 head.dataCheckSum.toNat

/-- A head as it lies in memory. -/
def UartHead.toBytes (head : UartHead) : Bytes :=
  head.checkedBytes ++ Endian.toLE 4 head.headCheckSum.toNat

/-- `std::accumulate` into an unsigned 32-bit sum. -/
def accumulate (data : Bytes) : UInt32 := data.foldl (fun sum byte => sum + byte.toUInt32) 0

/-- `UpdateCheckSum`, with the payload behind the head. -/
def UartHead.updateCheckSum (head : UartHead) (payload : Bytes) : UartHead :=
  let withData :=
    if head.dataSize = 0 then head
    else { head with dataCheckSum := accumulate (payload.take head.dataSize.toNat) }
  { withData with headCheckSum := accumulate withData.checkedBytes }

/-- The constructor of `HandleOutputPkg`. -/
def HandleOutputPkg.new (head : UartHead) (payload : Bytes) : HandleOutputPkg :=
  { head, payload, pkgStatus := .waitSend, retryChance := 4, sendTimePoint := 0 }

/-- `RequestSendPackage` behind the slot: the package is put at the end of the
table with its checksums, unless its key is taken. -/
def requestSendPackage (outPkgs : List HandleOutputPkg) (head : UartHead) (payload : Bytes) :
    List HandleOutputPkg :=
  if outPkgs.any fun pkg => pkg.key == head.toPkgIdentityString head.isResponsePackage then
    outPkgs
  else
    outPkgs ++ [HandleOutputPkg.new (head.updateCheckSum payload) payload]

/-- The package that a response is matched with, if any. -/
def responseTarget (outPkgs : List HandleOutputPkg) (head : UartHead) : Option HandleOutputPkg :=
  outPkgs.find? fun pkg => pkg.key == head.toPkgIdentityString false

/-- `ProcessResponsePackage`: an ACK erases the first package with the key, any
other response has it sent again. -/
def processResponsePackage (head : UartHead) : List HandleOutputPkg → List HandleOutputPkg
  | [] => []
  | pkg :: outPkgs =>
    if pkg.key == head.toPkgIdentityString false then
      if head.has .ack then outPkgs else { pkg with pkgStatus := .waitSend } :: outPkgs
    else
      pkg :: processResponsePackage head outPkgs

/-! ### What a shared key does -/

theorem key_eq_key_iff (pkg : HandleOutputPkg) (head : UartHead) (response : Bool) :
    pkg.key = head.toPkgIdentityString response ↔
    pkg.identity = head.identity response ∨ Confused pkg.identity (head.identity response) :=
  key_eq_iff ..

/-- A request is granted exactly when no queued package is the same or confused
with it. -/
theorem requestSendPackage_eq (outPkgs : List HandleOutputPkg) (head : UartHead) (payload : Bytes) :
    requestSendPackage outPkgs head payload =
    outPkgs ++ [HandleOutputPkg.new (head.updateCheckSum payload) payload] ↔
    ∀ pkg ∈ outPkgs, pkg.identity ≠ head.identity head.isResponsePackage ∧
    ¬ Confused pkg.identity (head.identity head.isResponsePackage) := by
  rw [requestSendPackage]
  split
  case isTrue taken =>
    obtain ⟨pkg, mem, same⟩ := any_eq_true.mp taken
    refine iff_of_false (fun grown => ?_) fun apart => ?_
    · have := congrArg List.length grown
      simp at this
    · rw [beq_iff_eq, key_eq_key_iff] at same
      exact same.elim (apart pkg mem).1 (apart pkg mem).2
  case isFalse granted =>
    refine iff_of_true rfl fun pkg mem => ?_
    rw [← not_or, ← key_eq_key_iff]
    intro same
    exact granted (any_eq_true.mpr ⟨pkg, mem, by rw [beq_iff_eq, same]⟩)

/-- The packages that a response does not name. -/
def others (head : UartHead) (outPkgs : List HandleOutputPkg) : List HandleOutputPkg :=
  outPkgs.filter fun pkg => pkg.identity ≠ head.identity false

/-- The first queued package that a response names or that is confused with it. -/
def firstNamed (head : UartHead) (outPkgs : List HandleOutputPkg) : Option HandleOutputPkg :=
  outPkgs.find? fun pkg =>
    pkg.identity = head.identity false ∨ Confused pkg.identity (head.identity false)

theorem identity_setStatus (pkg : HandleOutputPkg) (status : PkgStatus) :
    ({ pkg with pkgStatus := status } : HandleOutputPkg).identity = pkg.identity := rfl

/-- A response leaves every package that it does not name as it is exactly when
the first package it is matched with is the one it names, or is left as it is
because it waits to be sent anyway. -/
theorem processResponsePackage_others (head : UartHead) (outPkgs : List HandleOutputPkg) :
    others head (processResponsePackage head outPkgs) = others head outPkgs ↔
    ∀ pkg, firstNamed head outPkgs = some pkg → pkg.identity = head.identity false ∨
    head.has .ack = false ∧ pkg.pkgStatus = .waitSend := by
  induction outPkgs with
  | nil => simp [processResponsePackage, firstNamed]
  | cons pkg outPkgs ih =>
    have matched := key_eq_key_iff pkg head false
    by_cases same : pkg.key = head.toPkgIdentityString false
    · -- The head of the table is the match; only it can change.
      have first : firstNamed head (pkg :: outPkgs) = some pkg :=
        find?_cons_of_pos (by simpa using matched.mp same)
      rw [processResponsePackage, if_pos (beq_iff_eq.mpr same), first]
      simp only [Option.some.injEq, forall_eq']
      by_cases named : pkg.identity = head.identity false
      · refine iff_of_true ?_ (.inl named)
        have dropped : others head (pkg :: outPkgs) = others head outPkgs :=
          filter_cons_of_neg (by simpa using named)
        split
        · exact dropped.symm
        · rw [dropped]
          exact filter_cons_of_neg (by rw [identity_setStatus]; simpa using named)
      · have kept : others head (pkg :: outPkgs) = pkg :: others head outPkgs :=
          filter_cons_of_pos (by simpa using named)
        rw [kept]
        cases ack : head.has .ack with
        | true =>
          refine iff_of_false (fun shrunk => ?_) (by simp [named])
          have := congrArg List.length shrunk
          simp at this
        | false =>
          have again : others head ({ pkg with pkgStatus := .waitSend } :: outPkgs) =
              { pkg with pkgStatus := .waitSend } :: others head outPkgs :=
            filter_cons_of_pos (by rw [identity_setStatus]; simpa using named)
          simp only [Bool.false_eq_true, if_false, again, List.cons.injEq, and_true, named,
            false_or, true_and]
          constructor
          · intro unchanged
            rw [← unchanged]
          · intro waiting
            rw [← waiting]
    · have apart : ¬ (pkg.identity = head.identity false ∨
          Confused pkg.identity (head.identity false)) := fun h => same (matched.mpr h)
      have skip : firstNamed head (pkg :: outPkgs) = firstNamed head outPkgs :=
        find?_cons_of_neg (by simpa using apart)
      have keep : ∀ rest, others head (pkg :: rest) = pkg :: others head rest := fun rest =>
        filter_cons_of_pos (by simpa using fun h => apart (.inl h))
      rw [processResponsePackage, if_neg (by simpa using same), keep, keep, skip, ← ih]
      simp

/-- The key of a package is exact, for any two packages; so is the refusal of a
request, for any table; and so is the effect of a response. -/
theorem identity_key_exact (a b head : UartHead) (ra rb : Bool) (outPkgs : List HandleOutputPkg)
    (payload : Bytes) :
    ((a.identity ra ≠ b.identity rb → a.toPkgIdentityString ra ≠ b.toPkgIdentityString rb) ↔
      ¬ Confused (a.identity ra) (b.identity rb)) ∧
    (((∀ pkg ∈ outPkgs, pkg.identity ≠ head.identity head.isResponsePackage) →
        requestSendPackage outPkgs head payload =
          outPkgs ++ [HandleOutputPkg.new (head.updateCheckSum payload) payload]) ↔
      ((∀ pkg ∈ outPkgs, pkg.identity ≠ head.identity head.isResponsePackage) →
        ∀ pkg ∈ outPkgs, ¬ Confused pkg.identity (head.identity head.isResponsePackage))) ∧
    (others head (processResponsePackage head outPkgs) = others head outPkgs ↔
      ∀ pkg, firstNamed head outPkgs = some pkg → pkg.identity = head.identity false ∨
        head.has .ack = false ∧ pkg.pkgStatus = .waitSend) := by
  refine ⟨?_, ?_, processResponsePackage_others _ _⟩
  · rw [ne_eq, ne_eq, key_eq_iff]
    constructor
    · intro apart confused
      refine apart (fun same => ?_) (.inr confused)
      -- Confused packages differ in their session ids.
      exact confused.2.2.1 (congrArg (fun identity => identity.2.1) same)
    · intro clear differ same
      exact same.elim differ clear
  · constructor
    · intro granted differ pkg mem
      exact ((requestSendPackage_eq ..).mp (granted differ) pkg mem).2
    · intro clear differ
      exact (requestSendPackage_eq ..).mpr fun pkg mem => ⟨differ pkg mem, clear differ pkg mem⟩

/-- Two session ids of seven digits that agree in the first three and the last
three: a data package of the second session is refused because one of the first
is queued under the same key, and an ACK for the second erases the first. -/
theorem identity_key_collision :
    let first : UartHead := ⟨(72, 87), 1, 1001001, 1, 5, 0, 0⟩
    let second : UartHead := ⟨(72, 87), 1, 1002001, 1, 5, 0, 0⟩
    let queue := requestSendPackage [] first [7]
    let ack : UartHead := ⟨(72, 87), 4, 1002001, 0, 5, 0, 0⟩
    first.identity false ≠ second.identity false ∧
      first.toPkgIdentityString false = second.toPkgIdentityString false ∧
      (∀ pkg ∈ queue, pkg.identity ≠ second.identity false) ∧
      requestSendPackage queue second [8] = queue ∧
      queue.length = 1 ∧ processResponsePackage ack queue = [] := by
  decide

end Hdc.Uart
