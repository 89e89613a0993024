import Hdc.Uart.Endpoint

/-!
What the operations on the table of outgoing packages keep.

The table mixes two kinds of packages: responses, which are sent once and
forgotten, and the packages that wait for one. The two are told apart by their
keys, so every operation acts on each kind by itself, and this module says how:

* `Orderly`: all packages are well formed and only the first that wants a
  response can be waiting for it;
* `requestSendPackage_granted`, `processResponsePackage_normal`: the effect on
  the packages that want a response;
* `sendLoop_pass`: a pass writes responses from the front, and of the others at
  most the first.
-/

namespace Hdc.Uart

open List HandleOutputPkg UartHead UartProtocolOption Pass

open Hdc.Session (Build)

/-! ### Two kinds of packages -/

/-- The packages that want a response, in order. -/
def normal (pkgs : List HandleOutputPkg) : List HandleOutputPkg :=
  pkgs.filter fun pkg => !pkg.response

/-- The responses, in order. -/
def answers (pkgs : List HandleOutputPkg) : List HandleOutputPkg :=
  pkgs.filter fun pkg => pkg.response

/-- What of a package reaches the other end, under its index. -/
def HandleOutputPkg.message (pkg : HandleOutputPkg) : UInt32 × UartHead × Bytes :=
  (pkg.head.packageIndex, pkg.head, pkg.payload)

@[simp] theorem normal_nil : normal [] = [] := rfl

@[simp] theorem answers_nil : answers [] = [] := rfl

theorem normal_cons (pkg : HandleOutputPkg) (pkgs : List HandleOutputPkg) :
    normal (pkg :: pkgs) = if pkg.response then normal pkgs else pkg :: normal pkgs := by
  cases h : pkg.response <;> simp [normal, h]

theorem answers_cons (pkg : HandleOutputPkg) (pkgs : List HandleOutputPkg) :
    answers (pkg :: pkgs) = if pkg.response then pkg :: answers pkgs else answers pkgs := by
  cases h : pkg.response <;> simp [answers, h]

@[simp] theorem normal_append (front back : List HandleOutputPkg) :
    normal (front ++ back) = normal front ++ normal back := filter_append ..

@[simp] theorem answers_append (front back : List HandleOutputPkg) :
    answers (front ++ back) = answers front ++ answers back := filter_append ..

variable {pkg : HandleOutputPkg}

theorem mem_normal {pkgs : List HandleOutputPkg} :
    pkg ∈ normal pkgs ↔ pkg ∈ pkgs ∧ pkg.response = false := by
  simp [normal]

/-- A package of the session as the code builds them: a response is an ACK and
has no data, and of the others exactly the requests to free the session have
none. -/
structure HandleOutputPkg.WellFormed (sessionId : UInt32) (pkg : HandleOutputPkg) : Prop
    extends pkg.Sound where
  session : pkg.sessionId = sessionId
  answer : pkg.response = true → pkg.head.has .ack = true ∧ pkg.head.has .free = false ∧
    pkg.payload = []
  data : pkg.response = false → (pkg.head.has .free = true ↔ pkg.payload = [])

variable {sessionId : UInt32}

/-- Well-formedness is about what reaches the other end. -/
theorem HandleOutputPkg.WellFormed.of_message {old new : HandleOutputPkg}
    (formed : old.WellFormed sessionId) (same : new.message = old.message) :
    new.WellFormed sessionId := by
  obtain ⟨head, payload⟩ := Prod.mk.inj (Prod.mk.inj same).2
  obtain ⟨⟨flag, size, fits, headSum, dataSum, noReset, freeEmpty⟩, session, answer, data⟩ := formed
  simp only [HandleOutputPkg.sessionId, HandleOutputPkg.response, ← head, ← payload] at *
  exact ⟨⟨flag, size, fits, headSum, dataSum, noReset, freeEmpty⟩, session, answer, data⟩

/-- The table of one session. -/
structure Orderly (sessionId : UInt32) (outPkgs : List HandleOutputPkg) : Prop where
  formed : ∀ pkg ∈ outPkgs, pkg.WellFormed sessionId
  answer : ∀ pkg ∈ outPkgs, pkg.response = true → pkg.pkgStatus = .waitSend
  behind : ∀ pkg ∈ (normal outPkgs).tail, pkg.pkgStatus = .waitSend

theorem Orderly.nil (sessionId : UInt32) : Orderly sessionId [] :=
  ⟨by simp, by simp, by simp⟩

variable {outPkgs : List HandleOutputPkg}

/-- Orderly tables have at most one package waiting for its response. -/
theorem Orderly.waitResponse_le_one (orderly : Orderly sessionId outPkgs) :
    (outPkgs.filter fun pkg => pkg.pkgStatus = .waitResponse).length ≤ 1 := by
  have waits : outPkgs.filter (fun pkg => pkg.pkgStatus = .waitResponse) =
      (normal outPkgs).filter (fun pkg => pkg.pkgStatus = .waitResponse) := by
    rw [normal, filter_filter]
    refine filter_congr fun pkg mem => ?_
    cases response : pkg.response with
    | false => simp
    | true => simp [orderly.answer pkg mem response]
  rw [waits]
  cases first : normal outPkgs with
  | nil => simp
  | cons pkg rest =>
    have none : rest.filter (fun pkg => pkg.pkgStatus = .waitResponse) = [] := by
      refine filter_eq_nil_iff.mpr fun other mem => ?_
      have := orderly.behind other (by rwa [first])
      simp [this]
    rw [filter_cons]
    split <;> simp [none]

/-- A change that keeps the messages keeps the table orderly, if it leaves no
second package waiting. -/
theorem Orderly.of_messages {before after : List HandleOutputPkg}
    (orderly : Orderly sessionId before)
    (old : ∀ pkg ∈ after, ∃ was ∈ before, pkg.message = was.message ∧
    (pkg.response = true → pkg.pkgStatus = was.pkgStatus))
    (behind : ∀ pkg ∈ (normal after).tail, pkg.pkgStatus = .waitSend) :
    Orderly sessionId after := by
  refine ⟨fun pkg mem => ?_, fun pkg mem response => ?_, behind⟩
  · obtain ⟨was, wasMem, same, -⟩ := old pkg mem
    exact (orderly.formed was wasMem).of_message same
  · obtain ⟨was, wasMem, same, status⟩ := old pkg mem
    have head : pkg.head = was.head := congrArg (fun message => message.2.1) same
    rw [status response]
    exact orderly.answer was wasMem (by rw [← response, HandleOutputPkg.response,
      HandleOutputPkg.response, head])

/-! ### Requests -/

section

variable (head : UartHead) (payload : Bytes)
include head payload

/-- `UpdateCheckSum` writes the checksums only. -/
theorem updateCheckSum_fields : (head.updateCheckSum payload).sessionId = head.sessionId ∧
    (head.updateCheckSum payload).packageIndex = head.packageIndex ∧
    (head.updateCheckSum payload).flag = head.flag ∧
    (head.updateCheckSum payload).option = head.option ∧
    (head.updateCheckSum payload).dataSize = head.dataSize := by
  unfold updateCheckSum
  split <;> exact ⟨rfl, rfl, rfl, rfl, rfl⟩

theorem has_updateCheckSum (option : UartProtocolOption) :
    (head.updateCheckSum payload).has option = head.has option := by
  rw [has, has, (updateCheckSum_fields head payload).2.2.2.1]

theorem isResponsePackage_updateCheckSum :
    (head.updateCheckSum payload).isResponsePackage = head.isResponsePackage := by
  rw [isResponsePackage, isResponsePackage, has_updateCheckSum,
    has_updateCheckSum]

/-- The checksums that `UpdateCheckSum` writes are those that the reader wants. -/
theorem validate_updateCheckSum : (head.updateCheckSum payload).validateHead = true ∧
    (head.updateCheckSum payload).validateData payload = true := by
  unfold updateCheckSum validateHead validateData
  split
  case isTrue empty => simp [empty, checkedBytes]
  case isFalse => simp [checkedBytes]

end

/-- A head of the code's making: what the options say about the data behind it. -/
structure UartHead.Made (sessionId : UInt32) (payload : Bytes) (head : UartHead) : Prop where
  flag : head.flag = packetFlag
  session : head.sessionId = sessionId
  size : head.dataSize.toNat = payload.length
  fits : payload.length ≤ packageDataMaxSize
  noReset : head.has .reset = false
  answer : head.isResponsePackage = true → head.has .ack = true ∧ head.has .free = false ∧
    payload = []
  data : head.isResponsePackage = false → (head.has .free = true ↔ payload = [])

theorem has_new (sessionId dataSize packageIndex : UInt32) (option : UInt16)
    (bit : UartProtocolOption) :
    (new sessionId option dataSize packageIndex).has bit = (option &&& bit.bit != 0) := rfl

theorem isResponsePackage_new (sessionId dataSize packageIndex : UInt32) (option : UInt16) :
    (new sessionId option dataSize packageIndex).isResponsePackage =
    (option &&& ack.bit != 0 || option &&& nak.bit != 0) :=
  rfl

/-- The response to a packet. -/
theorem ack_made (sessionId packageIndex : UInt32) :
    (new sessionId ack.bit 0 packageIndex).Made sessionId [] where
  flag := rfl
  session := rfl
  size := rfl
  fits := Nat.zero_le _
  noReset := by rw [has_new]; decide
  answer _ := ⟨by rw [has_new]; decide, by rw [has_new]; decide, rfl⟩
  data no := absurd no (by rw [isResponsePackage_new]; decide)

/-- The request to free the session. -/
theorem free_made (sessionId packageIndex : UInt32) :
    (new sessionId free.bit 0 packageIndex).Made sessionId [] where
  flag := rfl
  session := rfl
  size := rfl
  fits := Nat.zero_le _
  noReset := by rw [has_new]; decide
  answer no := absurd no (by rw [isResponsePackage_new]; decide)
  data _ := ⟨fun _ => rfl, fun _ => by rw [has_new]; decide⟩

variable {payload : Bytes}

/-- A piece of data, with or without the mark of the last one. -/
theorem data_made (sessionId packageIndex : UInt32) {option : UInt16}
    (mark : option = 0 ∨ option = tail.bit) (some : payload ≠ [])
    (fits : payload.length ≤ packageDataMaxSize) :
    (new sessionId option (UInt32.ofNat payload.length) packageIndex).Made sessionId
    payload where
  flag := rfl
  session := rfl
  size := by
    have small : payload.length < 2 ^ 32 := Nat.lt_of_le_of_lt fits (by decide)
    exact (UInt32.toNat_ofNat' ..).trans (Nat.mod_eq_of_lt small)
  fits := fits
  noReset := by rcases mark with rfl | rfl <;> rw [has_new] <;> decide
  answer no := absurd no (by rcases mark with rfl | rfl <;> rw [isResponsePackage_new] <;> decide)
  data _ := by
    refine ⟨fun no => absurd no ?_, fun empty => absurd empty some⟩
    rcases mark with rfl | rfl <;> rw [has_new] <;> decide

/-- The packages that `SendUARTData` builds. -/
theorem nextPackage_made (ep : Endpoint) {data : Bytes} (some : data ≠ []) :
    (ep.nextPackage data).2.head.Made ep.sessionId (ep.nextPackage data).2.payload := by
  have fits : (data.take packageDataMaxSize).length ≤ packageDataMaxSize := by
    rw [length_take]
    exact Nat.min_le_left _ _
  have piece : data.take packageDataMaxSize ≠ [] := by
    cases data with
    | nil => exact absurd rfl some
    | cons byte rest => exact cons_ne_nil _ _
  refine data_made _ _ ?_ piece fits
  split
  · exact .inl rfl
  · exact .inr rfl

variable {head : UartHead}

/-- What is put into the table is well formed. -/
theorem UartHead.Made.wellFormed (made : head.Made sessionId payload) :
    (HandleOutputPkg.new (head.updateCheckSum payload) payload).WellFormed sessionId := by
  obtain ⟨session, -, flag, -, size⟩ := updateCheckSum_fields head payload
  obtain ⟨headSum, dataSum⟩ := validate_updateCheckSum head payload
  have response := isResponsePackage_updateCheckSum head payload
  have has := has_updateCheckSum head payload
  refine ⟨⟨flag.trans made.flag, ?_, made.fits, headSum, dataSum, ?_, ?_⟩, ?_, ?_, ?_⟩
  · exact (congrArg UInt32.toNat size).trans made.size
  · exact (has .reset).trans made.noReset
  · intro free
    have free' : head.has .free = true := (has .free).symm.trans free
    cases kind : head.isResponsePackage with
    | true => exact (made.answer kind).2.2
    | false => exact (made.data kind).mp free'
  · exact session.trans made.session
  · intro isAnswer
    obtain ⟨ack, free, empty⟩ := made.answer (response.symm.trans isAnswer)
    exact ⟨(has .ack).trans ack, (has .free).trans free, empty⟩
  · intro isData
    exact (has .free) ▸ made.data (response.symm.trans isData)

/-- A package at the end of the table keeps it orderly. -/
theorem Orderly.push (orderly : Orderly sessionId outPkgs) (made : head.Made sessionId payload) :
    Orderly sessionId (outPkgs ++ [new (head.updateCheckSum payload) payload]) := by
  refine ⟨?_, ?_, fun pkg mem => ?_⟩
  · exact forall_mem_append.mpr ⟨orderly.formed, forall_mem_singleton.mpr made.wellFormed⟩
  · exact forall_mem_append.mpr ⟨orderly.answer, forall_mem_singleton.mpr fun _ => rfl⟩
  · rw [normal_append] at mem
    cases waiting : normal outPkgs with
    | nil =>
      rw [waiting] at mem
      have last := mem_of_mem_tail mem
      exact mem_singleton.mp (mem_normal.mp last).1 ▸ rfl
    | cons first rest =>
      rw [waiting] at mem
      rcases mem_append.mp mem with old | new
      · exact orderly.behind pkg (by rwa [waiting])
      · exact mem_singleton.mp (mem_normal.mp new).1 ▸ rfl

theorem Orderly.request (orderly : Orderly sessionId outPkgs) (made : head.Made sessionId payload) :
    Orderly sessionId (requestSendPackage outPkgs head payload) := by
  unfold requestSendPackage
  split
  · exact orderly
  · exact orderly.push made

/-- A key names a package of the session by its kind and its index. -/
theorem key_eq_session_iff (session : pkg.sessionId = sessionId)
    (same : head.sessionId = sessionId) (response : Bool) :
    pkg.key = head.toPkgIdentityString response ↔
    pkg.response = response ∧ pkg.head.packageIndex = head.packageIndex := by
  rw [key, toPkgIdentityString_eq_iff]
  constructor
  · rintro ⟨kind, index, -⟩
    exact ⟨kind, index⟩
  · rintro ⟨kind, index⟩
    refine ⟨kind, index, ?_⟩
    rw [show pkg.head.sessionId = head.sessionId from session.trans same.symm]
    exact MaskedAlike.refl _

/-- A package with a new index is let in. -/
theorem requestSendPackage_granted (orderly : Orderly sessionId outPkgs)
    (made : head.Made sessionId payload) (kind : head.isResponsePackage = false)
    (fresh : head.packageIndex ∉ (normal outPkgs).map fun pkg => pkg.head.packageIndex) :
    requestSendPackage outPkgs head payload =
    outPkgs ++ [new (head.updateCheckSum payload) payload] := by
  rw [requestSendPackage, if_neg]
  rw [any_eq_true]
  rintro ⟨pkg, mem, same⟩
  rw [beq_iff_eq, kind, key_eq_session_iff (orderly.formed pkg mem).session made.session] at same
  exact fresh (mem_map.mpr ⟨_, mem_normal.mpr ⟨mem, same.1⟩, same.2⟩)

/-- A request for a response leaves the others alone and adds at most one. -/
theorem requestSendPackage_answer (outPkgs : List HandleOutputPkg) {payload : Bytes}
    {head : UartHead} (kind : head.isResponsePackage = true) :
    normal (requestSendPackage outPkgs head payload) = normal outPkgs ∧
    (answers (requestSendPackage outPkgs head payload) = answers outPkgs ∨
    answers (requestSendPackage outPkgs head payload) =
    answers outPkgs ++ [new (head.updateCheckSum payload) payload]) := by
  have response : (new (head.updateCheckSum payload) payload).response = true :=
    (isResponsePackage_updateCheckSum head payload).trans kind
  unfold requestSendPackage
  split
  · exact ⟨rfl, .inl rfl⟩
  · simp [normal_cons, answers_cons, response]

/-- Other requests leave the responses alone. -/
theorem answers_requestSendPackage (outPkgs : List HandleOutputPkg) {payload : Bytes}
    {head : UartHead} (kind : head.isResponsePackage = false) :
    answers (requestSendPackage outPkgs head payload) = answers outPkgs := by
  have response : (new (head.updateCheckSum payload) payload).response = false :=
    (isResponsePackage_updateCheckSum head payload).trans kind
  unfold requestSendPackage
  split
  · rfl
  · simp [answers_cons, response]

/-! ### Responses -/

/-- An ACK erases the package with its index among those that want a response. -/
theorem processResponsePackage_ack (session : head.sessionId = sessionId)
    (ack : head.has .ack = true) (outPkgs : List HandleOutputPkg)
    (formed : ∀ pkg ∈ outPkgs, pkg.WellFormed sessionId) :
    answers (processResponsePackage head outPkgs) = answers outPkgs ∧
    normal (processResponsePackage head outPkgs) =
    (normal outPkgs).eraseP fun pkg => pkg.head.packageIndex = head.packageIndex := by
  induction outPkgs with
  | nil => exact ⟨rfl, rfl⟩
  | cons pkg outPkgs ih =>
    obtain ⟨answersIh, normalIh⟩ := ih fun other mem => formed other (mem_cons_of_mem _ mem)
    have named := key_eq_session_iff (formed _ mem_cons_self).session session false
    rw [processResponsePackage]
    by_cases same : pkg.key = head.toPkgIdentityString false
    · obtain ⟨kind, index⟩ := named.mp same
      simp [same, ack, normal_cons, answers_cons, kind, index]
    · rw [if_neg (by simpa using same)]
      cases kind : pkg.response with
      | true => simp [normal_cons, answers_cons, kind, answersIh, normalIh]
      | false =>
        have other : ¬ pkg.head.packageIndex = head.packageIndex := fun index =>
          same (named.mpr ⟨kind, index⟩)
        simp [normal_cons, answers_cons, kind, answersIh, normalIh, other]

/-- What an ACK leaves was there before. -/
theorem processResponsePackage_subset {head : UartHead} (ack : head.has .ack = true)
    (outPkgs : List HandleOutputPkg) : processResponsePackage head outPkgs ⊆ outPkgs := by
  induction outPkgs with
  | nil => exact List.Subset.refl _
  | cons first outPkgs ih =>
    rw [processResponsePackage]
    split
    · exact subset_cons_self _ _
    · exact cons_subset_cons first ih

theorem Orderly.acked (orderly : Orderly sessionId outPkgs) (session : head.sessionId = sessionId)
    (ack : head.has .ack = true) : Orderly sessionId (processResponsePackage head outPkgs) := by
  have old := processResponsePackage_subset ack outPkgs
  refine ⟨fun pkg h => orderly.formed _ (old h), fun pkg h => orderly.answer _ (old h), ?_⟩
  intro pkg later
  rw [(processResponsePackage_ack session ack outPkgs orderly.formed).2] at later
  cases waiting : normal outPkgs with
  | nil => simp [waiting] at later
  | cons first rest =>
    refine orderly.behind _ ?_
    rw [waiting, eraseP_cons, Bool.cond_decide] at later
    rw [waiting]
    split at later
    · exact mem_of_mem_tail later
    · exact mem_of_mem_eraseP later

/-! ### Passes -/

/-- What a pass does to a table: responses leave from the front, of the others at
most the first is written, and nothing but its bookkeeping changes. -/
structure Passed (before : List HandleOutputPkg) (pass : Pass) : Prop where
  answers : answers pass.sent ++ answers pass.outPkgs = answers before
  messages : (normal pass.outPkgs).map HandleOutputPkg.message =
    (normal before).map HandleOutputPkg.message
  data : normal pass.sent = [] ∨
    ∃ first, (normal before).head? = some first ∧ normal pass.sent = [first]
  old : ∀ pkg ∈ pass.outPkgs, ∃ was ∈ before, pkg.message = was.message ∧
    (pkg.response = true → pkg.pkgStatus = was.pkgStatus)
  sent : ∀ pkg ∈ pass.sent, pkg ∈ before
  behind : ∀ pkg ∈ (normal pass.outPkgs).tail, pkg.pkgStatus = .waitSend

/-- A pass that stops at once. -/
theorem Passed.stop {before : List HandleOutputPkg} (orderly : Orderly sessionId before)
    (stopped : Option HandleOutputPkg) : Passed before ⟨before, [], stopped⟩ where
  answers := rfl
  messages := rfl
  data := .inl rfl
  old pkg mem := ⟨pkg, mem, rfl, fun _ => rfl⟩
  sent _ mem := absurd mem not_mem_nil
  behind := orderly.behind

theorem Orderly.of_cons (orderly : Orderly sessionId (pkg :: outPkgs)) :
    Orderly sessionId outPkgs := by
  refine ⟨fun other mem => orderly.formed other (mem_cons_of_mem _ mem),
    fun other mem => orderly.answer other (mem_cons_of_mem _ mem), fun other mem => ?_⟩
  refine orderly.behind other ?_
  rw [normal_cons]
  split
  · exact mem
  · exact mem_of_mem_tail mem

/-- Behind a package that wants a response, every package waits to be sent. -/
theorem Orderly.rest_waitSend (orderly : Orderly sessionId (pkg :: outPkgs))
    (kind : pkg.response = false) : ∀ other ∈ outPkgs, other.pkgStatus = .waitSend := by
  intro other mem
  cases otherKind : other.response with
  | true => exact orderly.answer other (mem_cons_of_mem _ mem) otherKind
  | false =>
    refine orderly.behind other ?_
    simp only [normal_cons, kind]
    exact mem_normal.mpr ⟨mem, otherKind⟩

/-- While the session waits for a response, a pass writes responses only. -/
theorem sendLoop_waiting {raw : HandleOutputPkg → SendResult} {now : Nat} {sessionId : UInt32}
    {hasWaitPkg : List UInt32} (waits : sessionId ∈ hasWaitPkg) (outPkgs : List HandleOutputPkg)
    (session : ∀ pkg ∈ outPkgs, pkg.sessionId = sessionId)
    (waitSend : ∀ pkg ∈ outPkgs, pkg.pkgStatus = .waitSend) :
    let pass := sendLoop raw now hasWaitPkg outPkgs
    answers pass.sent ++ answers pass.outPkgs = answers outPkgs ∧
      normal pass.outPkgs = normal outPkgs ∧ normal pass.sent = [] ∧
      (∀ pkg ∈ pass.outPkgs, pkg ∈ outPkgs) ∧ ∀ pkg ∈ pass.sent, pkg ∈ outPkgs := by
  induction outPkgs with
  | nil => simp [sendLoop]
  | cons pkg outPkgs ih =>
    have mine := session _ mem_cons_self
    obtain ⟨ans, norm, none, old, sent⟩ :=
      ih (fun other mem => session other (mem_cons_of_mem _ mem))
        fun other mem => waitSend other (mem_cons_of_mem _ mem)
    simp only [sendLoop, waitSend pkg mem_cons_self, mine, waits]
    cases kind : pkg.response with
    | false =>
      refine ⟨?_, ?_, none, ?_, fun other mem => mem_cons_of_mem _ (sent other mem)⟩
      · simpa [keep, answers_cons, kind] using ans
      · simpa [keep, normal_cons, kind] using norm
      · exact cons_subset_cons pkg old
    | true =>
      cases raw pkg with
      | failed => simp
      | broken => simp
      | sent =>
        refine ⟨?_, ?_, ?_, fun other mem => mem_cons_of_mem _ (old other mem), ?_⟩
        · simpa [wrote, answers_cons, kind] using ans
        · simpa [wrote, normal_cons, kind] using norm
        · simpa [wrote, normal_cons, kind] using none
        · exact cons_subset_cons pkg sent

/-- A pass goes on behind the package that the session waits for, which it has
just written (`wrote`) or wrote before. -/
theorem Passed.waiting {raw : HandleOutputPkg → SendResult} {now : Nat} {hasWaitPkg : List UInt32}
    {pkg new : HandleOutputPkg} (orderly : Orderly sessionId (pkg :: outPkgs))
    (kind : pkg.response = false) (same : new.message = pkg.message)
    (waits : sessionId ∈ hasWaitPkg) :
    Passed (pkg :: outPkgs) ((sendLoop raw now hasWaitPkg outPkgs).keep new) ∧
    Passed (pkg :: outPkgs) (((sendLoop raw now hasWaitPkg outPkgs).keep new).wrote pkg) := by
  have kind' : new.response = false := by
    rw [response, show new.head = pkg.head from congrArg (·.2.1) same]
    exact kind
  obtain ⟨ans, norm, none, old, sent⟩ := @sendLoop_waiting raw now _ _ waits outPkgs
    (fun other mem => (orderly.formed other (mem_cons_of_mem _ mem)).session)
    (orderly.rest_waitSend kind)
  have messages : (normal (new :: (sendLoop raw now hasWaitPkg outPkgs).outPkgs)).map
      message = (normal (pkg :: outPkgs)).map message := by
    simp [normal_cons, kind, kind', norm, same]
  have old' : ∀ other ∈ new :: (sendLoop raw now hasWaitPkg outPkgs).outPkgs,
      ∃ was ∈ pkg :: outPkgs, other.message = was.message ∧
        (other.response = true → other.pkgStatus = was.pkgStatus) := by
    intro other mem
    rcases mem_cons.mp mem with rfl | later
    · exact ⟨pkg, mem_cons_self, same, fun no => absurd (kind'.symm.trans no) (by simp)⟩
    · exact ⟨other, mem_cons_of_mem _ (old other later), rfl, fun _ => rfl⟩
  have behind : ∀ other ∈ (normal (new :: (sendLoop raw now hasWaitPkg outPkgs).outPkgs)).tail,
      other.pkgStatus = .waitSend := by
    intro other mem
    simp only [normal_cons, kind', norm] at mem
    exact orderly.rest_waitSend kind other (mem_normal.mp mem).1
  refine ⟨⟨?_, messages, .inl none, old', fun other mem => mem_cons_of_mem _ (sent other mem),
    behind⟩, ⟨?_, messages, .inr ⟨pkg, by simp [normal_cons, kind], ?_⟩, old', ?_, behind⟩⟩
  · simpa [keep, answers_cons, kind, kind'] using ans
  · simpa [keep, wrote, answers_cons, kind, kind'] using ans
  · simp [wrote, keep, normal_cons, kind, none]
  · exact cons_subset_cons pkg sent

/-- What a pass over an orderly table does. -/
theorem sendLoop_pass (raw : HandleOutputPkg → SendResult) (now : Nat)
    (outPkgs : List HandleOutputPkg) (orderly : Orderly sessionId outPkgs) :
    Passed outPkgs (sendLoop raw now [] outPkgs) := by
  induction outPkgs with
  | nil => exact .stop orderly _
  | cons pkg outPkgs ih =>
    have waits : sessionId ∈ [pkg.sessionId] := by
      rw [(orderly.formed pkg mem_cons_self).session]
      exact mem_cons_self
    rw [sendLoop]
    cases status : pkg.pkgStatus with
    | waitResponse =>
      have kind := Bool.eq_false_iff.mpr fun kind =>
        absurd ((orderly.answer _ mem_cons_self kind).symm.trans status) (by decide)
      dsimp only
      split
      · split
        · -- Timed out with retries left: the package is marked and the pass ends.
          have kind' : pkg.head.isResponsePackage = false := kind
          refine ⟨?_, ?_, .inl rfl, ?_, by simp, ?_⟩
          · simp [answers_cons, response, kind']
          · simp [normal_cons, response, message, kind']
          · intro other mem
            rcases mem_cons.mp mem with rfl | later
            · exact ⟨_, mem_cons_self, rfl, fun no => absurd (kind.symm.trans no) (by simp)⟩
            · exact ⟨other, mem_cons_of_mem _ later, rfl, fun _ => rfl⟩
          · intro other mem
            have rest : other ∈ normal outPkgs := by
              simpa [normal_cons, response, kind'] using mem
            exact orderly.rest_waitSend kind other (mem_normal.mp rest).1
        · exact .stop orderly _
      · exact (Passed.waiting orderly kind rfl waits).1
    | waitSend =>
      simp only [not_mem_nil, and_false]
      cases raw pkg with
      | failed => exact .stop orderly _
      | broken => exact .stop orderly _
      | sent =>
        cases kind : pkg.response with
        | false =>
          have same : message
              { pkg with pkgStatus := .waitResponse, sendTimePoint := now } = pkg.message := rfl
          exact (Passed.waiting orderly kind same waits).2
        | true =>
          obtain ⟨ans, messages, data, old, sent, behind⟩ := ih orderly.of_cons
          refine ⟨?_, ?_, ?_, ?_, ?_, behind⟩
          · simpa [wrote, answers_cons, kind] using ans
          · simpa [wrote, normal_cons, kind] using messages
          · simpa [wrote, normal_cons, kind] using data
          · intro other mem
            obtain ⟨was, wasMem, same⟩ := old other mem
            exact ⟨was, mem_cons_of_mem _ wasMem, same⟩
          · exact cons_subset_cons pkg sent

theorem Orderly.passed (orderly : Orderly sessionId outPkgs) {pass : Pass}
    (passed : Passed outPkgs pass) : Orderly sessionId pass.outPkgs :=
  orderly.of_messages passed.old passed.behind

end Hdc.Uart
