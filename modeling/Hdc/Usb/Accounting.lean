import Hdc.Lib.ExactRuns
import Hdc.Usb.Package

/-!
How much of a block went through (`SendToHdcStream`).

`payloadSize` is what a session still expects of the block that was announced last. It is
lowered by what the write to the session's stream returned, whatever was announced, and
the write may get a part through before it fails. The books are kept beside the session:
what the last accepted head announced, and what went through since.

* `payload_accounting`: the books are in order throughout a run exactly if all its calls
  are.
-/

namespace Hdc.Usb

open List UsbSession

/-- A session with its books. -/
structure Account where
  session : UsbSession
  announced : Option UInt32
  forwarded : Nat
deriving DecidableEq, Repr

open Account

/-- A buffer that was read, and what the session's stream does with it. -/
structure Call where
  appendData : Bytes
  transport : Transport
deriving DecidableEq, Repr

/-- A head of this session that announces a block. -/
def UsbSession.accepts (session : UsbSession) (appendData : Bytes) : Bool :=
  isUsbPacketHeader appendData && decide (headSessionId appendData = session.sessionId) &&
    hasOption (headOption appendData) usbOptionHeader

/-- A call of `SendToHdcStream`. -/
def Account.step (account : Account) (call : Call) : Account :=
  let session := (account.session.sendToHdcStream (usbToHdcProtocol call.transport)
    call.appendData).2
  if account.session.accepts call.appendData then
    ⟨session, some (headDataSize call.appendData), 0⟩
  else
    ⟨session, account.announced,
      account.forwarded + (session.stream.length - account.session.stream.length)⟩

/-- A session before any head. Its `payloadSize` is whatever it is. -/
def Account.open (session : UsbSession) : Account := ⟨session, none, 0⟩

def Account.run (session : UsbSession) (calls : List Call) : Account :=
  calls.foldl Account.step (Account.open session)

/-- No more went through than was announced, and `payloadSize` is the difference. -/
def Account.Balanced (account : Account) : Prop :=
  ∀ announced, account.announced = some announced →
    account.forwarded ≤ announced.toNat ∧
      account.session.payloadSize.toNat = announced.toNat - account.forwarded

/-- The call is a head, or nothing is expected, or what is read is no more than what is
expected and goes through as a whole or not at all. -/
def Account.Fine (account : Account) (call : Call) : Prop :=
  account.announced = none ∨ isUsbPacketHeader call.appendData = true ∨
    account.session.payloadSize = 0 ∨
    (0 ≤ (usbToHdcProtocol call.transport call.appendData).ret →
      call.appendData.length ≤ account.session.payloadSize.toNat) ∧
    ((usbToHdcProtocol call.transport call.appendData).ret < 0 →
      (usbToHdcProtocol call.transport call.appendData).passed = 0)

/-! ### One call -/

theorem preSendUsbSoftReset_payload (session : UsbSession) (sessionIdOld : UInt32) :
    (session.preSendUsbSoftReset sessionIdOld).payloadSize = session.payloadSize ∧
    (session.preSendUsbSoftReset sessionIdOld).stream = session.stream := by
  rw [preSendUsbSoftReset]
  split
  · exact ⟨rfl, rfl⟩
  · exact ⟨rfl, rfl⟩

variable {account : Account} {call : Call}

/-- A head that is accepted opens the books anew. -/
theorem Account.step_accepted (accepted : account.session.accepts call.appendData = true) :
    (account.step call).announced = some (headDataSize call.appendData) ∧
    (account.step call).forwarded = 0 ∧
    (account.step call).session.payloadSize = headDataSize call.appendData := by
  simp only [accepts, Bool.and_eq_true, decide_eq_true_eq] at accepted
  obtain ⟨⟨head, mine⟩, option⟩ := accepted
  rw [step, if_pos (by simp [accepts, head, mine, option])]
  refine ⟨rfl, rfl, ?_⟩
  dsimp only
  rw [sendToHdcStream, if_pos head, checkPacketOption,
    if_neg (not_not.mpr mine), if_pos option]

/-- Anything that is no head, or comes when nothing is expected, leaves the books alone. -/
theorem Account.step_idle (refused : account.session.accepts call.appendData = false)
    (idle : isUsbPacketHeader call.appendData = true ∨ account.session.payloadSize = 0) :
    (account.step call).announced = account.announced ∧
    (account.step call).forwarded = account.forwarded ∧
    (account.step call).session.payloadSize = account.session.payloadSize := by
  have session : ((account.session.sendToHdcStream (usbToHdcProtocol call.transport)
        call.appendData).2).payloadSize = account.session.payloadSize ∧
      ((account.session.sendToHdcStream (usbToHdcProtocol call.transport)
        call.appendData).2).stream = account.session.stream := by
    cases head : isUsbPacketHeader call.appendData with
    | true =>
      rw [sendToHdcStream_head _ _ head, checkPacketOption]
      split
      · exact preSendUsbSoftReset_payload _ _
      next mine =>
        have option : hasOption (headOption call.appendData) usbOptionHeader = false := by
          simpa [accepts, head, not_not.mp mine] using refused
        rw [option]
        exact ⟨rfl, rfl⟩
    | false =>
      rw [sendToHdcStream_idle _ head (idle.resolve_left (by rw [head]; decide))]
      exact preSendUsbSoftReset_payload _ _
  rw [step, if_neg (by rw [refused]; decide)]
  refine ⟨rfl, ?_, session.1⟩
  dsimp only
  rw [session.2, Nat.sub_self, Nat.add_zero]

/-- A part of a body is written, and the books follow what the write says. -/
theorem Account.step_body (account : Account) (call : Call)
    (body : isUsbPacketHeader call.appendData = false)
    (expected : account.session.payloadSize ≠ 0) :
    let written := usbToHdcProtocol call.transport call.appendData
    (account.step call).announced = account.announced ∧
      (account.step call).forwarded = account.forwarded + min written.passed call.appendData.length ∧
      (account.step call).session.payloadSize =
        if written.ret < 0 then account.session.payloadSize
        else account.session.payloadSize - UInt32.ofNat written.ret.toNat := by
  intro written
  have refused : ¬ account.session.accepts call.appendData = true := by
    simp [accepts, body]
  rw [step, if_neg refused, sendToHdcStream_body _ body expected]
  refine ⟨rfl, ?_, ?_⟩
  · dsimp only
    split
    · simp only [length_append, length_take, Nat.add_sub_cancel_left]
      rfl
    · simp only [length_append, length_take, Nat.add_sub_cancel_left]
      rfl
  · dsimp only
    split
    · rfl
    · rfl

/-- With a block announced, a part of its body keeps the books in order exactly if it is
no longer than what is expected and goes through as a whole or not at all. -/
theorem Account.balanced_body_iff {announced : UInt32}
    (balanced : account.Balanced) (opened : account.announced = some announced)
    (body : isUsbPacketHeader call.appendData = false)
    (expected : account.session.payloadSize ≠ 0) : (account.step call).Balanced ↔
    (0 ≤ (usbToHdcProtocol call.transport call.appendData).ret →
    call.appendData.length ≤ account.session.payloadSize.toNat) ∧
    ((usbToHdcProtocol call.transport call.appendData).ret < 0 →
    (usbToHdcProtocol call.transport call.appendData).passed = 0) := by
  obtain ⟨still, forwarded, size⟩ := account.step_body call body expected
  obtain ⟨within, difference⟩ := balanced announced opened
  have positive : 0 < account.session.payloadSize.toNat := by
    refine Nat.pos_of_ne_zero fun zero => expected ?_
    exact UInt32.toNat_inj.mp zero
  have small := account.session.payloadSize.toNat_lt
  have books : (account.step call).Balanced ↔
      (account.step call).forwarded ≤ announced.toNat ∧
        (account.step call).session.payloadSize.toNat =
          announced.toNat - (account.step call).forwarded := by
    rw [Account.Balanced, still, opened]
    exact ⟨fun all => all _ rfl, fun one other same => Option.some.inj same ▸ one⟩
  rw [books, forwarded, size]
  rcases usbToHdcProtocol_spec call.transport call.appendData with whole | ⟨failed, part⟩
  · rw [whole]
    have nonneg : ¬ ((call.appendData.length : Nat) : Int) < 0 := by omega
    simp only [nonneg, if_false, Int.toNat_natCast, Nat.min_self, false_implies, and_true]
    constructor
    · rintro ⟨fits, -⟩ -
      omega
    · intro fits
      have short := fits (by omega)
      have length : (UInt32.ofNat call.appendData.length).toNat = call.appendData.length :=
        UInt32.toNat_ofNat_of_lt' (show _ < 4294967296 by omega)
      have below : UInt32.ofNat call.appendData.length ≤ account.session.payloadSize := by
        rw [UInt32.le_iff_toNat_le, length]
        exact short
      rw [UInt32.toNat_sub_of_le _ _ below, length]
      omega
  · have least := Nat.min_eq_left part
    rw [if_pos failed, least]
    constructor
    · rintro ⟨fits, same⟩
      refine ⟨fun nonneg => absurd failed (by omega), fun _ => ?_⟩
      omega
    · rintro ⟨-, nothing⟩
      rw [nothing failed]
      exact ⟨within, difference⟩

/-! ### Runs -/

/-- A fine call keeps the books in order. -/
theorem Account.balanced_step (balanced : account.Balanced)
    (fine : account.Fine call) : (account.step call).Balanced := by
  cases accepted : account.session.accepts call.appendData with
  | true =>
    intro announced same
    obtain ⟨opened, nothing, size⟩ := step_accepted accepted
    rw [opened] at same
    obtain rfl := Option.some.inj same
    rw [nothing, size]
    exact ⟨Nat.zero_le _, rfl⟩
  | false =>
    by_cases idle : isUsbPacketHeader call.appendData = true ∨ account.session.payloadSize = 0
    · intro announced same
      obtain ⟨still, sameForwarded, sameSize⟩ := step_idle accepted idle
      rw [still] at same
      rw [sameForwarded, sameSize]
      exact balanced _ same
    · obtain ⟨body, expected⟩ := not_or.mp idle
      have isBody : isUsbPacketHeader call.appendData = false := by simpa using body
      cases opened : account.announced with
      | none =>
        intro announced same
        rw [(account.step_body call isBody expected).1, opened] at same
        cases same
      | some announced =>
        rw [balanced_body_iff balanced opened isBody expected]
        exact ((fine.resolve_left (by simp [opened])).resolve_left body).resolve_left expected

/-- Any other call puts them out of order. -/
theorem Account.not_balanced_step (balanced : account.Balanced)
    (wrong : ¬ account.Fine call) : ¬ (account.step call).Balanced := by
  simp only [Account.Fine, not_or] at wrong
  obtain ⟨open', body, expected, bad⟩ := wrong
  obtain ⟨_, opened⟩ := Option.ne_none_iff_exists'.mp open'
  rw [balanced_body_iff balanced opened (by simpa using body) expected]
  exact bad

/-- The books are in order throughout a run exactly if each call is fine where it comes. -/
theorem payload_accounting (session : UsbSession) (calls : List Call) :
    (∀ k, (run session (calls.take k)).Balanced) ↔
      ∀ k call, calls[k]? = some call → (run session (calls.take k)).Fine call :=
  ExactRuns.holds_iff Account.Balanced (fun _ same => by cases same) balanced_step
    not_balanced_step id

/-- A block of five bytes is announced and ten arrive at the server. -/
def overrun : List Call :=
  [⟨usbHead 7 usbOptionHeader 5, .host []⟩, ⟨[0, 1, 2, 3, 4, 5, 6, 7, 8, 9], .host [.sent 10]⟩]

/-- All ten go through, and `payloadSize` wraps around. -/
theorem payload_underflows :
    let account := Account.run ⟨7, true, 0, false, [], []⟩ overrun
    account.announced = some 5 ∧ account.forwarded = 10 ∧
      account.session.payloadSize = 4294967291 := by
  decide

end Hdc.Usb
