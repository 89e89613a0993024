import Mathlib.Data.List.Basic
import Mathlib.Data.List.Infix

/-!
Reassembly of a framed stream from arbitrary reads.

A sender writes messages as non-empty frames; a receiver gets the bytes in pieces that know nothing
of the frames. What has arrived is complete frames and a part of the next one, in one way only.

* `exists_complete`: every prefix of a stream is complete frames and such a tail;
* `Progress`: what a receiver has delivered, and holds, after a prefix of the stream;
* `Progress.delivered_all`: after the whole stream every message is delivered;
* `exists_split`, `split_unique`: any bytes at all are frames and a rest that does not start with
  one, in one way only if no frame is the beginning of another.
-/

namespace Framing

open List

variable {α β : Type}

/-- The bytes of a list of messages, frame after frame. -/
def stream (encode : β → List α) (messages : List β) : List α := messages.flatMap encode

@[simp] theorem stream_nil (encode : β → List α) : stream encode [] = [] := rfl

@[simp] theorem stream_cons (encode : β → List α) (message : β) (messages : List β) :
    stream encode (message :: messages) = encode message ++ stream encode messages :=
  flatMap_cons

@[simp] theorem stream_append (encode : β → List α) (first second : List β) :
    stream encode (first ++ second) = stream encode first ++ stream encode second :=
  flatMap_append

/-- `tail` does not yet hold the next frame: nothing is left over when no message
is pending, and otherwise it is a proper prefix of the first pending frame. -/
def Waits (encode : β → List α) : List β → List α → Prop
  | [], tail => tail = []
  | message :: _, tail => tail <+: encode message ∧ tail.length < (encode message).length

variable {encode : β → List α}

variable {tail : List α}

/-- A tail that waits is part of the stream that is still to come. -/
theorem Waits.isPrefix {pending : List β} (waits : Waits encode pending tail) :
    tail <+: stream encode pending := by
  cases pending with
  | nil =>
    obtain rfl : tail = [] := waits
    exact List.nil_prefix
  | cons message pending => exact waits.1.trans (by simp)

variable {messages : List β}

/-- Every prefix of a stream is complete frames followed by a tail that waits. -/
theorem exists_complete {received : List α} (part : received <+: stream encode messages) :
    ∃ complete pending tail, messages = complete ++ pending ∧
    received = stream encode complete ++ tail ∧ Waits encode pending tail := by
  induction messages generalizing received with
  | nil => exact ⟨[], [], [], rfl, by simpa using part, rfl⟩
  | cons message messages ih =>
    by_cases short : received.length < (encode message).length
    · -- The first frame is not complete: all of it waits.
      have inFrame : received <+: encode message :=
        prefix_of_prefix_length_le part (prefix_append ..) (Nat.le_of_lt short)
      exact ⟨[], message :: messages, _, rfl, by simp, inFrame, short⟩
    · obtain ⟨_, rfl⟩ := prefix_of_prefix_length_le (prefix_append ..) part
        (Nat.not_lt.mp short)
      obtain ⟨complete, pending, tail, rfl, rfl, waits⟩ :=
        ih ((prefix_append_right_inj _).mp part)
      exact ⟨message :: complete, _, _, rfl, by simp, waits⟩

/-- Where a receiver stands that was sent `messages` and has got `received` of
their stream: it has delivered the complete frames, in order, and holds the
tail. -/
structure Progress (encode : β → List α) (messages : List β) (received : List α)
    (delivered : List β) (tail : List α) : Prop where
  bytes : received = stream encode delivered ++ tail
  rest : ∃ pending, messages = delivered ++ pending ∧ Waits encode pending tail

theorem Progress.start (messages : List β) (nonempty : ∀ message, encode message ≠ []) :
    Progress encode messages [] [] [] := by
  refine ⟨rfl, _, rfl, ?_⟩
  cases messages with
  | nil => rfl
  | cons message messages => exact ⟨List.nil_prefix, length_pos_iff.mpr (nonempty _)⟩

/-- One more read: its bytes, after the tail, are the frames that are complete
now and a new tail. -/
theorem Progress.step {received chunk : List α} {delivered : List β}
    (progress : Progress encode messages received delivered tail)
    (part : received ++ chunk <+: stream encode messages) :
    ∃ complete tail', tail ++ chunk = stream encode complete ++ tail' ∧
    Progress encode messages (received ++ chunk) (delivered ++ complete) tail' := by
  obtain ⟨rfl, _, rfl, -⟩ := progress
  rw [append_assoc, stream_append, prefix_append_right_inj] at part
  obtain ⟨complete, pending', tail', rfl, split, waits⟩ := exists_complete part
  refine ⟨complete, tail', split, ?_, pending', by rw [append_assoc], waits⟩
  rw [append_assoc, split, stream_append, append_assoc]

/-- A prefix of the stream tells where the receiver stands. -/
theorem Progress.unique {received : List α} {first second : List β} {x y : List α}
    (one : Progress encode messages received first x)
    (other : Progress encode messages received second y) : first = second ∧ x = y := by
  have apart : ∀ {shorter longer extra : List β} {x y : List α}, longer = shorter ++ extra →
      Progress encode messages received shorter x → Progress encode messages received longer y →
      shorter = longer ∧ x = y := by
    rintro shorter longer extra x y rfl ⟨bytes, pending, split, waits⟩ ⟨bytes', pending', split', -⟩
    rw [bytes, stream_append, append_assoc] at bytes'
    have tail := append_cancel_left bytes'
    rw [split, append_assoc] at split'
    obtain rfl := append_cancel_left split'
    cases extra with
    | nil => exact ⟨(append_nil _).symm, tail⟩
    | cons message extra =>
      have short := waits.2
      rw [tail, stream_cons, append_assoc, length_append] at short
      omega
  obtain ⟨pending, split, -⟩ := one.rest
  obtain ⟨pending', split', -⟩ := other.rest
  rcases append_eq_append_iff.mp (split.symm.trans split') with ⟨extra, longer, -⟩ | ⟨extra, longer, -⟩
  · exact apart longer one other
  · obtain ⟨same, tails⟩ := apart longer other one
    exact ⟨same.symm, tails.symm⟩

/-- With the whole stream received, everything is delivered and nothing held. -/
theorem Progress.delivered_all {delivered : List β}
    (progress : Progress encode messages (stream encode messages) delivered tail) :
    delivered = messages ∧ tail = [] := by
  obtain ⟨pending, rfl, waits⟩ := progress.rest
  have same : stream encode pending = tail := by
    have := progress.bytes
    rwa [stream_append, append_cancel_left_eq] at this
  cases pending with
  | nil => exact ⟨by simp, waits⟩
  | cons message pending =>
    -- The tail would be at least the frame it is a proper part of.
    have := waits.2
    rw [← same, stream_cons, length_append] at this
    omega

/-! ### Bytes that nobody promised -/

/-- No legal frame stands at the front. -/
def NoFrame (encode : β → List α) (legal : β → Prop) (rest : List α) : Prop :=
  ∀ message, legal message → ¬ encode message <+: rest

/-- Any bytes are legal frames and a rest without one at its front. -/
theorem exists_split (legal : β → Prop) (nonempty : ∀ message, encode message ≠ [])
    (bytes : List α) :
    ∃ frames rest, bytes = stream encode frames ++ rest ∧ (∀ message ∈ frames, legal message) ∧
    NoFrame encode legal rest := by
  induction long : bytes.length using Nat.strong_induction_on generalizing bytes with
  | _ size ih =>
    by_cases front : NoFrame encode legal bytes
    · exact ⟨[], bytes, rfl, by simp, front⟩
    · simp only [NoFrame, not_forall, not_not] at front
      obtain ⟨message, isLegal, behind, rfl⟩ := front
      have shorter : behind.length < size := by
        have := length_pos_iff.mpr (nonempty message)
        rw [← long, length_append]
        omega
      obtain ⟨frames, rest, rfl, allLegal, noFrame⟩ := ih _ shorter behind rfl
      have legal := forall_mem_cons.mpr ⟨isLegal, allLegal⟩
      exact ⟨message :: frames, rest, by simp, legal, noFrame⟩

/-- There is only one such split if the front of the bytes tells the frame. -/
theorem split_unique {legal : β → Prop}
    (tells : ∀ {a b x y}, legal a → legal b → encode a ++ x = encode b ++ y → a = b)
    {first second : List β} {x y : List α} (firstLegal : ∀ message ∈ first, legal message)
    (secondLegal : ∀ message ∈ second, legal message) (firstRest : NoFrame encode legal x)
    (secondRest : NoFrame encode legal y)
    (same : stream encode first ++ x = stream encode second ++ y) : first = second ∧ x = y := by
  induction first generalizing second with
  | nil =>
    cases second with
    | nil => exact ⟨rfl, same⟩
    | cons message second =>
      rw [stream_cons, append_assoc] at same
      exact absurd ⟨_, same.symm⟩ (firstRest _ (secondLegal _ mem_cons_self))
  | cons message first ih =>
    have here := firstLegal _ mem_cons_self
    cases second with
    | nil =>
      rw [stream_cons, append_assoc] at same
      exact absurd ⟨_, same⟩ (secondRest _ here)
    | cons other second =>
      rw [stream_cons, stream_cons, append_assoc, append_assoc] at same
      obtain rfl := tells here (secondLegal other mem_cons_self) same
      obtain ⟨rfl, rfl⟩ := ih (fun m mem => firstLegal m (mem_cons_of_mem _ mem))
        (fun m mem => secondLegal m (mem_cons_of_mem _ mem)) (append_cancel_left same)
      exact ⟨rfl, rfl⟩

/-! ### Frames of one size -/

section OneSize

variable {size : Nat} (oneSize : ∀ message, (encode message).length = size)
include oneSize

theorem length_stream (messages : List β) : (stream encode messages).length = size * messages.length := by
  induction messages with
  | nil => rfl
  | cons message messages ih =>
    rw [stream_cons, length_append, ih, oneSize, length_cons, Nat.mul_succ, Nat.add_comm]

/-- Whole frames are dropped from the front of a stream. -/
theorem drop_stream (messages : List β) (count : Nat) :
    (stream encode messages).drop (size * count) = stream encode (messages.drop count) := by
  induction count generalizing messages with
  | zero => rfl
  | succ count ih =>
    cases messages with
    | nil => simp
    | cons message messages =>
      rw [stream_cons, Nat.mul_succ, Nat.add_comm, ← drop_drop, ← oneSize message,
        drop_left, oneSize message, ih, drop_succ_cons]

theorem take_stream (messages : List β) (count : Nat) :
    (stream encode messages).take (size * count) = stream encode (messages.take count) := by
  induction count generalizing messages with
  | zero => simp
  | succ count ih =>
    cases messages with
    | nil => simp
    | cons message messages =>
      rw [stream_cons, Nat.mul_succ, Nat.add_comm, ← oneSize message, take_length_add_append,
        oneSize message, ih, take_succ_cons, stream_cons]

end OneSize

end Framing
