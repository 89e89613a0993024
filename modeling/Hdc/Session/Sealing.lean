import Hdc.Session.Encrypted
import Mathlib.Algebra.Order.BigOperators.Group.List

/-!
What an encrypted send reads back (`hdc_ssl.cpp`, `Send`).

`Send` allocates `GetSSLBufLen` of the packet's size and one byte more. `Encrypt` writes the packet
to TLS and reads into the same buffer whatever the output BIO then holds: the records of the
packet, and before them any output that nobody has read. Both the cut into records and what a
record adds are up to TLS.

* `fitting_iff`: when the buffer is large enough, whatever the records add.
-/

namespace Hdc.Ssl

open List

def bufSizeSslHead : Nat := 22

/-- `GetSSLBufLen`: unsigned arithmetic, with the result taken as a signed number. -/
def getSSLBufLen (bufLen : Nat) : Int :=
  Int.bmod (bufLen + ((bufLen - 1) / bufSizeDefault16 + 1) * bufSizeSslHead : Nat) (2 ^ 32)

/-- A packet for which `Send` gets its buffer: a negative size is refused. -/
structure Packet where
  bytes : Bytes
  sent : bytes ≠ []
  isInt : bytes.length < 2 ^ 31
  accepted : 0 ≤ getSSLBufLen bytes.length

/-- The plaintext of the records that TLS cuts a packet into. -/
structure Cut (packet : Packet) where
  plain : List Bytes
  joined : plain.flatten = packet.bytes
  bounded : ∀ piece ∈ plain, piece.length ≤ bufSizeDefault16

/-- `Encrypt`: the output BIO after `SSL_write` made these records, if it did not fail. -/
def encrypt (outPending : Bytes) (sslWrite : Option (List Bytes)) : Option Bytes :=
  sslWrite.map fun records => outPending ++ records.flatten

/-- A record adds no more than the head that the buffer has room for. -/
def Seals (plain record : Bytes) : Prop := record.length ≤ plain.length + bufSizeSslHead

/-- What `Encrypt` reads fits the buffer, however the pieces are sealed. -/
def Fitting (packet : Packet) (outPending : Bytes) (cut : Cut packet) : Prop :=
  ∀ records, Forall₂ Seals cut.plain records → ∀ read, encrypt outPending (some records) = some read →
    (read.length : Int) ≤ getSSLBufLen packet.bytes.length + 1

namespace Packet

variable (packet : Packet)

/-- The number of records if all but the last one are full. -/
def fewest : Nat := (packet.bytes.length - 1) / bufSizeDefault16 + 1

theorem getSSLBufLen_eq :
    getSSLBufLen packet.bytes.length = packet.bytes.length + packet.fewest * bufSizeSslHead := by
  have accepted := packet.accepted
  have isInt := packet.isInt
  unfold getSSLBufLen at accepted ⊢
  simp only [fewest, bufSizeDefault16, bufSizeSslHead] at accepted ⊢
  rw [Int.bmod_def] at accepted ⊢
  split at accepted <;> omega

/-- No cut has fewer records. -/
theorem fewest_le (cut : Cut packet) : packet.fewest ≤ cut.plain.length := by
  have most : cut.plain.flatten.length ≤ cut.plain.length * bufSizeDefault16 := by
    simpa using sum_le_card_nsmul (cut.plain.map length) bufSizeDefault16 (by simpa using cut.bounded)
  have some_byte := length_pos_iff.mpr packet.sent
  rw [cut.joined] at most
  unfold fewest bufSizeDefault16 at *
  omega

end Packet

theorem length_flatten_le {plain records : List Bytes} (sealed : Forall₂ Seals plain records) :
    records.flatten.length ≤ plain.flatten.length + plain.length * bufSizeSslHead := by
  induction sealed with
  | nil => simp
  | cons seals _ ih =>
    simp only [Seals, flatten_cons, length_append, length_cons, Nat.succ_mul] at *
    omega

/-- Records that take all the room they may. -/
theorem exists_sealed (plain : List Bytes) : ∃ records, Forall₂ Seals plain records ∧
    records.flatten.length = plain.flatten.length + plain.length * bufSizeSslHead := by
  induction plain with
  | nil => exact ⟨[], .nil, rfl⟩
  | cons piece plain ih =>
    obtain ⟨records, sealed, total⟩ := ih
    refine ⟨(piece ++ replicate bufSizeSslHead 0) :: records, .cons (by simp [Seals]) sealed, ?_⟩
    simp only [flatten_cons, length_append, length_cons, length_replicate, Nat.succ_mul]
    omega

/-- The buffer is large enough exactly if all records but the last are full and no more than one
byte of output was unread. -/
theorem fitting_iff (packet : Packet) (outPending : Bytes) (cut : Cut packet) :
    Fitting packet outPending cut ↔ cut.plain.length = packet.fewest ∧ outPending.length ≤ 1 := by
  have least := packet.fewest_le cut
  have size := packet.getSSLBufLen_eq
  have joined := congrArg length cut.joined
  constructor
  · intro fits
    obtain ⟨records, sealed, total⟩ := exists_sealed cut.plain
    have fit := fits records sealed _ rfl
    rw [length_append, total, size] at fit
    unfold bufSizeSslHead at fit
    omega
  · rintro ⟨count, _⟩ records sealed _ ⟨⟩
    have most := length_flatten_le sealed
    rw [length_append]
    rw [count] at most
    omega

/-- One byte to send, with the answer to a key update unread. -/
def onePacket : Packet := ⟨[0], by simp, by simp, by decide⟩

theorem unread_output_overflows :
    ¬ Fitting onePacket (replicate 27 0) ⟨[[0]], rfl, by simp [bufSizeDefault16]⟩ := by
  intro fits
  have fit := fits [[0]] (.cons (by simp [Seals]) .nil) _ rfl
  revert fit
  decide

end Hdc.Ssl
