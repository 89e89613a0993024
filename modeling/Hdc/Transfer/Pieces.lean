import Hdc.SerialStruct.Messages
import Hdc.Transfer.Data

/-!
A piece of a file on the wire.

The head of a piece stands in 64 bytes that are zero behind it, and the parser reads the
zeros as keys of no field. So the receiving side gets back the place, the sizes and the
kind of compression, and from these the data.

* `sendIoPayload_encodes`: what is sent makes the receiver submit the write of exactly
  this data at exactly this place.
-/

namespace Hdc.Transfer.Data

open SerialStruct OffsetWrites List UInt32

/-! ### The head -/

theorem length_writeVarint64_le {value : Nat} (bound : value < 2 ^ 64) :
    (writeVarint64 value).length ≤ 10 := by
  obtain ⟨_, written, same⟩ := exists_encode64_of_lt bound
  rw [same]
  exact (Leb128.encode_length written).2

theorem length_head_le (head : TransferPayload) :
    (serializeToString transferPayloadFields head).length ≤ 45 := by
  have key : ∀ tag, (writeVarint32 (makeTagWireType tag .varint)).length ≤ 5 := fun tag =>
    (length_writeVarint32 (makeTagWireType_lt tag .varint)).2
  have index := length_writeVarint64_le head.index.toNat_lt
  have type := (length_writeVarint32 (Nat.lt_trans head.compressType.toNat_lt (by decide))).2
  have compressed := (length_writeVarint32 head.compressSize.toNat_lt).2
  have uncompressed := (length_writeVarint32 head.uncompressSize.toNat_lt).2
  have written : serializeToString transferPayloadFields head =
      (writeVarint32 (makeTagWireType 1 .varint) ++ writeVarint64 head.index.toNat) ++
      ((writeVarint32 (makeTagWireType 2 .varint) ++ writeVarint32 head.compressType.toNat) ++
      ((writeVarint32 (makeTagWireType 3 .varint) ++ writeVarint32 head.compressSize.toNat) ++
      ((writeVarint32 (makeTagWireType 4 .varint) ++ writeVarint32 head.uncompressSize.toNat) ++
        []))) := rfl
  have key₁ := key 1
  have key₂ := key 2
  have key₃ := key 3
  have key₄ := key 4
  simp only [written, length_append, length_nil]
  omega

theorem length_payloadPrefix (head : TransferPayload) :
    (payloadPrefix head).length = payloadPrefixReserve := by
  have short := length_head_le head
  rw [payloadPrefix, length_append, length_replicate, payloadPrefixReserve]
  omega

theorem parse_payloadPrefix (head target : TransferPayload) :
    parseFromString transferPayloadFields target (payloadPrefix head) = head := by
  have behind := passedOver_zeros (show ∀ field ∈ transferPayloadFields, field.tag ≠ 0 by decide)
    (payloadPrefixReserve - (serializeToString transferPayloadFields head).length)
  have passed := parseFromString_passedOver transferPayloadMessage.steady behind head []
  have back : ∀ field ∈ transferPayloadFields, field.codec.ReadsBack (field.get head) :=
    transferPayloadMessage.readsBack trivial
  have fields := parseFromString_fields_append transferPayloadMessage.distinct
    transferPayloadMessage.small back (fun _ mem => mem) target
    (List.replicate (payloadPrefixReserve -
      (serializeToString transferPayloadFields head).length) 0)
  rw [append_nil] at passed
  exact fields.trans passed

/-! ### The body -/

/-- A body restores its data, given sizes and compression as they are sent. -/
structure Restores (lz4 : Lz4) (compressType : UInt8) (body data : Bytes) : Prop where
  short : body.length ≤ data.length
  plain : compressType = compressNone → body.length = data.length
  clear : ∀ pld : TransferPayload, pld.compressType = compressType →
    pld.compressSize.toNat = body.length → pld.uncompressSize.toNat = data.length →
    clearBody lz4 pld body = some data

variable {lz4 : Lz4} {body : Bytes}

theorem clearBody_zero {pld : TransferPayload}
    (size : pld.compressSize.toNat = 0) : clearBody lz4 pld body = some [] := by
  rw [clearBody, if_pos (UInt32.toNat_inj.mp size)]

theorem clearBody_ne_zero {pld : TransferPayload} (size : pld.compressSize.toNat ≠ 0) :
    clearBody lz4 pld body = if pld.compressType = compressLz4 then
      lz4.decompressSafe body pld.uncompressSize.toNat else some body := by
  rw [clearBody, if_neg fun zero => size (congrArg toNat zero)]

variable {compressType : UInt8}

/-- Data that goes as it is. -/
theorem restores_plain (other : compressType ≠ compressLz4)
    (data : Bytes) : Restores lz4 compressType data data where
  short := Nat.le_refl _
  plain _ := rfl
  clear := by
    intro pld type size _
    by_cases empty : data.length = 0
    · rw [clearBody_zero (size.trans empty), length_eq_zero_iff.mp empty]
    · rw [clearBody_ne_zero (size ▸ empty), type, if_neg other]

variable {data : Bytes}

theorem restores_lz4 {out : Bytes} (compressed : lz4.compressDefault data data.length = some out) :
    Restores lz4 compressLz4 out data where
  short := (lz4.fits compressed).2
  plain := by
    intro same
    cases same
  clear := by
    intro pld type size whole
    have full := mt length_eq_zero_iff.mp (lz4.fits compressed).1
    rw [clearBody_ne_zero (size ▸ full), type, if_pos rfl, whole, lz4.restores compressed]

theorem restores_empty (lz4 : Lz4) (compressType : UInt8) : Restores lz4 compressType [] [] where
  short := Nat.le_refl _
  plain _ := rfl
  clear := fun _ _ size _ => clearBody_zero size

theorem compressBody_restores {lz4Buffer : Bool}
    {out : UInt8 × Bytes} (compressed : compressBody lz4 compressType data lz4Buffer = some out) :
    Restores lz4 out.1 out.2 data := by
  rw [compressBody] at compressed
  split at compressed
  next empty =>
    cases compressed
    rw [length_eq_zero_iff.mp empty]
    exact restores_empty _ _
  next =>
    split at compressed
    next =>
      split at compressed
      next =>
        split at compressed
        next body packed =>
          cases compressed
          exact restores_lz4 packed
        next =>
          cases compressed
          exact restores_plain (show compressNone ≠ compressLz4 by decide) _
      next => cases compressed
    next other =>
      cases compressed
      exact restores_plain other _

/-! ### A piece -/

/-- What comes of a payload: the receiver submits this write, if it can. -/
def Encodes (lz4 : Lz4) (payload : Bytes) (write : Write UInt8) : Prop :=
  payload.length ≤ hdcBufMaxBytes ∧ ∀ task answer,
    recvIoPayload lz4 task payload answer =
      let io := Task.simpleFileIo task write.offset write.data write.data.length answer.io
      if io.1 < 0 then (false, io.2) else (true, io.2)

theorem encodes_payload
    (restores : Restores lz4 compressType body data) {index : Nat} (small : index < 2 ^ 64)
    (piece : data.length ≤ maxSizeIobuf) :
    Encodes lz4 (payloadPrefix
      { index := UInt64.ofNat index
        compressType := compressType
        compressSize := ofNat body.length
        uncompressSize := ofNat data.length } ++ body) ⟨index, data⟩ := by
  have short := restores.short
  have length : ∀ head : TransferPayload,
      (payloadPrefix head ++ body).length = payloadPrefixReserve + body.length := by
    intro head
    rw [length_append, length_payloadPrefix]
  have iobuf : maxSizeIobuf = 523264 := rfl
  have place : (UInt64.ofNat index).toNat = index := UInt64.toNat_ofNat_of_lt' small
  have bodySize : (ofNat body.length).toNat = body.length :=
    toNat_ofNat_of_lt' (show _ < 4294967296 by omega)
  have dataSize : (ofNat data.length).toNat = data.length :=
    toNat_ofNat_of_lt' (show _ < 4294967296 by omega)
  constructor
  · rw [length, payloadPrefixReserve, hdcBufMaxBytes]
    omega
  · intro task answer
    rw [recvIoPayload, length, if_neg (by omega),
      take_left' (length_payloadPrefix _), parse_payloadPrefix,
      drop_left' (length_payloadPrefix _)]
    dsimp only
    rw [bodySize, dataSize, if_neg (by omega), take_length,
      restores.clear _ rfl bodySize dataSize]
    dsimp only
    rw [if_neg (not_not.mpr rfl), if_neg, place]
    rintro ⟨none, _⟩
    have := restores.plain none
    omega

/-- `SendIOPayload` fails, or the receiver gets the piece as it was read. -/
theorem sendIoPayload_encodes (lz4 : Lz4) (ctx : CtxFile) {index : Nat} (small : index < 2 ^ 64)
    (piece : data.length ≤ maxSizeIobuf) (answer : Answer) :
    sendIoPayload lz4 ctx index data answer = (false, []) ∨
      ∃ payload, sendIoPayload lz4 ctx index data answer = (true, [.data payload]) ∧
        Encodes lz4 payload ⟨index, data⟩ := by
  rw [sendIoPayload]
  split
  next => exact .inl rfl
  next compressType body compressed =>
    dsimp only
    split
    · exact .inl rfl
    split
    · exact .inr ⟨_, rfl, encodes_payload (compressBody_restores compressed) small piece⟩
    · exact .inl rfl

end Hdc.Transfer.Data
