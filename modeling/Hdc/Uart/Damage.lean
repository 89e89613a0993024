import Hdc.Uart.Table

/-!
A packet in which one byte was changed on the line.

Both sums are sums of bytes, so each tells one change; and the head, which says how many
bytes the other is over, is tested first. So either the head is refused, or it is the one that
was sent and the data is refused once it is complete (`damaged_byte_refused`).
-/

namespace Hdc.Uart

open List UartHead Endpoint RetErrCode

variable {data : Bytes}

/-- A sum tells when one byte is another. -/
theorem accumulate_set {i : Nat} {byte : UInt8} (inside : i < data.length)
    (same : accumulate (data.set i byte) = accumulate data) : data[i]? = some byte := by
  have start : ∀ (rest : Bytes) {a b : UInt32}, rest.foldl (fun sum byte => sum + byte.toUInt32) a =
      rest.foldl (fun sum byte => sum + byte.toUInt32) b → a = b := by
    intro rest
    induction rest with
    | nil => exact id
    | cons first rest ih => exact fun same => (UInt32.add_left_inj _).mp (ih same)
  rw [accumulate, accumulate, set_eq_take_append_cons_drop, if_pos inside, foldl_append] at same
  conv_rhs at same => rw [← take_append_drop i data, drop_eq_getElem_cons inside, foldl_append]
  have same := (UInt32.add_right_inj _).mp (start _ same)
  simpa [← UInt8.toNat_inj, ← UInt32.toNat_inj, inside, eq_comm] using same

/-- The bytes of a head are read into their places. -/
theorem toBytes_ofBytes (enough : headSize ≤ data.length) :
    (ofBytes data).toBytes = data.take headSize := by
  have word : ∀ offset size, offset + size ≤ headSize →
      Endian.toLE size (wordAt data offset size % 256 ^ size) = (data.drop offset).take size := by
    intro offset size inside
    have length : ((data.drop offset).take size).length = size := by simp; omega
    have small := Endian.ofLE_lt ((data.drop offset).take size)
    have same := Endian.toLE_ofLE ((data.drop offset).take size)
    rw [length] at small same
    rwa [wordAt, Nat.mod_eq_of_lt small]
  have flag : [data.getD 0 0, data.getD 1 0] = data.take 2 := by
    rcases data with _ | ⟨first, _ | ⟨second, data⟩⟩
    · cases enough
    · simp [headSize] at enough
    · rfl
  have cut : data.take headSize = data.take 2 ++ (data.drop 2).take 2 ++ (data.drop 4).take 4 ++
      (data.drop 8).take 4 ++ (data.drop 12).take 4 ++ (data.drop 16).take 4 ++
      (data.drop 20).take 4 := by
    simp only [← take_add, Nat.reduceAdd, headSize]
  rw [cut, ← flag, ← word 2 2 (by decide), ← word 4 4 (by decide), ← word 8 4 (by decide),
    ← word 12 4 (by decide), ← word 16 4 (by decide), ← word 20 4 (by decide)]
  rfl

/-- The sum over a head tells when one of its bytes is another. -/
theorem validateHead_set {head : UartHead} {i : Nat} {byte : UInt8} (inside : i < headSize)
    (valid : head.validateHead = true) {other : UartHead}
    (changed : other.toBytes = head.toBytes.set i byte) (accepted : other.validateHead = true) :
    head.toBytes[i]? = some byte := by
  rw [validateHead, beq_iff_eq] at valid accepted
  rw [toBytes, toBytes, set_append] at changed
  rw [toBytes, getElem?_append]
  have lengths : other.checkedBytes.length = head.checkedBytes.length := by
    rw [length_checkedBytes, length_checkedBytes]
  split_ifs at changed ⊢ with checked
  · obtain ⟨bytes, sums⟩ := append_inj changed (by simpa using lengths)
    have values := congrArg Endian.ofLE sums
    rw [Endian.ofLE_toLE, Endian.ofLE_toLE, accepted, valid, bytes] at values
    have := (accumulate (head.checkedBytes.set i byte)).toNat_lt
    have := (accumulate head.checkedBytes).toNat_lt
    exact accumulate_set checked (UInt32.toNat_inj.mp (by omega))
  · obtain ⟨bytes, sums⟩ := append_inj changed lengths
    rw [accepted, bytes, ← valid] at sums
    rw [sums]
    exact getElem?_set_self (by simp [length_checkedBytes, headSize] at inside ⊢; omega)

/-- What an accepted packet has passed. -/
theorem validated {ep : Endpoint}
    (success : (ep.validateUartPacket data).1 = retSuccess) :
    (ofBytes data).validateHead = true ∧ ((ofBytes data).packetSize ≤ data.length →
      (ofBytes data).validateData (data.drop headSize) = true) := by
  unfold validateUartPacket at success
  dsimp only at success
  split_ifs at success <;> simp_all [retSuccess, errBufCheck, errBufOverflow, errIoSoftReset]

theorem validateUartPacket_dispatched (ep : Endpoint) (data : Bytes) :
    (ep.validateUartPacket data).2.dispatched = ep.dispatched := by
  unfold validateUartPacket resetOldSession onTransferError restartession clearUARTOutMap
    processResponse responseUartTrans
  dsimp only
  split_ifs <;> rfl

/-- What arrives of a packet with another byte in one place is not taken for a complete packet,
and nothing is dispatched. -/
theorem damaged_byte_refused (head : UartHead) {payload behind data : Bytes} {i : Nat} {byte : UInt8}
    (size : head.dataSize.toNat = payload.length) (inside : i < headSize + payload.length)
    (differs : ((head.updateCheckSum payload).toBytes ++ payload)[i]? ≠ some byte)
    (arrived : data <+: ((head.updateCheckSum payload).toBytes ++ payload).set i byte ++ behind)
    (accept : Nat → Bool) (ep : Endpoint) :
    (headSize ≤ data.length → (ep.validateUartPacket data).1 = retSuccess →
      ofBytes data = head.updateCheckSum payload ∧ data.length < headSize + payload.length) ∧
    (ep.packageProcess accept data).1.dispatched = ep.dispatched := by
  obtain ⟨headSum, dataSum⟩ := validate_updateCheckSum head payload
  have sameSize : (head.updateCheckSum payload).dataSize.toNat = payload.length := by
    rw [(updateCheckSum_fields head payload).2.2.2.2, size]
  generalize head.updateCheckSum payload = sent at *
  obtain ⟨later, split⟩ := arrived
  have headLong := length_toBytes sent
  rw [set_append, headLong] at split
  have refused : headSize ≤ data.length → (ep.validateUartPacket data).1 = retSuccess →
      ofBytes data = sent ∧ data.length < headSize + payload.length := by
    intro enough success
    obtain ⟨headFits, dataFits⟩ := validated success
    have front := toBytes_ofBytes enough
    rw [← take_append_of_le_length enough, split] at front
    split_ifs at split front with early
    · rw [append_assoc, take_left' (by simpa using headLong)] at front
      have same := validateHead_set early headSum front headFits
      rw [getElem?_append_left (by rwa [headLong])] at differs
      exact absurd same differs
    · rw [append_assoc, take_left' headLong] at front
      have same : ofBytes data = sent := by
        rw [← ofBytes_toBytes sent [], ← front, ofBytes_toBytes]
      refine ⟨same, lt_of_not_ge fun long => ?_⟩
      rw [same, packetSize, sameSize] at dataFits
      have fits := dataFits (by omega)
      have drops := congrArg (fun bytes => (bytes.drop headSize).take payload.length) split
      simp only [append_assoc, drop_left' headLong, take_left' (length_set ..)] at drops
      rw [drop_append_of_le_length enough, take_append_of_le_length (by simp; omega)] at drops
      rw [validateData, sameSize, drops] at fits
      rw [validateData, sameSize, take_length] at dataSum
      rw [getElem?_append_right (by omega), headLong] at differs
      have some : sent.dataSize ≠ 0 := by
        intro zero
        rw [zero] at sameSize
        simp at sameSize
        omega
      simp only [beq_eq_false_iff_ne.mpr some, Bool.false_or, beq_iff_eq] at fits dataSum
      exact differs (accumulate_set (by omega) (fits.symm.trans dataSum))
  refine ⟨refused, ?_⟩
  have quiet := validateUartPacket_dispatched ep data
  rw [packageProcess]
  split_ifs with short
  · rfl
  have refused := refused (Nat.le_of_not_lt short)
  generalize ep.validateUartPacket data = result at *
  obtain ⟨ret, after⟩ := result
  dsimp only at quiet refused ⊢
  by_cases success : ret = retSuccess
  · obtain ⟨same, cut⟩ := refused success
    rw [if_neg (not_not.mpr success), same, packetSize, sameSize, if_neg (by omega), if_neg (by omega)]
    exact quiet
  · rw [if_pos success]
    exact quiet

theorem damaged_payload_refused :
    ((Endpoint.new .host 1).packageProcess (fun _ => true)
      (((UartHead.new 1 0 1 1).updateCheckSum [7]).toBytes ++ [8])).1.dispatched = [] :=
  (@damaged_byte_refused (.new 1 0 1 1) [7] [] _ 24 8 rfl (by decide) (by decide)
    ⟨[], rfl⟩ _ _).2

end Hdc.Uart
