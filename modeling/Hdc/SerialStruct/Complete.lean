import Hdc.SerialStruct

/-!
Complete messages.

A complete field is a key that can be read as a whole, with the tag and the wire type of
a field of the message, and behind it a value that does not break off. `ReadMessage`
does not ask for any of this: the parsers of the fields do find out, but what they
return is dropped, and the loop ends with `true` as soon as no key can be read.

* `WellFormed`: a message is complete fields, one after the other;
* `wellFormed_cut_iff`: of the beginnings of a serialized message exactly those are
  well formed that end between two fields.
-/

namespace Hdc.SerialStruct

open List Leb128

/-- `ParseFromString` with what it returns: `ReadMessage` leaves its loop for `return true`,
whatever the fields made of their values. -/
def parseResult {T : Type} (fields : List (FieldImpl T)) (value : T) (input : Bytes) : Bool × T :=
  (true, parseFromString fields value input)

/-! ### Complete values -/

/-- What stands behind a complete value of a wire type. -/
def completeValue : WireType → Bytes → Option Bytes
  | .varint, input =>
    let word := readVarint64 input
    if word.ok then some word.rest else none
  | .fixed64, input => if 8 ≤ input.length then some (input.drop 8) else none
  | .fixed32, input => if 4 ≤ input.length then some (input.drop 4) else none
  | .lengthDelimeted, input =>
    let size := readVarint64 input
    if size.ok ∧ size.value ≤ size.rest.length then some (size.rest.drop size.value) else none
  | _, _ => none

/-- What stands behind a complete field of the message. -/
def completeField {T : Type} (fields : List (FieldImpl T)) (input : Bytes) : Option Bytes :=
  let tagKey := readVarint32 input
  if tagKey.ok then
    let key := readTagWireType tagKey.value
    if fields.any fun field => field.tag = key.1 && field.codec.wireType = key.2 then
      completeValue key.2 tagKey.rest
    else none
  else none

/-- The input is complete fields, one after the other. -/
inductive WellFormed {T : Type} (fields : List (FieldImpl T)) : Bytes → Prop where
  | nil : WellFormed fields []
  | field {input rest : Bytes} (front : completeField fields input = some rest)
      (behind : WellFormed fields rest) : WellFormed fields input

/-- A codec writes complete values, and no beginning of one is complete. -/
structure Serializer.Complete {M : Type} (codec : Serializer M) (value : M) : Prop where
  named : WireType.ofCode codec.wireType.code = codec.wireType
  low : codec.wireType.code < 8
  whole : ∀ tail, completeValue codec.wireType (codec.write value ++ tail) = some tail
  cut : ∀ part, part <+: codec.write value → part ≠ codec.write value →
    completeValue codec.wireType part = none

theorem exists_encode_of_lt {value : Nat} (bound : value < 2 ^ 32) :
    ∃ bytes, encode 5 value = some bytes ∧ writeVarint32 value = bytes := by
  obtain ⟨bytes, written⟩ := encode_total (show value < 128 ^ (4 + 1) by omega)
  exact ⟨_, written, by rw [writeVarint32, written, Option.getD_some]⟩

theorem exists_encode64_of_lt {value : Nat} (bound : value < 2 ^ 64) :
    ∃ bytes, encode 10 value = some bytes ∧ writeVarint64 value = bytes := by
  obtain ⟨bytes, written⟩ := encode_total (show value < 128 ^ (9 + 1) by omega)
  exact ⟨_, written, by rw [writeVarint64, written, Option.getD_some]⟩

/-- A varint of any width is complete as a whole and at no earlier point. -/
theorem complete_of_encode {M : Type} {codec : Serializer M} {value : M} {room word : Nat}
    {bytes : Bytes} (wireType : codec.wireType = .varint) (small : room ≤ 10)
    (written : encode room word = some bytes) (writes : codec.write value = bytes) :
    codec.Complete value := by
  refine ⟨by rw [wireType]; rfl, by rw [wireType]; decide, fun tail => ?_, fun part cut short => ?_⟩
  · have read := @decode_encode _ _ _ 64 (encode_mono written small) tail
    rw [wireType, writes, completeValue, readVarint64, read]
    rfl
  · rw [writes] at cut short
    have broken := decodeFrom_cut written cut short 64 10 0 0
    rw [wireType, completeValue, readVarint64, decode]
    exact if_neg (by simp [broken])

theorem uint32_complete (value : UInt32) : uint32Serializer.Complete value := by
  obtain ⟨_, written, same⟩ := exists_encode_of_lt value.toNat_lt
  exact complete_of_encode rfl (by decide) written same

theorem uint64_complete (value : UInt64) : uint64Serializer.Complete value := by
  obtain ⟨_, written, same⟩ := exists_encode64_of_lt value.toNat_lt
  exact complete_of_encode rfl (by decide) written same

theorem uint8_complete (value : UInt8) : uint8Serializer.Complete value := by
  have bound : value.toNat < 2 ^ 32 := lt_trans value.toNat_lt (by decide)
  obtain ⟨_, written, same⟩ := exists_encode_of_lt bound
  exact complete_of_encode rfl (by decide) written same

theorem bool_complete (value : Bool) : boolSerializer.Complete value := by
  have bound : (if value then 1 else 0) < 2 ^ 32 := by cases value <;> decide
  obtain ⟨_, written, same⟩ := exists_encode_of_lt bound
  exact complete_of_encode rfl (by decide) written same

theorem string_complete {value : Bytes} (short : value.length < 2 ^ 64) :
    stringSerializer.Complete value := by
  refine ⟨rfl, by decide, fun tail => ?_, fun part cut less => ?_⟩
  · have size := readVarint64_writeVarint64 short (value ++ tail)
    change completeValue .lengthDelimeted ((writeVarint64 value.length ++ value) ++ tail) = _
    rw [completeValue, append_assoc, size]
    simp
  · obtain ⟨bytes, written, same⟩ := exists_encode64_of_lt short
    change part <+: writeVarint64 value.length ++ value at cut
    change part ≠ writeVarint64 value.length ++ value at less
    change completeValue .lengthDelimeted part = none
    rw [same] at cut less
    rcases List.prefix_or_prefix_of_prefix cut (prefix_append bytes value) with front | whole
    · by_cases equal : part = bytes
      · -- the length is there, and nothing behind it
        have size := readVarint64_writeVarint64 short []
        rw [append_nil, same] at size
        have full : ¬ value.length = 0 := by
          intro empty
          rw [length_eq_zero_iff.mp empty, append_nil] at less
          exact less equal
        rw [completeValue, equal, size]
        exact if_neg (by simpa using full)
      · have broken := decodeFrom_cut written front equal 64 10 0 0
        rw [completeValue, readVarint64, decode]
        exact if_neg (by simp [broken])
    · obtain ⟨got, rfl⟩ := whole
      have size := readVarint64_writeVarint64 short got
      rw [same] at size
      have fewer : got.length < value.length := by
        have shorter := (prefix_append_right_inj _).mp cut
        refine Nat.lt_of_le_of_ne shorter.length_le fun equal => less ?_
        rw [shorter.eq_of_length equal]
      rw [completeValue, size]
      exact if_neg (by simpa using fewer)

/-! ### Beginnings of a message -/

variable {T : Type}

variable {fields : List (FieldImpl T)}

theorem completeField_writeField {field : FieldImpl T}
    (mem : field ∈ fields) (small : field.tag < 2 ^ 29) {source : T}
    (complete : field.codec.Complete (field.get source)) (tail : Bytes) :
    completeField fields (writeField source field ++ tail) = some tail := by
  have key := readVarint32_writeVarint32 (makeTagWireType_lt field.tag field.codec.wireType)
  have known : (fields.any fun other =>
      other.tag = field.tag && other.codec.wireType = field.codec.wireType) = true :=
    any_eq_true.mpr ⟨field, mem, by simp⟩
  rw [completeField, writeField, Serializer.serialize, append_assoc, key, if_pos rfl,
    readTagWireType_make small complete.named complete.low, if_pos known, complete.whole]

/-- A field that breaks off is not complete. -/
theorem completeField_cut {field : FieldImpl T}
    (small : field.tag < 2 ^ 29) {source : T}
    (complete : field.codec.Complete (field.get source)) {part : Bytes}
    (cut : part <+: writeField source field) (short : part ≠ writeField source field) :
    completeField fields part = none := by
  have bound := makeTagWireType_lt field.tag field.codec.wireType
  -- behind a whole key the value breaks off
  have behind : ∀ got, got <+: field.codec.write (field.get source) →
      got ≠ field.codec.write (field.get source) →
      completeField fields (writeVarint32 (makeTagWireType field.tag field.codec.wireType) ++ got) =
        none := by
    intro got shorter less
    rw [completeField, readVarint32_writeVarint32 bound got, if_pos rfl,
      readTagWireType_make small complete.named complete.low]
    dsimp only
    split
    · exact complete.cut got shorter less
    · rfl
  obtain ⟨bytes, written, same⟩ := exists_encode_of_lt bound
  rw [writeField, Serializer.serialize, same] at cut short
  rw [same] at behind
  rcases List.prefix_or_prefix_of_prefix cut (prefix_append bytes _) with front | whole
  · by_cases equal : part = bytes
    · rw [equal] at short ⊢
      have none := behind [] List.nil_prefix fun empty => short (by rw [← empty, append_nil])
      rwa [append_nil] at none
    · have broken := decodeFrom_cut written front equal 32 5 0 0
      rw [completeField, readVarint32, decode]
      exact if_neg (by simp [broken])
  · obtain ⟨got, rfl⟩ := whole
    refine behind got ((prefix_append_right_inj _).mp cut) fun equal => short ?_
    rw [equal]

theorem wellFormed_of_completeField {input rest : Bytes}
    (front : completeField fields input = some rest) :
    WellFormed fields input ↔ WellFormed fields rest := by
  constructor
  · intro whole
    cases whole with
    | nil => cases front
    | field other behind =>
      obtain rfl := Option.some.inj (front.symm.trans other)
      exact behind
  · exact .field front

theorem writeField_ne_nil (source : T) (field : FieldImpl T) : writeField source field ≠ [] := by
  intro empty
  have key := (length_writeVarint32 (makeTagWireType_lt field.tag field.codec.wireType)).1
  rw [writeField, Serializer.serialize, append_eq_nil_iff] at empty
  rw [empty.1] at key
  exact Nat.lt_irrefl 0 key

/-- Of the beginnings of a message those are well formed that end between two fields. -/
theorem wellFormed_cut_iff {source : T}
    (small : ∀ field ∈ fields, field.tag < 2 ^ 29)
    (complete : ∀ field ∈ fields, field.codec.Complete (field.get source))
    {todo : List (FieldImpl T)} (sub : todo ⊆ fields) {part : Bytes}
    (cut : part <+: serializeToString todo source) :
    WellFormed fields part ↔ ∃ k, part = serializeToString (todo.take k) source := by
  induction todo generalizing part with
  | nil =>
    obtain rfl := prefix_nil.mp cut
    exact iff_of_true .nil ⟨0, rfl⟩
  | cons field todo ih =>
    have mem : field ∈ fields := sub mem_cons_self
    have take_succ : ∀ k, serializeToString ((field :: todo).take (k + 1)) source =
        writeField source field ++ serializeToString (todo.take k) source := fun k => rfl
    have rest : todo ⊆ fields := fun other inside => sub (mem_cons_of_mem _ inside)
    rcases List.prefix_or_prefix_of_prefix cut (prefix_append _ _) with front | whole
    · by_cases equal : part = writeField source field
      · have taken := completeField_writeField mem (small _ mem) (complete _ mem) []
        rw [append_nil] at taken
        refine iff_of_true (.field (equal ▸ taken) .nil) ⟨1, ?_⟩
        simp [serializeToString, equal]
      · by_cases empty : part = []
        · rw [empty]
          exact iff_of_true .nil ⟨0, rfl⟩
        · refine iff_of_false (fun wellFormed => ?_) ?_
          · have none := @completeField_cut T fields field (small field mem) source
              (complete _ mem) _ front equal
            cases wellFormed with
            | nil => exact empty rfl
            | field taken behind =>
              rw [none] at taken
              cases taken
          · rintro ⟨k, same⟩
            cases k with
            | zero => exact empty same
            | succ k =>
              rw [take_succ] at same
              rw [same] at front equal
              refine equal (front.eq_of_length_le ?_)
              rw [length_append]
              exact Nat.le_add_right _ _
    · obtain ⟨got, rfl⟩ := whole
      have taken := completeField_writeField mem (small _ mem) (complete _ mem) got
      rw [wellFormed_of_completeField taken,
        ih rest ((prefix_append_right_inj _).mp cut)]
      constructor
      · rintro ⟨k, same⟩
        exact ⟨k + 1, by rw [take_succ, same]⟩
      · rintro ⟨k, same⟩
        cases k with
        | zero =>
          exact absurd (append_eq_nil_iff.mp same).1 (writeField_ne_nil _ _)
        | succ k =>
          exact ⟨k, append_cancel_left same⟩

end Hdc.SerialStruct
