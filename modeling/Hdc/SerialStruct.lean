import Hdc.Define
import Hdc.Lib.Words

/-!
The reflective serializer (`serial_struct_define.h`).

A message is a list of fields, each with a tag and the serializer of its member type. Writing emits,
field by field, a key that holds tag and wire type and then the member. Reading loops over keys and
hands every field whose tag matches the reader, ignoring what the field's parser returns: an unknown
tag, a wire type that does not match and a value that breaks off are all passed over, and only the
end of the keys stops the loop. A reader is its remaining bytes.

* `readMessageFrom_fuel`: the loop has turns enough, whatever the input;
* `parseFromString_serializeToString`: with distinct tags, parsing what was serialized sets every
  field of the target to what was written.
-/

namespace Hdc.SerialStruct

open List Leb128 Nat

/-! ### Wire types and keys -/

/-- The low three bits of a key. Six codes are named; the reader casts the
bits to the enumeration without a check, so the other two occur as well. -/
inductive WireType where
  | varint
  | fixed64
  | lengthDelimeted
  | startGroup
  | endGroup
  | fixed32
  | unnamed (code : Nat)
deriving DecidableEq, Repr

def WireType.code : WireType → Nat
  | .varint => 0
  | .fixed64 => 1
  | .lengthDelimeted => 2
  | .startGroup => 3
  | .endGroup => 4
  | .fixed32 => 5
  | .unnamed code => code

def WireType.ofCode : Nat → WireType
  | 0 => .varint
  | 1 => .fixed64
  | 2 => .lengthDelimeted
  | 3 => .startGroup
  | 4 => .endGroup
  | 5 => .fixed32
  | code => .unnamed code

def writeVarint32 (value : Nat) : Bytes := (encode 5 value).getD []

def writeVarint64 (value : Nat) : Bytes := (encode 10 value).getD []

def readVarint32 (input : Bytes) : Leb128.Read := decode 32 5 input

def readVarint64 (input : Bytes) : Leb128.Read := decode 64 10 input

def makeTagWireType (tag : Nat) (wireType : WireType) : Nat :=
  (tag <<< 3 ||| wireType.code) % 2 ^ 32

def readTagWireType (tagKey : Nat) : Nat × WireType :=
  (tagKey >>> 3, WireType.ofCode (tagKey % 8))

variable {value : Nat}

theorem readVarint32_writeVarint32 (bound : value < 2 ^ 32) (tail : Bytes) :
    readVarint32 (writeVarint32 value ++ tail) = ⟨value, true, tail⟩ := by
  have fits : value < 128 ^ (4 + 1) := by omega
  obtain ⟨_, written⟩ := encode_total fits
  rw [readVarint32, writeVarint32, written, Option.getD_some, decode_encode written,
    mod_eq_of_lt bound]

theorem readVarint64_writeVarint64 (bound : value < 2 ^ 64) (tail : Bytes) :
    readVarint64 (writeVarint64 value ++ tail) = ⟨value, true, tail⟩ := by
  have fits : value < 128 ^ (9 + 1) := by omega
  obtain ⟨_, written⟩ := encode_total fits
  rw [readVarint64, writeVarint64, written, Option.getD_some, decode_encode written,
    mod_eq_of_lt bound]

theorem length_writeVarint32 (bound : value < 2 ^ 32) :
    0 < (writeVarint32 value).length ∧ (writeVarint32 value).length ≤ 5 := by
  have fits : value < 128 ^ (4 + 1) := by omega
  obtain ⟨_, written⟩ := encode_total fits
  rw [writeVarint32, written]
  exact encode_length written

/-- A key gives back its tag and wire type when the tag fits in 29 bits. -/
theorem readTagWireType_make {tag : Nat} (small : tag < 2 ^ 29) {wireType : WireType}
    (named : WireType.ofCode wireType.code = wireType) (low : wireType.code < 8) :
    readTagWireType (makeTagWireType tag wireType) = (tag, wireType) := by
  have key : tag <<< 3 ||| wireType.code = 8 * tag + wireType.code := by
    have disjoint := two_pow_add_eq_or_of_lt (i := 3) low tag
    rw [shiftLeft_eq, mul_comm, ← disjoint]
  have cut : (8 * tag + wireType.code) % 2 ^ 32 = 8 * tag + wireType.code :=
    mod_eq_of_lt (by omega)
  have high : (8 * tag + wireType.code) >>> 3 = tag := by
    omega
  have bits : (8 * tag + wireType.code) % 8 = wireType.code := by omega
  rw [readTagWireType, makeTagWireType, key, cut, high, bits, named]

theorem makeTagWireType_lt (tag : Nat) (wireType : WireType) :
    makeTagWireType tag wireType < 2 ^ 32 :=
  mod_lt _ (by decide)

/-! ### Serializers of the member types -/

/-- The serializer of a member type: its wire type, the bytes written after the
key, and the parser, which is handed the member's old value because a parser
that breaks off may have overwritten part of it. A parser only moves forward. -/
structure Serializer (M : Type) where
  wireType : WireType
  write : M → Bytes
  read : M → Bytes → M × Bytes
  forward : ∀ old input, (read old input).2.length ≤ input.length

/-- `Serialize`: the key, then the member. -/
def Serializer.serialize {M : Type} (codec : Serializer M) (tag : Nat) (value : M) : Bytes :=
  writeVarint32 (makeTagWireType tag codec.wireType) ++ codec.write value

/-- `Parse`: a different wire type consumes nothing. -/
def Serializer.parse {M : Type} (codec : Serializer M) (wireType : WireType) (old : M)
    (input : Bytes) : M × Bytes :=
  if wireType = codec.wireType then codec.read old input else (old, input)

theorem readVarint32_forward (input : Bytes) : (readVarint32 input).rest.length ≤ input.length :=
  decodeFrom_rest_length ..

theorem readVarint64_forward (input : Bytes) : (readVarint64 input).rest.length ≤ input.length :=
  decodeFrom_rest_length ..

/-- The member is read in place, also when the varint breaks off. -/
def uint32Serializer : Serializer UInt32 where
  wireType := .varint
  write value := writeVarint32 value.toNat
  read _ input :=
    let word := readVarint32 input
    (UInt32.ofNat word.value, word.rest)
  forward _ input := readVarint32_forward input

def uint64Serializer : Serializer UInt64 where
  wireType := .varint
  write value := writeVarint64 value.toNat
  read _ input :=
    let word := readVarint64 input
    (UInt64.ofNat word.value, word.rest)
  forward _ input := readVarint64_forward input

/-- Read through a 32-bit intermediate that is copied only on success. -/
def uint8Serializer : Serializer UInt8 where
  wireType := .varint
  write value := writeVarint32 value.toNat
  read old input :=
    let word := readVarint32 input
    (if word.ok then UInt8.ofNat word.value else old, word.rest)
  forward _ input := readVarint32_forward input

def boolSerializer : Serializer Bool where
  wireType := .varint
  write value := writeVarint32 (if value then 1 else 0)
  read old input :=
    let word := readVarint32 input
    (if word.ok then decide (word.value ≠ 0) else old, word.rest)
  forward _ input := readVarint32_forward input

/-- The longest string the parser accepts. -/
def maxStringSize : Nat := 10 * 1024 * 1024

/-- `std::string::resize`: cut, or pad with zero bytes. -/
def resize (value : Bytes) (size : Nat) : Bytes :=
  value.take size ++ List.replicate (size - value.length) 0

/-- A length above the limit is consumed and the string left alone; a string
that breaks off keeps its new size with only its front overwritten. -/
def stringSerializer : Serializer Bytes where
  wireType := .lengthDelimeted
  write value := writeVarint64 value.length ++ value
  read old input :=
    let size := readVarint64 input
    if !size.ok || size.value > maxStringSize then
      (old, size.rest)
    else
      (size.rest.take size.value ++ (resize old size.value).drop size.rest.length,
        size.rest.drop size.value)
  forward old input := by
    have := readVarint64_forward input
    dsimp only
    split
    · exact this
    · rw [length_drop]
      omega

/-- `codec` reads `value` back from what it wrote, whatever the member held,
and its key survives the trip. -/
structure Serializer.ReadsBack {M : Type} (codec : Serializer M) (value : M) : Prop where
  named : WireType.ofCode codec.wireType.code = codec.wireType
  low : codec.wireType.code < 8
  read_write : ∀ old tail, codec.read old (codec.write value ++ tail) = (value, tail)

theorem uint32_readsBack (value : UInt32) : uint32Serializer.ReadsBack value := by
  refine ⟨rfl, by decide, fun old tail => ?_⟩
  change (UInt32.ofNat (readVarint32 _).value, (readVarint32 _).rest) = _
  rw [uint32Serializer, readVarint32_writeVarint32 value.toNat_lt, UInt32.ofNat_toNat]

theorem uint64_readsBack (value : UInt64) : uint64Serializer.ReadsBack value := by
  refine ⟨rfl, by decide, fun old tail => ?_⟩
  change (UInt64.ofNat (readVarint64 _).value, (readVarint64 _).rest) = _
  rw [uint64Serializer, readVarint64_writeVarint64 value.toNat_lt, UInt64.ofNat_toNat]

theorem uint8_readsBack (value : UInt8) : uint8Serializer.ReadsBack value := by
  refine ⟨rfl, by decide, fun old tail => ?_⟩
  have bound : value.toNat < 2 ^ 32 := lt_trans value.toNat_lt (by decide)
  change (if (readVarint32 _).ok then _ else old, (readVarint32 _).rest) = _
  rw [uint8Serializer, readVarint32_writeVarint32 bound, if_pos rfl, UInt8.ofNat_toNat]

theorem bool_readsBack (value : Bool) : boolSerializer.ReadsBack value := by
  refine ⟨rfl, by decide, fun old tail => ?_⟩
  have bound : (if value then 1 else 0) < 2 ^ 32 := by cases value <;> decide
  change (if (readVarint32 _).ok then _ else old, (readVarint32 _).rest) = _
  cases value <;> rfl

theorem string_readsBack {value : Bytes} (short : value.length ≤ maxStringSize) :
    stringSerializer.ReadsBack value := by
  refine ⟨rfl, by decide, fun old tail => ?_⟩
  have bound : value.length < 2 ^ 64 := lt_of_le_of_lt short (by decide)
  have resized : (resize old value.length).length ≤ (value ++ tail).length := by
    simp only [resize, length_append, length_take, length_replicate]
    omega
  simp only [stringSerializer, append_assoc, readVarint64_writeVarint64 bound,
    Bool.not_true, Bool.false_or, decide_eq_true_eq, not_lt.mpr short, if_false,
    take_left, drop_left, drop_eq_nil_of_le resized, append_nil]

/-! ### Messages -/

/-- A field of a message: its tag, the serializer of its member, and the member
pointer as a getter and a setter. -/
structure FieldImpl (T : Type) where
  {M : Type}
  tag : Nat
  codec : Serializer M
  get : T → M
  set : T → M → T

variable {T : Type}

def writeField (value : T) (field : FieldImpl T) : Bytes :=
  field.codec.serialize field.tag (field.get value)

/-- `SerializeToString`: the fields in the order of the descriptor. -/
def serializeToString (fields : List (FieldImpl T)) (value : T) : Bytes :=
  fields.flatMap (writeField value)

/-- `ReadField`: only a field with the key's tag reads. -/
def readField (tag : Nat) (wireType : WireType) (state : T × Bytes) (field : FieldImpl T) : T × Bytes :=
  if field.tag = tag then
    let parsed := field.codec.parse wireType (field.get state.1) state.2
    (field.set state.1 parsed.1, parsed.2)
  else
    state

/-- `ReadMessage`: every key is offered to every field, until no key can be read. -/
def readMessageFrom (fields : List (FieldImpl T)) : Nat → T → Bytes → T
  | 0, value, _ => value
  | turns + 1, value, input =>
    let tagKey := readVarint32 input
    if tagKey.ok then
      let key := readTagWireType tagKey.value
      let state := fields.foldl (readField key.1 key.2) (value, tagKey.rest)
      readMessageFrom fields turns state.1 state.2
    else
      value

/-- `ParseFromString` into `value`. It has no failing result. Each turn of the
loop consumes a byte, so the length of the input bounds the turns. -/
def parseFromString (fields : List (FieldImpl T)) (value : T) (input : Bytes) : T :=
  readMessageFrom fields input.length value input

theorem readField_forward (tag : Nat) (wireType : WireType) (state : T × Bytes) (field : FieldImpl T) :
    (readField tag wireType state field).2.length ≤ state.2.length := by
  rw [readField]
  split
  · change (field.codec.parse wireType (field.get state.1) state.2).2.length ≤ _
    rw [Serializer.parse]
    split
    · exact field.codec.forward ..
    · exact le_refl _
  · exact le_refl _

theorem visit_forward (fields : List (FieldImpl T)) (tag : Nat) (wireType : WireType)
    (state : T × Bytes) :
    (fields.foldl (readField tag wireType) state).2.length ≤ state.2.length := by
  induction fields generalizing state with
  | nil => exact le_refl _
  | cons field fields ih => exact (ih _).trans (readField_forward ..)

/-- Further turns change nothing once there is one for every byte. -/
theorem readMessageFrom_fuel (fields : List (FieldImpl T)) {turns : Nat} (value : T) (input : Bytes)
    (enough : input.length ≤ turns) :
    readMessageFrom fields turns value input = parseFromString fields value input := by
  -- Both sides take the same turns; compare them for every larger budget at once.
  have agree : ∀ (budget turns : Nat) (value : T) (input : Bytes), input.length ≤ budget →
      budget ≤ turns →
      readMessageFrom fields turns value input = readMessageFrom fields budget value input := by
    intro budget
    induction budget with
    | zero =>
      intro turns value input short _
      obtain rfl := length_eq_zero_iff.mp (Nat.le_zero.mp short)
      cases turns with
      | zero => rfl
      | succ turns => rfl
    | succ budget ih =>
      intro turns value input short more
      obtain ⟨turns, rfl⟩ := Nat.exists_eq_add_of_lt more
      rw [readMessageFrom, readMessageFrom]
      split
      case isTrue ok =>
        have consumed : (readVarint32 input).rest.length < input.length :=
          decode_ok_length ok
        have rest : (readVarint32 input).rest.length ≤ budget := by omega
        exact ih _ _ _ ((visit_forward ..).trans rest) (Nat.le_add_right ..)
      case isFalse => rfl
  exact agree _ _ _ _ (Nat.le_refl _) enough

/-- One turn of the loop, with the turns that are left over for the rest. -/
theorem parseFromString_key {fields : List (FieldImpl T)} {value : T} {input : Bytes}
    (ok : (readVarint32 input).ok = true) :
    parseFromString fields value input =
      let key := readTagWireType (readVarint32 input).value
      let state := fields.foldl (readField key.1 key.2) (value, (readVarint32 input).rest)
      parseFromString fields state.1 state.2 := by
  have consumed : (readVarint32 input).rest.length < input.length := decode_ok_length ok
  obtain ⟨_, long⟩ := Nat.exists_eq_add_of_lt consumed
  rw [parseFromString, long, readMessageFrom, if_pos ok]
  refine readMessageFrom_fuel _ _ _ ((visit_forward ..).trans ?_)
  exact Nat.le_add_right _ _

/-! ### Reading back a message -/

/-- The target after every field of `fields` was set to its member in `source`. -/
def copyFields (fields : List (FieldImpl T)) (source target : T) : T :=
  fields.foldl (fun acc field => field.set acc (field.get source)) target

variable {fields : List (FieldImpl T)}

theorem visit_other {tag : Nat} {wireType : WireType} (other : ∀ field ∈ fields, field.tag ≠ tag)
    (state : T × Bytes) : fields.foldl (readField tag wireType) state = state := by
  induction fields generalizing state with
  | nil => rfl
  | cons field fields ih =>
    rw [foldl_cons, readField, if_neg (other field mem_cons_self)]
    exact ih (fun f hf => other f (mem_cons_of_mem _ hf)) _

variable {source : T}

section

variable (distinct : (fields.map FieldImpl.tag).Nodup)
include distinct

/-- With distinct tags exactly the field a key was written for reads. -/
theorem visit_field {field : FieldImpl T}
    (mem : field ∈ fields) (back : field.codec.ReadsBack (field.get source)) (value : T)
    (tail : Bytes) :
    fields.foldl (readField field.tag field.codec.wireType)
    (value, field.codec.write (field.get source) ++ tail) =
    (field.set value (field.get source), tail) := by
  obtain ⟨before, after, rfl⟩ := append_of_mem mem
  simp only [map_append, map_cons, nodup_append, nodup_cons,
    mem_map, mem_cons] at distinct
  obtain ⟨-, ⟨afterTags, -⟩, apart⟩ := distinct
  have otherBefore : ∀ f ∈ before, f.tag ≠ field.tag := by
    intro f hf
    exact apart f.tag ⟨f, hf, rfl⟩ field.tag (.inl rfl)
  have otherAfter : ∀ f ∈ after, f.tag ≠ field.tag := by
    intro f hf same
    exact afterTags ⟨f, hf, same⟩
  rw [foldl_append, visit_other otherBefore, foldl_cons, readField]
  simp only [Serializer.parse, back.read_write]
  exact visit_other otherAfter _

/-- What one turn of the loop does on a field that was written. -/
theorem parseFromString_field {field : FieldImpl T} (mem : field ∈ fields)
    (small : field.tag < 2 ^ 29) (back : field.codec.ReadsBack (field.get source)) (value : T)
    (tail : Bytes) :
    parseFromString fields value (writeField source field ++ tail) =
    parseFromString fields (field.set value (field.get source)) tail := by
  have key := readVarint32_writeVarint32 (makeTagWireType_lt field.tag field.codec.wireType)
  rw [writeField, Serializer.serialize, append_assoc, parseFromString_key (by rw [key]), key]
  simp only [readTagWireType_make small back.named back.low, visit_field distinct mem back]

/-- Fields that were written, with something behind them. -/
theorem parseFromString_fields_append (small : ∀ field ∈ fields, field.tag < 2 ^ 29)
    (back : ∀ field ∈ fields, field.codec.ReadsBack (field.get source))
    {todo : List (FieldImpl T)} (sub : todo ⊆ fields) (target : T) (tail : Bytes) :
    parseFromString fields target (serializeToString todo source ++ tail) =
    parseFromString fields (copyFields todo source target) tail := by
  induction todo generalizing target with
  | nil => rfl
  | cons field todo ih =>
    have mem : field ∈ fields := sub mem_cons_self
    rw [serializeToString, flatMap_cons, ← serializeToString, append_assoc,
      parseFromString_field distinct mem (small field mem) (back field mem)]
    exact ih (fun other inside => sub (mem_cons_of_mem _ inside)) _

end

/-- Parsing what was serialized sets every field to the member that was
written, whatever the target held before. -/
theorem parseFromString_serializeToString (distinct : (fields.map FieldImpl.tag).Nodup)
    (small : ∀ field ∈ fields, field.tag < 2 ^ 29)
    (back : ∀ field ∈ fields, field.codec.ReadsBack (field.get source)) (target : T) :
    parseFromString fields target (serializeToString fields source) =
    copyFields fields source target := by
  have whole := parseFromString_fields_append distinct small back (fun _ mem => mem) target []
  rw [append_nil] at whole
  exact whole

end Hdc.SerialStruct
