import Hdc.SerialStruct.Complete
import Hdc.Session.Stream
import Hdc.Daemon.Auth
import Hdc.Transfer.Config

/-!
The messages that go over the wire (`serial_struct.h`).

Six structures have a descriptor. They share what matters about it: tags that are
distinct and fit into a byte with their wire type, members of five types, and no member
that is left out of the descriptor, so that setting every field makes a whole value.

* `parse_serialize`: every message comes back from its bytes;
* `parse_accepts_iff`: what is accepted beyond complete messages, namely everything;
* `parse_insertForeign`: fields that the descriptor does not have are passed over if
  their values read as foreign keys. Nothing skips a value, so any other value is taken
  for fields of the message.
-/

namespace Hdc.SerialStruct

open List Session

/-! ### The descriptors -/

/-- `HeartbeatMsg`. -/
structure HeartbeatMsg where
  heartbeatCount : UInt64
  reserved : Bytes
deriving DecidableEq, Repr

/-- The descriptor of `HeartbeatMsg`. -/
def heartbeatMsgFields : List (FieldImpl HeartbeatMsg) :=
  [{ tag := 1, codec := uint64Serializer, get := (·.heartbeatCount),
     set := fun msg value => { msg with heartbeatCount := value } },
   { tag := 2, codec := stringSerializer, get := (·.reserved),
     set := fun msg value => { msg with reserved := value } }]

/-- A message type with its descriptor. `sized` bounds the strings of a value. -/
structure WireMessage where
  T : Type
  fields : List (FieldImpl T)
  sized : Nat → T → Prop
  distinct : (fields.map FieldImpl.tag).Nodup
  small : ∀ field ∈ fields, field.tag < 2 ^ 29
  copies : ∀ source target, copyFields fields source target = source
  steady : ∀ field ∈ fields, ∀ value, field.set value (field.get value) = value
  readsBack : ∀ {value}, sized maxStringSize value →
    ∀ field ∈ fields, field.codec.ReadsBack (field.get value)
  complete : ∀ {value}, sized (2 ^ 64 - 1) value →
    ∀ field ∈ fields, field.codec.Complete (field.get value)

theorem string_complete_of_le {value : Bytes} (short : value.length ≤ 2 ^ 64 - 1) :
    stringSerializer.Complete value := string_complete (by omega)

def transferConfigMessage : WireMessage where
  T := Transfer.TransferConfig
  fields := Transfer.transferConfigFields
  sized limit v := v.options.length ≤ limit ∧ v.path.length ≤ limit ∧
    v.optionalName.length ≤ limit ∧ v.functionName.length ≤ limit ∧ v.clientCwd.length ≤ limit ∧
    v.reserve1.length ≤ limit ∧ v.reserve2.length ≤ limit
  distinct := by decide
  small := by decide
  copies _ _ := rfl
  steady := by simp [Transfer.transferConfigFields]
  readsBack := fun ⟨options, path, name, function, cwd, first, second⟩ => forall_iff_forall_mem.mp
    ⟨uint64_readsBack _, uint64_readsBack _, uint64_readsBack _, string_readsBack options,
    string_readsBack path, string_readsBack name, bool_readsBack _, uint8_readsBack _,
    bool_readsBack _, string_readsBack function, string_readsBack cwd, string_readsBack first,
    string_readsBack second⟩
  complete := fun ⟨options, path, name, function, cwd, first, second⟩ => forall_iff_forall_mem.mp
    ⟨uint64_complete _, uint64_complete _, uint64_complete _, string_complete_of_le options,
    string_complete_of_le path, string_complete_of_le name, bool_complete _, uint8_complete _,
    bool_complete _, string_complete_of_le function, string_complete_of_le cwd,
    string_complete_of_le first, string_complete_of_le second⟩

def fileModeMessage : WireMessage where
  T := Transfer.FileMode
  fields := Transfer.fileModeFields
  sized limit v := v.context.length ≤ limit ∧ v.fullName.length ≤ limit
  distinct := by decide
  small := by decide
  copies _ _ := rfl
  steady := by simp [Transfer.fileModeFields]
  readsBack := fun ⟨context, name⟩ => forall_iff_forall_mem.mp ⟨uint64_readsBack _, uint64_readsBack _,
    uint64_readsBack _, string_readsBack context, string_readsBack name⟩
  complete := fun ⟨context, name⟩ => forall_iff_forall_mem.mp ⟨uint64_complete _, uint64_complete _,
    uint64_complete _, string_complete_of_le context, string_complete_of_le name⟩

def transferPayloadMessage : WireMessage where
  T := Transfer.TransferPayload
  fields := Transfer.transferPayloadFields
  sized _ _ := True
  distinct := by decide
  small := by decide
  copies _ _ := rfl
  steady := by simp [Transfer.transferPayloadFields]
  readsBack _ := forall_iff_forall_mem.mp ⟨uint64_readsBack _, uint8_readsBack _, uint32_readsBack
    _, uint32_readsBack _⟩
  complete _ := forall_iff_forall_mem.mp ⟨uint64_complete _, uint8_complete _, uint32_complete _,
    uint32_complete _⟩

def sessionHandShakeMessage : WireMessage where
  T := Daemon.SessionHandShake
  fields := Daemon.sessionHandShakeFields
  sized limit v := v.banner.length ≤ limit ∧ v.connectKey.length ≤ limit ∧ v.buf.length ≤ limit ∧
    v.version.length ≤ limit
  distinct := by decide
  small := by decide
  copies _ _ := rfl
  steady := by simp [Daemon.sessionHandShakeFields]
  readsBack := fun ⟨banner, key, buf, version⟩ => forall_iff_forall_mem.mp ⟨string_readsBack banner,
    uint8_readsBack _, uint32_readsBack _, string_readsBack key, string_readsBack buf,
    string_readsBack version⟩
  complete := fun ⟨banner, key, buf, version⟩ => forall_iff_forall_mem.mp ⟨string_complete_of_le banner,
    uint8_complete _, uint32_complete _, string_complete_of_le key, string_complete_of_le buf,
    string_complete_of_le version⟩

def payloadProtectMessage : WireMessage where
  T := Session.PayloadProtect
  fields := payloadProtectFields
  sized _ _ := True
  distinct := by decide
  small := by decide
  copies _ _ := rfl
  steady := by simp [payloadProtectFields]
  readsBack _ := forall_iff_forall_mem.mp ⟨uint32_readsBack _, uint32_readsBack _, uint8_readsBack
    _, uint8_readsBack _⟩
  complete _ := forall_iff_forall_mem.mp ⟨uint32_complete _, uint32_complete _, uint8_complete _,
    uint8_complete _⟩

def heartbeatMsgMessage : WireMessage where
  T := HeartbeatMsg
  fields := heartbeatMsgFields
  sized limit v := v.reserved.length ≤ limit
  distinct := by decide
  small := by decide
  copies _ _ := rfl
  steady := by simp [heartbeatMsgFields]
  readsBack reserved := forall_iff_forall_mem.mp ⟨uint64_readsBack _, string_readsBack reserved⟩
  complete reserved := forall_iff_forall_mem.mp ⟨uint64_complete _, string_complete_of_le reserved⟩

/-- The structures that have a descriptor. -/
inductive MessageKind where
  | transferConfig
  | fileMode
  | transferPayload
  | sessionHandShake
  | payloadProtect
  | heartbeatMsg
deriving DecidableEq, Repr

def MessageKind.message : MessageKind → WireMessage
  | .transferConfig => transferConfigMessage
  | .fileMode => fileModeMessage
  | .transferPayload => transferPayloadMessage
  | .sessionHandShake => sessionHandShakeMessage
  | .payloadProtect => payloadProtectMessage
  | .heartbeatMsg => heartbeatMsgMessage

/-! ### Round trip -/

/-- A message whose strings are not too long comes back, whatever the target held. -/
theorem parse_serialize (kind : MessageKind) (value target : kind.message.T)
    (short : kind.message.sized maxStringSize value) :
    parseResult kind.message.fields target (serializeToString kind.message.fields value) =
      (true, value) := by
  rw [parseResult, parseFromString_serializeToString kind.message.distinct kind.message.small
    (kind.message.readsBack short), kind.message.copies]

theorem parse_serialize_heartbeat :
    parseResult heartbeatMsgFields ⟨0, []⟩
        (serializeToString heartbeatMsgFields ⟨300, str "alive"⟩) =
      (true, ⟨300, str "alive"⟩) :=
  parse_serialize .heartbeatMsg ⟨300, str "alive"⟩ ⟨0, []⟩ (by
    change (str "alive").length ≤ maxStringSize
    decide)

/-! ### What is accepted -/

/-- Everything is accepted. So what is accepted is complete fields only where it was, and
among the beginnings of a serialized message those are refused that break a field off
only if there is none. -/
theorem parse_accepts_iff (kind : MessageKind) (target : kind.message.T) :
    (∀ input, ((parseResult kind.message.fields target input).1 = true →
        WellFormed kind.message.fields input) ↔ WellFormed kind.message.fields input) ∧
      ∀ value, kind.message.sized (2 ^ 64 - 1) value →
        ∀ part, part <+: serializeToString kind.message.fields value →
          (((¬ ∃ k, part = serializeToString (kind.message.fields.take k) value) →
              (parseResult kind.message.fields target part).1 = false) ↔
            WellFormed kind.message.fields part) := by
  constructor
  · intro input
    constructor
    · intro accepted
      exact accepted rfl
    · intro whole _
      exact whole
  · intro value short part cut
    rw [wellFormed_cut_iff kind.message.small (kind.message.complete short) (fun _ mem => mem) cut]
    constructor
    · intro refused
      by_contra inside
      cases refused inside
    · intro between inside
      exact absurd between inside

/-- The head of a message without its last byte is accepted, and the target's own byte
stays in the field that breaks off. -/
theorem parse_accepts_cut :
    ∃ part, part <+: serializeToString payloadProtectFields ⟨1, 2, 3, 4⟩ ∧
      (¬ ∃ k, part = serializeToString (payloadProtectFields.take k) ⟨1, 2, 3, 4⟩) ∧
      ¬ WellFormed payloadProtectFields part ∧
      parseResult payloadProtectFields ⟨0, 0, 0, 0⟩ part = (true, ⟨1, 2, 3, 0⟩) := by
  let part : Bytes := [8, 1, 16, 2, 24, 3, 32]
  have cut : part <+: serializeToString payloadProtectFields ⟨1, 2, 3, 4⟩ := ⟨[4], by decide⟩
  have inside : ¬ ∃ k, part =
      serializeToString (payloadProtectFields.take k) ⟨1, 2, 3, 4⟩ := by
    rintro ⟨k, same⟩
    match k with
    | 0 | 1 | 2 | 3 => exact absurd same (by decide)
    | k + 4 =>
      rw [take_of_length_le (show payloadProtectFields.length ≤ k + 4 from
        Nat.le_add_left 4 k)] at same
      exact absurd same (by decide)
  have ends := wellFormed_cut_iff payloadProtectMessage.small
    (payloadProtectMessage.complete trivial) (fun _ mem => mem) cut
  exact ⟨part, cut, inside, fun whole => inside (ends.mp whole), by decide⟩

/-! ### Fields of a later version -/

section Foreign

variable {T : Type}

/-- A complete field whose tag the descriptor does not have: a key, and behind it exactly
one value of the key's wire type. -/
structure ForeignField (fields : List (FieldImpl T)) where
  bytes : Bytes
  keyed : (readVarint32 bytes).ok = true
  foreign : ∀ field ∈ fields, field.tag ≠ (readTagWireType (readVarint32 bytes).value).1
  whole : completeValue (readTagWireType (readVarint32 bytes).value).2 (readVarint32 bytes).rest =
    some []

/-- The bytes behind the key. -/
def ForeignField.value {fields : List (FieldImpl T)} (foreign : ForeignField fields) : Bytes :=
  (readVarint32 foreign.bytes).rest

/-- A message with foreign fields before, between and behind its own: `gaps` says which, in
the order of the gaps. -/
def insertForeign {fields : List (FieldImpl T)} (source : T) :
    List (FieldImpl T) → List (List (ForeignField fields)) → Bytes
  | [], gaps => (gaps.headD []).flatMap ForeignField.bytes
  | field :: todo, gaps =>
    (gaps.headD []).flatMap ForeignField.bytes ++
      (writeField source field ++ insertForeign source todo gaps.tail)

/-- The bytes read as keys, all whole, none of a field with that wire type. -/
inductive PassedOver (fields : List (FieldImpl T)) : Bytes → Prop where
  | nil : PassedOver fields []
  | key {input : Bytes} (ok : (readVarint32 input).ok = true)
      (unmatched : ∀ field ∈ fields, field.tag = (readTagWireType (readVarint32 input).value).1 →
        field.codec.wireType ≠ (readTagWireType (readVarint32 input).value).2)
      (behind : PassedOver fields (readVarint32 input).rest) : PassedOver fields input

variable {fields : List (FieldImpl T)}

variable {source : T}

section

variable (steady : ∀ field ∈ fields, ∀ value, field.set value (field.get value) = value)
include steady

/-- A key that no field matches changes nothing. -/
theorem visit_unmatched {tag : Nat} {wireType : WireType}
    (unmatched : ∀ field ∈ fields, field.tag = tag → field.codec.wireType ≠ wireType)
    (state : T × Bytes) : fields.foldl (readField tag wireType) state = state := by
  induction fields with
  | nil => rfl
  | cons field fields ih =>
    have here : readField tag wireType state field = state := by
      rw [readField]
      split
      case isTrue same =>
        have other := unmatched _ mem_cons_self same
        rw [Serializer.parse, if_neg (Ne.symm other)]
        exact Prod.ext (steady _ mem_cons_self _) rfl
      case isFalse => rfl
    rw [foldl_cons, here]
    exact ih (fun other mem => steady other (mem_cons_of_mem _ mem))
      fun other mem => unmatched other (mem_cons_of_mem _ mem)

theorem parseFromString_passedOver {input : Bytes} (passed : PassedOver fields input) (value : T) (tail : Bytes) :
    parseFromString fields value (input ++ tail) = parseFromString fields value tail := by
  induction passed with
  | nil => rfl
  | @key input ok unmatched behind ih =>
    have more : readVarint32 (input ++ tail) =
        ⟨(readVarint32 input).value, true, (readVarint32 input).rest ++ tail⟩ :=
      Leb128.decodeFrom_append ok tail
    rw [parseFromString_key (by rw [more]), more]
    dsimp only
    rw [visit_unmatched steady unmatched]
    exact ih

end

/-- Zero bytes are keys of a tag that no message has. -/
theorem passedOver_zeros (used : ∀ field ∈ fields, field.tag ≠ 0) (count : Nat) :
    PassedOver fields (List.replicate count 0) := by
  induction count with
  | zero => exact .nil
  | succ count ih =>
    have key : readVarint32 (List.replicate (count + 1) 0) =
        ⟨0, true, List.replicate count 0⟩ := rfl
    refine .key (by rw [key]) ?_ (by rw [key]; exact ih)
    intro field mem same
    rw [key, readTagWireType, Nat.zero_shiftRight] at same
    exact absurd same (used _ mem)

/-- The key of a foreign field is foreign, so its value decides. -/
theorem ForeignField.passedOver (foreign : ForeignField fields)
    (passed : PassedOver fields foreign.value) : PassedOver fields foreign.bytes :=
  .key foreign.keyed (fun field mem same => absurd same (foreign.foreign field mem)) passed

theorem parseFromString_gap
    (steady : ∀ field ∈ fields, ∀ value, field.set value (field.get value) = value)
    {gap : List (ForeignField fields)} (passed : ∀ foreign ∈ gap, PassedOver fields foreign.value)
    (value : T) (tail : Bytes) :
    parseFromString fields value (gap.flatMap ForeignField.bytes ++ tail) =
    parseFromString fields value tail := by
  induction gap with
  | nil => rfl
  | cons foreign gap ih =>
    have here := foreign.passedOver (passed _ mem_cons_self)
    rw [flatMap_cons, append_assoc, parseFromString_passedOver steady here]
    exact ih fun other mem => passed other (mem_cons_of_mem _ mem)

theorem passed_headD {gaps : List (List (ForeignField fields))}
    (passed : ∀ gap ∈ gaps, ∀ foreign ∈ gap, PassedOver fields foreign.value) :
    ∀ foreign ∈ gaps.headD [], PassedOver fields foreign.value := by
  cases gaps with
  | nil => exact fun _ mem => absurd mem not_mem_nil
  | cons gap gaps => exact passed _ mem_cons_self

theorem parseFromString_insertForeign (distinct : (fields.map FieldImpl.tag).Nodup)
    (small : ∀ field ∈ fields, field.tag < 2 ^ 29)
    (steady : ∀ field ∈ fields, ∀ value, field.set value (field.get value) = value)
    (back : ∀ field ∈ fields, field.codec.ReadsBack (field.get source))
    {todo : List (FieldImpl T)} (sub : todo ⊆ fields) {gaps : List (List (ForeignField fields))}
    (passed : ∀ gap ∈ gaps, ∀ foreign ∈ gap, PassedOver fields foreign.value) (target : T) :
    parseFromString fields target (insertForeign source todo gaps) =
    copyFields todo source target := by
  induction todo generalizing gaps target with
  | nil =>
    have gap := parseFromString_gap steady (passed_headD passed) target []
    rw [append_nil] at gap
    exact gap
  | cons field todo ih =>
    have mem : field ∈ fields := sub mem_cons_self
    rw [insertForeign, parseFromString_gap steady (passed_headD passed),
      parseFromString_field distinct mem (small field mem) (back field mem)]
    exact ih (fun other inside => sub (mem_cons_of_mem _ inside))
      (fun gap inside => passed _ (mem_of_mem_tail inside)) _

end Foreign

/-- A message comes back from between foreign fields whose values are passed over. -/
theorem parse_insertForeign (kind : MessageKind) (value target : kind.message.T)
    (gaps : List (List (ForeignField kind.message.fields)))
    (short : kind.message.sized maxStringSize value)
    (passed : ∀ gap ∈ gaps, ∀ foreign ∈ gap, PassedOver kind.message.fields foreign.value) :
    parseResult kind.message.fields target (insertForeign value kind.message.fields gaps) =
      (true, value) := by
  rw [parseResult, parseFromString_insertForeign kind.message.distinct kind.message.small
    kind.message.steady (kind.message.readsBack short) (fun _ mem => mem) passed,
    kind.message.copies]

/-- A string under tag 4 whose text reads as keys 5 and 6. -/
def harmlessField : ForeignField heartbeatMsgFields where
  bytes := [0x22, 2, 0x28, 0x30]
  keyed := by decide
  foreign := by decide
  whole := by decide

/-- A string under tag 4 whose text reads as a heartbeat count of seven. -/
def countField : ForeignField heartbeatMsgFields where
  bytes := [0x22, 2, 0x08, 7]
  keyed := by decide
  foreign := by decide
  whole := by decide

theorem parse_insertForeign_heartbeat :
    parseResult heartbeatMsgFields ⟨0, []⟩
        (insertForeign ⟨300, str "alive"⟩ heartbeatMsgFields [[], [harmlessField]]) =
      (true, ⟨300, str "alive"⟩) := by
  refine parse_insertForeign .heartbeatMsg ⟨300, str "alive"⟩ ⟨0, []⟩
    [[], [harmlessField]] ?_ ?_
  · change (str "alive").length ≤ maxStringSize
    decide
  · intro gap gapMem foreign mem
    simp only [mem_cons, not_mem_nil, or_false] at gapMem
    rcases gapMem with rfl | rfl
    · exact absurd mem not_mem_nil
    · obtain rfl := mem_singleton.mp mem
      exact .key (by decide) (by decide)
        (.key (by decide) (by decide) (.key (by decide) (by decide) .nil))

/-- A string of a later version is not skipped: its text is read as a field. -/
theorem foreign_string_sets_count :
    ∃ gaps : List (List (ForeignField heartbeatMsgFields)),
      parseResult heartbeatMsgFields ⟨0, []⟩
        (insertForeign ⟨5, str "ok"⟩ heartbeatMsgFields gaps) = (true, ⟨7, str "ok"⟩) :=
  ⟨[[], [], [countField]], by decide⟩

end Hdc.SerialStruct
