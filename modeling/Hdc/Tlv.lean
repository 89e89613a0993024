import Hdc.Define
import Hdc.Lib.SortedMap
import Hdc.Lib.Words

/-!
Tagged values in a buffer (`tlv.cpp`).

A `TlvBuf` is a map from tags to values of 1 to 16 M bytes. It is written as a row of entries, in the
order of the tags: the tag and the length in four bytes each, then the value. It is read from such a
row, in any order of the tags; whatever else is read leaves an empty map.

The size of the row is counted in 32 bits, and nothing limits the number of entries. From 4 GB on,
`GetBufSize` is too small, and `CopyToBuf` into so many bytes fails, or writes behind them.

* `roundTrips_iff`: which maps come back from their own bytes;
* `tlv_format`: the format in both directions.
-/

namespace Hdc.Tlv

open List Endian SortedMap Nat

def tlvHeadSize : Nat := 8

def tlvValueMaxLen : Nat := 16 * 1024 * 1024

/-- The order of `std::map<uint32_t, …>`. -/
def tagOrder : KeyOrder UInt32 where
  less a b := a < b
  trans := by
    intro a b c first second
    simp only [decide_eq_true_eq] at first second ⊢
    exact UInt32.lt_trans first second

abbrev TlvMap := SortedMap tagOrder Bytes

structure TlvBuf where
  mTlvMap : TlvMap
  mValidTags : List UInt32

/-- `Append` to the map: `val` is what stands at the pointer, or none for a null pointer. -/
def appendMap (map : TlvMap) (tag len : UInt32) (val : Option (Nat → UInt8)) : Option TlvMap :=
  if len = 0 ∨ tlvValueMaxLen < len.toNat then none
  else
    match val with
    | none => none
    | some byte =>
      if map.entries.any (·.1 = tag) then none
      else some (map.insert (tag, (List.range len.toNat).map byte))

namespace TlvBuf

/-- `TlvBuf(validtags)`. -/
def new (validtags : List UInt32) : TlvBuf := ⟨.empty, validtags⟩

/-- `Append`, with the map unchanged where it fails. -/
def append (tlv : TlvBuf) (tag len : UInt32) (val : Option (Nat → UInt8)) : Bool × TlvBuf :=
  match appendMap tlv.mTlvMap tag len val with
  | none => (false, tlv)
  | some map => (true, { tlv with mTlvMap := map })

/-- `Append` of a string; its size is cut to 32 bits. -/
def appendString (tlv : TlvBuf) (tag : UInt32) (val : Bytes) : Bool × TlvBuf :=
  tlv.append tag (UInt32.ofNat val.length) (some (val.getD · 0))

end TlvBuf

/-- The 32-bit word at the head of some bytes. -/
def word (bytes : Bytes) : UInt32 := UInt32.ofNat (ofLE (bytes.take 4))

/-- The loop of the constructor that reads; none where it clears the map. -/
def readFrom : Nat → Bytes → TlvMap → Option TlvMap
  | 0, _, map => some map
  | turns + 1, tlvs, map =>
    if tlvs = [] then some map
    else if tlvs.length < tlvHeadSize then none
    else
      let tag := word tlvs
      let len := word (tlvs.drop 4)
      let val := tlvs.drop tlvHeadSize
      if len = 0 ∨ val.length < len.toNat then none
      else
        match appendMap map tag len (some (val.getD · 0)) with
        | none => none
        | some map => readFrom turns (val.drop len.toNat) map

namespace TlvBuf

/-- `TlvBuf(tlvs, size, validtags)`, of the `size` bytes at `tlvs`. -/
def ofBuf (tlvs : Bytes) (validtags : List UInt32) : TlvBuf :=
  ⟨(readFrom tlvs.length tlvs .empty).getD .empty, validtags⟩

/-- `GetBufSize`. -/
def getBufSize (tlv : TlvBuf) : UInt32 :=
  tlv.mTlvMap.entries.foldl
    (fun size entry => size + UInt32.ofNat tlvHeadSize + UInt32.ofNat entry.2.length) 0

/-- `FindTlv` of a string. -/
def findTlv (tlv : TlvBuf) (tag : UInt32) : Option Bytes := tlv.mTlvMap.entries.lookup tag

/-- `ContainInvalidTag`. -/
def containInvalidTag (tlv : TlvBuf) : Bool :=
  tlv.mTlvMap.entries ≠ [] && tlv.mValidTags ≠ [] &&
    tlv.mTlvMap.entries.any (·.1 ∉ tlv.mValidTags)

end TlvBuf

/-- How `CopyToBuf` ends: it fails, it writes the head of an entry behind the buffer, or it returns
true with these bytes in the buffer. -/
inductive Copied where
  | failed
  | overrun
  | copied (dst : Bytes)
deriving DecidableEq, Repr

/-- One entry as it is written. -/
def encodeEntry (entry : UInt32 × Bytes) : Bytes :=
  toLE 4 entry.1.toNat ++ toLE 4 entry.2.length ++ entry.2

def encode (entries : List (UInt32 × Bytes)) : Bytes := entries.flatMap encodeEntry

/-- The loop of `CopyToBuf`, with what is written so far. `memMax` is the largest size that
`memcpy_s` takes for a buffer. -/
def copyFrom (memMax : Nat) (dst : Bytes) : Bytes → List (UInt32 × Bytes) → Copied
  | done, [] => .copied (done ++ dst.drop done.length)
  | done, entry :: rest =>
    let pos := done.length + tlvHeadSize
    if dst.length < pos then .overrun
    else
      let room := dst.length - pos
      if room = 0 ∨ memMax < room ∨ room < entry.2.length then .failed
      else copyFrom memMax dst (done ++ encodeEntry entry) rest

/-- `CopyToBuf`; a null pointer is `none`. -/
def TlvBuf.copyToBuf (memMax : Nat) (tlv : TlvBuf) : Option Bytes → Copied
  | none => .failed
  | some dst =>
    if dst.length < tlv.getBufSize.toNat then .failed
    else copyFrom memMax dst [] tlv.mTlvMap.entries

/-- A call of `Append`: the tag, the length and what stands at the pointer. -/
abbrev Call := UInt32 × UInt32 × Option (Nat → UInt8)

/-- A `TlvBuf` built by calls of `Append`. -/
def TlvBuf.built (validtags : List UInt32) (calls : List Call) : TlvBuf :=
  calls.foldl (fun tlv call => (tlv.append call.1 call.2.1 call.2.2).2) (.new validtags)

/-- Bytes are read back as the map that they were written from. -/
def RoundTrips (memMax : Nat) (validtags : List UInt32) (tlv : TlvBuf) (dst : Bytes) : Prop :=
  ∃ written, tlv.copyToBuf memMax (some dst) = .copied written ∧
    TlvBuf.ofBuf written validtags = tlv

/-! ### Entries -/

/-- What `Append` lets into a map. -/
def Admitted (entry : UInt32 × Bytes) : Prop :=
  0 < entry.2.length ∧ entry.2.length ≤ tlvValueMaxLen

/-- Complete entries with distinct tags, none of them among the `taken` ones. -/
structure WellFormed (taken : List UInt32) (entries : List (UInt32 × Bytes)) : Prop where
  admitted : ∀ entry ∈ entries, Admitted entry
  distinct : (entries.map (·.1)).Nodup
  fresh : ∀ entry ∈ entries, entry.1 ∉ taken

variable {entry : UInt32 × Bytes}

theorem Admitted.toNat_length (admitted : Admitted entry) :
    (UInt32.ofNat entry.2.length).toNat = entry.2.length := by
  have small := admitted.2
  rw [tlvValueMaxLen] at small
  exact UInt32.toNat_ofNat_of_lt' (by rw [UInt32.size]; omega)

@[simp] theorem length_encodeEntry (entry : UInt32 × Bytes) :
    (encodeEntry entry).length = tlvHeadSize + entry.2.length := by
  simp only [encodeEntry, length_append, Endian.length_toLE, tlvHeadSize]

@[simp] theorem encode_nil : encode [] = [] := rfl

@[simp] theorem encode_cons (entry : UInt32 × Bytes) (rest : List (UInt32 × Bytes)) :
    encode (entry :: rest) = encodeEntry entry ++ encode rest := rfl

variable {entries : List (UInt32 × Bytes)}

theorem length_encode_of_forall {len : Nat} (same : ∀ entry ∈ entries, entry.2.length = len) :
    (encode entries).length = entries.length * (tlvHeadSize + len) := by
  induction entries with
  | nil => simp
  | cons entry rest ih =>
    rw [encode_cons, length_append, length_encodeEntry, same entry mem_cons_self,
      ih fun other mem => same other (mem_cons_of_mem _ mem), length_cons,
      add_mul, one_mul, add_comm]

/-! ### Words -/

theorem word_toLE (value : Nat) (rest : Bytes) :
    word (toLE 4 value ++ rest) = UInt32.ofNat value := by
  rw [word, take_left' (length_toLE ..), ofLE_toLE]
  apply UInt32.toNat_inj.mp
  exact mod_mod ..

theorem toLE_word {bytes : Bytes} (enough : 4 ≤ bytes.length) :
    toLE 4 (word bytes).toNat = bytes.take 4 := by
  have four : (bytes.take 4).length = 4 := length_take_of_le enough
  have small := ofLE_lt (bytes.take 4)
  rw [four] at small
  have same := toLE_ofLE (bytes.take 4)
  rw [four] at same
  rw [word, UInt32.toNat_ofNat_of_lt' small, same]

theorem range_map_getD {bytes : Bytes} {len : Nat} (enough : len ≤ bytes.length) :
    (List.range len).map (bytes.getD · 0) = bytes.take len := by
  apply ext_getElem
  · simp [enough]
  · intro index inRange _
    have within : index < bytes.length := by
      simp only [length_map, length_range] at inRange
      omega
    simp [within]

/-! ### Appending -/

theorem less_or_less {a b : UInt32} (other : a ≠ b) : tagOrder.less a b ∨ tagOrder.less b a := by
  simp only [tagOrder, decide_eq_true_eq]
  exact lt_or_gt_of_ne (mt UInt32.toNat_inj.mp other)

variable {map after : TlvMap}

theorem appendMap_eq_some_iff {tag len : UInt32} {byte : Nat → UInt8} :
    appendMap map tag len (some byte) = some after ↔
    (0 < len.toNat ∧ len.toNat ≤ tlvValueMaxLen) ∧ tag ∉ map.entries.map (·.1) ∧
    after = map.insert (tag, (List.range len.toNat).map byte) := by
  have zero : len = 0 ↔ len.toNat = 0 := by rw [← UInt32.toNat_inj]; rfl
  have present : map.entries.any (·.1 = tag) = true ↔ tag ∈ map.entries.map (·.1) := by simp
  simp only [appendMap, zero, present]
  constructor
  · intro appended
    split at appended
    · cases appended
    case isFalse fits =>
      split at appended
      · cases appended
      case isFalse absent => exact ⟨by omega, absent, (Option.some.inj appended).symm⟩
  · rintro ⟨fits, absent, rfl⟩
    rw [if_neg (by omega), if_neg absent]

/-- An entry with a tag of its own. -/
theorem perm_insert {map : TlvMap} (absent : entry.1 ∉ map.entries.map (·.1)) :
    (map.insert entry).entries.Perm (entry :: map.entries) := by
  apply SortedMap.perm_insert
  intro other mem
  apply less_or_less
  rintro same
  exact absent (mem_map.mpr ⟨other, mem, same⟩)

/-! ### Reading -/

@[simp] theorem readFrom_nil (turns : Nat) (map : TlvMap) : readFrom turns [] map = some map := by
  cases turns with
  | zero => rfl
  | succ turns => simp [readFrom]

/-- One turn of the loop on a complete entry. -/
theorem readFrom_entry (admitted : Admitted entry) {map : TlvMap}
    (absent : entry.1 ∉ map.entries.map (·.1)) (turns : Nat) (rest : Bytes) :
    readFrom (turns + 1) (encodeEntry entry ++ rest) map =
    readFrom turns rest (map.insert entry) := by
  have long : tlvHeadSize ≤ (encodeEntry entry ++ rest).length := by
    rw [length_append, length_encodeEntry]
    omega
  have split : encodeEntry entry ++ rest =
      toLE 4 entry.1.toNat ++ (toLE 4 entry.2.length ++ (entry.2 ++ rest)) := by
    simp [encodeEntry]
  have tag : word (encodeEntry entry ++ rest) = entry.1 := by
    rw [split, word_toLE, UInt32.ofNat_toNat]
  have afterTag : (encodeEntry entry ++ rest).drop 4 =
      toLE 4 entry.2.length ++ (entry.2 ++ rest) := by
    rw [split, drop_left' (length_toLE ..)]
  have val : (encodeEntry entry ++ rest).drop tlvHeadSize = entry.2 ++ rest := by
    rw [tlvHeadSize, ← drop_drop (i := 4) (j := 4), afterTag,
      drop_left' (length_toLE ..)]
  have appended : appendMap map entry.1 (UInt32.ofNat entry.2.length)
      (some ((entry.2 ++ rest).getD · 0)) = some (map.insert entry) := by
    apply appendMap_eq_some_iff.mpr
    rw [admitted.toNat_length, range_map_getD (by simp), take_left]
    exact ⟨admitted, absent, rfl⟩
  have some_length : UInt32.ofNat entry.2.length ≠ 0 := by
    intro zero
    have none_left := admitted.toNat_length
    rw [zero] at none_left
    have some_left := admitted.1
    rw [← none_left] at some_left
    cases some_left
  rw [readFrom, if_neg (ne_nil_of_length_pos (lt_of_lt_of_le (by decide) long)),
    if_neg (not_lt.mpr long)]
  simp only [tag, afterTag, val, word_toLE, appended]
  rw [if_neg, admitted.toNat_length, drop_left]
  rw [admitted.toNat_length, length_append, not_or]
  exact ⟨some_length, by omega⟩

variable {tlvs : Bytes}

/-- The head of some bytes, as the two words and what follows. -/
theorem head_eq (enough : tlvHeadSize ≤ tlvs.length) :
    tlvs = toLE 4 (word tlvs).toNat ++ toLE 4 (word (tlvs.drop 4)).toNat ++
    tlvs.drop tlvHeadSize := by
  rw [tlvHeadSize] at enough
  rw [toLE_word (by omega), toLE_word (by rw [length_drop]; omega), append_assoc,
    tlvHeadSize, ← drop_drop (i := 4) (j := 4), take_append_drop, take_append_drop]

/-- What one turn of the loop has read. -/
theorem entry_of_readFrom {turns : Nat} (some_left : tlvs ≠ [])
    (read : readFrom (turns + 1) tlvs map = some after) :
    ∃ entry rest, tlvs = encodeEntry entry ++ rest ∧ Admitted entry ∧
    entry.1 ∉ map.entries.map (·.1) ∧ readFrom turns rest (map.insert entry) = some after := by
  rw [readFrom, if_neg some_left] at read
  split at read
  · cases read
  case isFalse notShort =>
    have head := head_eq (not_lt.mp notShort)
    generalize word tlvs = tag, word (tlvs.drop 4) = len, tlvs.drop tlvHeadSize = val at read head
    dsimp only at read
    split at read
    · cases read
    case isFalse fits =>
      have enough : len.toNat ≤ val.length := by omega
      split at read
      · cases read
      case h_2 extended appended =>
        obtain ⟨admitted, absent, rfl⟩ := appendMap_eq_some_iff.mp appended
        rw [range_map_getD enough] at read
        have taken : (val.take len.toNat).length = len.toNat := length_take_of_le enough
        refine ⟨(tag, val.take len.toNat), val.drop len.toNat, ?_, ?_, absent, read⟩
        · rw [head, encodeEntry, taken, append_assoc (_ ++ _), take_append_drop]
        · rw [Admitted, taken]
          exact admitted

theorem WellFormed.cons {map : TlvMap} (admitted : Admitted entry)
    (absent : entry.1 ∉ map.entries.map (·.1))
    (rest : WellFormed ((map.insert entry).entries.map (·.1)) entries) :
    WellFormed (map.entries.map (·.1)) (entry :: entries) := by
  have tags := (perm_insert absent).map (·.1)
  constructor
  · exact forall_mem_cons.mpr ⟨admitted, rest.admitted⟩
  · rw [map_cons, nodup_cons]
    refine ⟨?_, rest.distinct⟩
    intro again
    obtain ⟨other, mem, same⟩ := mem_map.mp again
    apply rest.fresh other mem
    rw [same]
    exact tags.mem_iff.mpr mem_cons_self
  · refine forall_mem_cons.mpr ⟨absent, ?_⟩
    intro other mem old
    apply rest.fresh other mem
    exact tags.mem_iff.mpr (mem_cons_of_mem _ old)

theorem WellFormed.tail {map : TlvMap}
    (both : WellFormed (map.entries.map (·.1)) (entry :: entries)) :
    WellFormed ((map.insert entry).entries.map (·.1)) entries := by
  have tags := (perm_insert (both.fresh _ mem_cons_self)).map (·.1)
  have distinct := both.distinct
  rw [map_cons, nodup_cons] at distinct
  constructor
  · exact fun other mem => both.admitted other (mem_cons_of_mem _ mem)
  · exact distinct.2
  · intro other mem taken
    rcases mem_cons.mp (tags.mem_iff.mp taken) with same | old
    · apply distinct.1
      exact mem_map.mpr ⟨other, mem, same⟩
    · exact both.fresh other (mem_cons_of_mem _ mem) old

/-- The loop accepts the rows of complete entries with distinct tags, and inserts these. -/
theorem readFrom_eq_some_iff {turns : Nat} (enough : tlvs.length ≤ turns) :
    readFrom turns tlvs map = some after ↔
    ∃ entries, WellFormed (map.entries.map (·.1)) entries ∧ tlvs = encode entries ∧
    after = entries.foldl insert map := by
  constructor
  · intro read
    induction turns generalizing tlvs map with
    | zero =>
      obtain rfl := eq_nil_of_length_eq_zero (Nat.le_zero.mp enough)
      refine ⟨[], ⟨?_, ?_, ?_⟩, rfl, (Option.some.inj read).symm⟩ <;> simp
    | succ turns ih =>
      by_cases done : tlvs = []
      · subst done
        refine ⟨[], ⟨?_, ?_, ?_⟩, rfl, (Option.some.inj read).symm⟩ <;> simp
      · obtain ⟨entry, _, rfl, admitted, absent, later⟩ := entry_of_readFrom done read
        rw [length_append, length_encodeEntry, tlvHeadSize] at enough
        obtain ⟨entries, wellFormed, rfl, rfl⟩ := ih (by omega) later
        exact ⟨entry :: entries, wellFormed.cons admitted absent, rfl, rfl⟩
  · rintro ⟨entries, wellFormed, rfl, rfl⟩
    induction entries generalizing turns map with
    | nil => exact readFrom_nil ..
    | cons entry entries ih =>
      rw [encode_cons, length_append, length_encodeEntry, tlvHeadSize] at enough
      obtain ⟨_, rfl⟩ := Nat.exists_eq_add_of_lt (show 0 < turns by omega)
      rw [encode_cons, Nat.zero_add, readFrom_entry (wellFormed.admitted entry mem_cons_self)
        (wellFormed.fresh entry mem_cons_self)]
      exact ih wellFormed.tail (by omega)

theorem perm_foldl_insert {map : TlvMap} (wellFormed : WellFormed (map.entries.map (·.1)) entries) :
    (entries.foldl insert map).entries.Perm (map.entries ++ entries) := by
  induction entries generalizing map with
  | nil => simp
  | cons entry entries ih =>
    have first := perm_insert (wellFormed.fresh _ mem_cons_self)
    refine (ih wellFormed.tail).trans ((first.append_right _).trans ?_)
    exact perm_middle.symm

/-! ### Writing -/

theorem copyFrom_eq {memMax : Nat} {dst done : Bytes}
    (admitted : ∀ entry ∈ entries, Admitted entry)
    (room : done.length + (encode entries).length ≤ dst.length)
    (accepted : entries = [] ∨ dst.length ≤ done.length + tlvHeadSize + memMax) :
    copyFrom memMax dst done entries =
    .copied (done ++ encode entries ++ dst.drop (done.length + (encode entries).length)) := by
  induction entries generalizing done with
  | nil => simp [copyFrom]
  | cons entry rest ih =>
    have some_left := (admitted _ mem_cons_self).1
    have bound := accepted.resolve_left (cons_ne_nil _ _)
    rw [encode_cons, length_append, length_encodeEntry] at room
    have grown : (done ++ encodeEntry entry).length =
        done.length + (tlvHeadSize + entry.2.length) := by
      rw [length_append, length_encodeEntry]
    rw [copyFrom, if_neg (by omega), if_neg (by omega),
      ih (fun other mem => admitted other (mem_cons_of_mem _ mem)) (by omega)
        (.inr (by omega)), grown]
    simp only [encode_cons, length_append, length_encodeEntry, append_assoc,
      add_assoc]

/-- Where the loop returns true, there was room for all, and the buffer was not too large for
`memcpy_s`. -/
theorem copyFrom_bounds {memMax : Nat} {dst done written : Bytes}
    (fits : done.length ≤ dst.length)
    (copied : copyFrom memMax dst done entries = .copied written) :
    done.length + (encode entries).length ≤ dst.length ∧
    (entries = [] ∨ dst.length ≤ done.length + tlvHeadSize + memMax) := by
  induction entries generalizing done with
  | nil => exact ⟨fits, .inl rfl⟩
  | cons entry rest ih =>
    rw [copyFrom] at copied
    split at copied
    · cases copied
    case isFalse head =>
      dsimp only at copied
      split at copied
      · cases copied
      case isFalse value =>
        have grown : (done ++ encodeEntry entry).length =
            done.length + (tlvHeadSize + entry.2.length) := by
          rw [length_append, length_encodeEntry]
        obtain ⟨_, -⟩ := ih (by omega) copied
        rw [encode_cons, length_append, length_encodeEntry]
        exact ⟨by omega, .inr (by omega)⟩

/-! ### Maps that are built -/

theorem foldl_size (entries : List (UInt32 × Bytes)) (size : UInt32) :
    (entries.foldl (fun size entry =>
      size + UInt32.ofNat tlvHeadSize + UInt32.ofNat entry.2.length) size).toNat =
      (size.toNat + (encode entries).length) % 2 ^ 32 := by
  induction entries generalizing size with
  | nil => exact (mod_eq_of_lt size.toNat_lt).symm
  | cons entry rest ih =>
    rw [foldl_cons, ih, encode_cons, length_append, length_encodeEntry,
      UInt32.toNat_add, UInt32.toNat_add, UInt32.toNat_ofNat', UInt32.toNat_ofNat']
    omega

/-- The size is counted modulo 2 ^ 32. -/
theorem TlvBuf.toNat_getBufSize (tlv : TlvBuf) :
    tlv.getBufSize.toNat = (encode tlv.mTlvMap.entries).length % 2 ^ 32 := by
  rw [getBufSize, foldl_size]
  exact congrArg (· % 2 ^ 32) (zero_add _)

/-- What every `TlvBuf` built by `Append` keeps. -/
structure TlvBuf.Kept (validtags : List UInt32) (tlv : TlvBuf) : Prop where
  admitted : ∀ entry ∈ tlv.mTlvMap.entries, Admitted entry
  validTags : tlv.mValidTags = validtags

variable {tlv : TlvBuf} {validtags : List UInt32}

theorem TlvBuf.Kept.append (kept : tlv.Kept validtags) (tag len : UInt32)
    (val : Option (Nat → UInt8)) : (tlv.append tag len val).2.Kept validtags := by
  rw [TlvBuf.append]
  split
  · exact kept
  case h_2 after appended =>
    cases val with
    | none => simp [appendMap] at appended
    | some byte =>
      obtain ⟨fits, -, rfl⟩ := appendMap_eq_some_iff.mp appended
      refine ⟨?_, kept.validTags⟩
      intro entry mem
      rcases mem_insert mem with rfl | old
      · rw [Admitted, length_map, length_range]
        exact fits
      · exact kept.admitted _ old

theorem TlvBuf.kept_built (validtags : List UInt32) (calls : List Call) :
    (built validtags calls).Kept validtags := by
  have start : (TlvBuf.new validtags).Kept validtags := by
    constructor
    · exact fun _ mem => nomatch mem
    · rfl
  rw [built]
  generalize TlvBuf.new validtags = tlv at start
  induction calls generalizing tlv with
  | nil => exact start
  | cons call calls ih => exact ih _ (start.append ..)

theorem TlvBuf.Kept.wellFormed (kept : tlv.Kept validtags) : WellFormed [] tlv.mTlvMap.entries := by
  refine ⟨kept.admitted, ?_, fun _ _ => not_mem_nil⟩
  refine pairwise_map.mpr (tlv.mTlvMap.sorted.imp ?_)
  intro first second below same
  rw [same] at below
  exact UInt32.lt_irrefl _ (of_decide_eq_true below)

/-- The bytes of a map are read as this map. -/
theorem TlvBuf.Kept.ofBuf_encode (kept : tlv.Kept validtags) :
    ofBuf (encode tlv.mTlvMap.entries) validtags = tlv := by
  have same : tlv.mTlvMap.entries.foldl insert .empty = tlv.mTlvMap := by
    apply ext
    refine (foldl_insert tlv.mTlvMap Prod.snd).trans ?_
    exact map_id _
  have read : readFrom (encode tlv.mTlvMap.entries).length (encode tlv.mTlvMap.entries) .empty =
      some tlv.mTlvMap := by
    apply (readFrom_eq_some_iff (le_refl _)).mpr
    exact ⟨tlv.mTlvMap.entries, kept.wellFormed, rfl, same.symm⟩
  rw [ofBuf, read, Option.getD_some, ← kept.validTags]

/-! ### The format -/

/-- A buffer of `GetBufSize` bytes takes the map and gives it back, unless the entries have 4 GB or
more together, or the buffer is too large for `memcpy_s`. -/
theorem roundTrips_iff (kept : tlv.Kept validtags) (memMax : Nat) {dst : Bytes}
    (sized : dst.length = tlv.getBufSize.toNat) : RoundTrips memMax validtags tlv dst ↔
    (encode tlv.mTlvMap.entries).length < 2 ^ 32 ∧ (tlv.mTlvMap.entries = [] ∨
    (encode tlv.mTlvMap.entries).length ≤ tlvHeadSize + memMax) := by
  have size := tlv.toNat_getBufSize
  have copy : tlv.copyToBuf memMax (some dst) = copyFrom memMax dst [] tlv.mTlvMap.entries := by
    rw [TlvBuf.copyToBuf, if_neg (by omega)]
  rw [RoundTrips, copy]
  constructor
  · rintro ⟨_, copied, -⟩
    obtain ⟨_, accepted⟩ := copyFrom_bounds (zero_le _) copied
    refine ⟨by omega, accepted.imp_right fun bound => by omega⟩
  · rintro ⟨_, accepted⟩
    have exact_size : dst.length = (encode tlv.mTlvMap.entries).length := by omega
    have copied : copyFrom memMax dst [] tlv.mTlvMap.entries =
        .copied (encode tlv.mTlvMap.entries) := by
      rw [copyFrom_eq kept.admitted]
      · simp [exact_size]
      · rw [length_nil]
        omega
      · refine accepted.imp_right fun bound => ?_
        rw [length_nil]
        omega
    exact ⟨_, copied, kept.ofBuf_encode⟩

/-- What is read from any bytes. -/
theorem ofBuf_cases (tlvs : Bytes) (validtags : List UInt32) :
    (∃ entries, WellFormed [] entries ∧ tlvs = encode entries ∧
    (TlvBuf.ofBuf tlvs validtags).mTlvMap.entries.Perm entries) ∨
    (¬ ∃ entries, WellFormed [] entries ∧ tlvs = encode entries) ∧
    (TlvBuf.ofBuf tlvs validtags).mTlvMap.entries = [] := by
  have accepted (after : TlvMap) : readFrom tlvs.length tlvs .empty = some after ↔ _ :=
    readFrom_eq_some_iff (le_refl _)
  rw [TlvBuf.ofBuf]
  cases read : readFrom tlvs.length tlvs .empty with
  | some after =>
    obtain ⟨entries, wellFormed, row, rfl⟩ := (accepted after).mp read
    exact .inl ⟨_, wellFormed, row, perm_foldl_insert wellFormed⟩
  | none =>
    refine .inr ⟨?_, rfl⟩
    rintro ⟨entries, wellFormed, row⟩
    have taken := (accepted _).mpr ⟨_, wellFormed, row, rfl⟩
    rw [read] at taken
    cases taken

/-- The format, in both directions. A map built by `Append` comes back from a buffer of `GetBufSize`
bytes just when its entries are within what 32 bits count and `memcpy_s` takes; any bytes are a row
of complete entries with distinct tags, which is read as these entries, or they are not and the map
is empty. -/
theorem tlv_format (memMax : Nat) (validtags : List UInt32) :
    (∀ (calls : List Call) (dst : Bytes),
      dst.length = (TlvBuf.built validtags calls).getBufSize.toNat →
      (RoundTrips memMax validtags (TlvBuf.built validtags calls) dst ↔
        (encode (TlvBuf.built validtags calls).mTlvMap.entries).length < 2 ^ 32 ∧
          ((TlvBuf.built validtags calls).mTlvMap.entries = [] ∨
            (encode (TlvBuf.built validtags calls).mTlvMap.entries).length ≤
              tlvHeadSize + memMax))) ∧
      ∀ tlvs : Bytes,
        (∃ entries, WellFormed [] entries ∧ tlvs = encode entries ∧
          (TlvBuf.ofBuf tlvs validtags).mTlvMap.entries.Perm entries) ∨
        (¬ ∃ entries, WellFormed [] entries ∧ tlvs = encode entries) ∧
          (TlvBuf.ofBuf tlvs validtags).mTlvMap.entries = [] := by
  constructor
  · intro calls dst sized
    exact roundTrips_iff (TlvBuf.kept_built _ _) _ sized
  · exact fun tlvs => ofBuf_cases _ _

/-- One value of one byte, in a buffer of nine. -/
theorem tlv_format_one :
    RoundTrips 0x7fffffff [] (TlvBuf.built [] [(5, 1, some fun _ => 7)]) (List.replicate 9 0) := by
  apply ((tlv_format 0x7fffffff []).1 [(5, 1, some fun _ => 7)] (List.replicate 9 0) rfl).mpr
  exact ⟨by decide, .inr (by decide)⟩

/-- A map read from any bytes, not just from what `CopyToBuf` writes, comes back from a buffer of
`GetBufSize` bytes, as long as `memcpy_s` takes as many. -/
theorem roundTrips_ofBuf (memMax : Nat) (validtags : List UInt32) {tlvs : Bytes}
    (size : tlvs.length < 2 ^ 32) (accepted : tlvs.length ≤ tlvHeadSize + memMax) {dst : Bytes}
    (sized : dst.length = (TlvBuf.ofBuf tlvs validtags).getBufSize.toNat) :
    RoundTrips memMax validtags (TlvBuf.ofBuf tlvs validtags) dst := by
  obtain ⟨kept, bound⟩ : (TlvBuf.ofBuf tlvs validtags).Kept validtags ∧
      (encode (TlvBuf.ofBuf tlvs validtags).mTlvMap.entries).length ≤ tlvs.length := by
    rcases ofBuf_cases tlvs validtags with ⟨entries, wellFormed, row, same⟩ | ⟨-, empty⟩
    · refine ⟨⟨fun entry mem => wellFormed.admitted entry (same.mem_iff.mp mem), rfl⟩, ?_⟩
      exact row ▸ (same.flatMap_right encodeEntry).length_eq.le
    · exact ⟨⟨by simp [empty], rfl⟩, by simp [empty]⟩
  exact (roundTrips_iff kept memMax sized).mpr ⟨bound.trans_lt size, .inr (bound.trans accepted)⟩

/-- Two values in the wrong order. -/
theorem roundTrips_ofBuf_unsorted :
    RoundTrips 0x7fffffff [] (TlvBuf.ofBuf (encode [(5, [7]), (3, [8])]) []) (List.replicate 18 0) :=
  roundTrips_ofBuf _ _ (by decide) (by decide) (by decide)

/-- Values of one length under the tags from 0 on. -/
def rowOfCalls (count : Nat) (len : UInt32) : List Call :=
  (List.range count).map fun tag => (UInt32.ofNat tag, len, some fun _ => 0)

theorem rowOfCalls_succ (count : Nat) (len : UInt32) :
    rowOfCalls (count + 1) len =
    rowOfCalls count len ++ [(UInt32.ofNat count, len, some fun _ => 0)] := by
  rw [rowOfCalls, range_succ, map_append]
  rfl

theorem TlvBuf.built_append (validtags : List UInt32) (calls : List Call) (call : Call) :
    built validtags (calls ++ [call]) =
    ((built validtags calls).append call.1 call.2.1 call.2.2).2 := by
  rw [built, foldl_append]
  rfl

theorem entries_rowOfCalls {len : UInt32} (fits : 0 < len.toNat ∧ len.toNat ≤ tlvValueMaxLen)
    (validtags : List UInt32) {count : Nat} (few : count ≤ 2 ^ 32) :
    (TlvBuf.built validtags (rowOfCalls count len)).mTlvMap.entries =
      (List.range count).map fun tag =>
        (UInt32.ofNat tag, (List.range len.toNat).map fun _ => 0) := by
  induction count with
  | zero => rfl
  | succ count ih =>
    have sofar := ih (by omega)
    have below : ∀ entry ∈ (TlvBuf.built validtags (rowOfCalls count len)).mTlvMap.entries,
        entry.1 < UInt32.ofNat count := by
      intro entry mem
      rw [sofar] at mem
      obtain ⟨tag, inRange, rfl⟩ := mem_map.mp mem
      have lower := mem_range.mp inRange
      rw [UInt32.lt_iff_toNat_lt, UInt32.toNat_ofNat_of_lt' (by rw [UInt32.size]; omega),
        UInt32.toNat_ofNat_of_lt' (by rw [UInt32.size]; omega)]
      exact lower
    have absent : UInt32.ofNat count ∉
        (TlvBuf.built validtags (rowOfCalls count len)).mTlvMap.entries.map (·.1) := by
      intro present
      obtain ⟨entry, mem, same⟩ := mem_map.mp present
      have lower := below _ mem
      rw [same] at lower
      exact UInt32.lt_irrefl _ lower
    have appended : appendMap (TlvBuf.built validtags (rowOfCalls count len)).mTlvMap
        (UInt32.ofNat count) len (some fun _ => 0) = some _ :=
      appendMap_eq_some_iff.mpr ⟨fits, absent, rfl⟩
    have grown : (TlvBuf.built validtags (rowOfCalls (count + 1) len)).mTlvMap =
        (TlvBuf.built validtags (rowOfCalls count len)).mTlvMap.insert
          (UInt32.ofNat count, (List.range len.toNat).map fun _ => 0) := by
      rw [rowOfCalls_succ, TlvBuf.built_append, TlvBuf.append, appended]
    rw [grown, insert_last, sofar, range_succ, map_append,
      map_singleton]
    exact fun entry mem => decide_eq_true (below _ mem)

/-- 256 values of 16 M bytes, the largest that `Append` takes: 4 GB and 2048 bytes. A buffer of
`GetBufSize` bytes has room for the heads only. -/
theorem largestValues_notCopied :
    (TlvBuf.built [] (rowOfCalls 256 16777216)).getBufSize = 2048 ∧
      ¬ RoundTrips 0x7fffffff [] (TlvBuf.built [] (rowOfCalls 256 16777216))
        (List.replicate 2048 0) := by
  have total : (encode (TlvBuf.built [] (rowOfCalls 256 16777216)).mTlvMap.entries).length =
      256 * (8 + 16777216) := by
    rw [entries_rowOfCalls ⟨by decide, by decide⟩ [] (by decide), length_encode_of_forall]
    · rw [length_map, length_range]
      rfl
    · intro entry mem
      obtain ⟨_, -, rfl⟩ := mem_map.mp mem
      rw [length_map, length_range]
      rfl
  have size : (TlvBuf.built [] (rowOfCalls 256 16777216)).getBufSize = 2048 := by
    apply UInt32.toNat_inj.mp
    rw [TlvBuf.toNat_getBufSize, total]
    decide
  refine ⟨size, ?_⟩
  rw [roundTrips_iff (TlvBuf.kept_built ..) _ (by rw [size, length_replicate]; rfl), total]
  exact fun fits => absurd fits.1 (by decide)

end Hdc.Tlv
