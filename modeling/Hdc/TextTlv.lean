import Hdc.Base

/-!
The tagged values of a handshake (`TlvAppend` and `TlvToStringMap`).

`TlvAppend` writes a tag and the length of its value in two fields of sixteen bytes, padded with
blanks, and then the value. `TlvToStringMap` reads such entries off the front of a text for as long
as 32 bytes are left. It takes the blanks out of both fields wherever they stand, reads the length
with `atoi`, returns true whatever follows the last entry, and assigns each entry to the caller's map
when it reads it, so that they stay there if a later one is refused.

* `exists_split`: every text is a row of entries that can be read, and a rest that holds none;
* `roundTrips_iff`: which maps come back from their own text;
* `refused_iff`: when a text is refused with the caller's map as it was.
-/

namespace Hdc.TextTlv

open Base List

/-- The text of a map: its entries one after the other. -/
def encode (tlvmap : List (Bytes × Bytes)) : Bytes :=
  tlvmap.foldl (fun tlv entry => tlvAppend tlv entry.1 entry.2) []

/-- A tag that fits its field and does not begin or end with a blank. -/
def IsTag (tag : Bytes) : Prop :=
  0 < tag.length ∧ tag.length ≤ tlvTagLen ∧ tag.head? ≠ some 32 ∧ tag.getLast? ≠ some 32

instance (tag : Bytes) : Decidable (IsTag tag) := by
  unfold IsTag
  infer_instance

/-- A map from tags to values, as the list of its entries. -/
structure IsMap (tlvmap : List (Bytes × Bytes)) : Prop where
  tags : ∀ entry ∈ tlvmap, IsTag entry.1
  distinct : (tlvmap.map (·.1)).Nodup

/-- The texts of the maps. -/
def Concatenation (tlv : Bytes) : Prop := ∃ tlvmap, IsMap tlvmap ∧ tlv = encode tlvmap

/-- The text of a map is read as this map. -/
def RoundTrips (tlvmap : List (Bytes × Bytes)) : Prop :=
  (tlvToStringMap (encode tlvmap) []).1 = true ∧
    ∀ tag, (tlvToStringMap (encode tlvmap) []).2.lookup tag = tlvmap.lookup tag

/-- A text is refused, and the caller's map is as it was. -/
def Refused (tlv : Bytes) (tlvmap : List (Bytes × Bytes)) : Prop :=
  (tlvToStringMap tlv tlvmap).1 = false ∧
    ∀ tag, (tlvToStringMap tlv tlvmap).2.lookup tag = tlvmap.lookup tag

/-! ### Entries -/

/-- An entry as it stands in a text. -/
structure Entry where
  tag : Bytes
  len : Bytes
  value : Bytes
deriving DecidableEq, Repr

namespace Entry

def bytes (entry : Entry) : Bytes := entry.tag ++ entry.len ++ entry.value

/-- What is assigned to the map. -/
def pair (entry : Entry) : Bytes × Bytes := (trimBlanks entry.tag, entry.value)

/-- The fields are complete, and the second one gives the length of the value. -/
structure Readable (entry : Entry) : Prop where
  tag : entry.tag.length = tlvTagLen
  len : entry.len.length = tlvValLen
  value : atoi (trimBlanks entry.len) = entry.value.length

/-- The entry that `TlvAppend` writes. -/
def ofPair (pair : Bytes × Bytes) : Entry :=
  ⟨padTo tlvTagLen pair.1, padTo tlvValLen (decimal pair.2.length), pair.2⟩

end Entry

/-- No entry can be read off the front: there is no header, or its length is negative or beyond the
end. -/
def Stuck (tail : Bytes) : Prop :=
  tail.length < tlvMinLen ∨
    atoi (trimBlanks ((tail.drop tlvTagLen).take tlvValLen)) < 0 ∨
    ((tail.drop tlvMinLen).length : Int) < atoi (trimBlanks ((tail.drop tlvTagLen).take tlvValLen))

/-- A text as a row of entries, and a rest. -/
structure Split (tlv : Bytes) (entries : List Entry) (tail : Bytes) : Prop where
  text : tlv = entries.flatMap Entry.bytes ++ tail
  readable : ∀ entry ∈ entries, entry.Readable
  stuck : Stuck tail

theorem Entry.Readable.length_bytes {entry : Entry} (readable : entry.Readable) :
    entry.bytes.length = tlvMinLen + entry.value.length := by
  rw [Entry.bytes, length_append, length_append, readable.tag, readable.len, tlvMinLen]

/-! ### Reading -/

variable {tail : Bytes}

theorem tlvLoop_stuck (stuck : Stuck tail) {turns : Nat}
    (enough : tail.length ≤ turns) (tlvmap : List (Bytes × Bytes)) :
    tlvLoop turns tail tlvmap = (decide (tail.length < tlvMinLen), tlvmap) := by
  cases turns with
  | zero =>
    obtain rfl := eq_nil_of_length_eq_zero (Nat.le_zero.mp enough)
    rfl
  | succ turns =>
    rw [tlvLoop]
    by_cases short : tail.length < tlvMinLen
    · rw [if_pos short, decide_eq_true short]
    · rw [if_neg short, decide_eq_false short]
      rcases stuck.resolve_left short with negative | beyond
      · rw [if_pos negative]
      · dsimp only
        split
        · rfl
        · rw [if_pos (by omega)]

/-- One turn of the loop on a readable entry. -/
theorem tlvLoop_entry {entry : Entry} (readable : entry.Readable) (turns : Nat) (rest : Bytes)
    (tlvmap : List (Bytes × Bytes)) :
    tlvLoop (turns + 1) (entry.bytes ++ rest) tlvmap =
    tlvLoop turns rest (entry.pair :: tlvmap) := by
  have split : entry.bytes ++ rest = entry.tag ++ (entry.len ++ (entry.value ++ rest)) := by
    simp [Entry.bytes]
  have long : ¬ (entry.bytes ++ rest).length < tlvMinLen := by
    rw [length_append, readable.length_bytes]
    omega
  have tag : (entry.bytes ++ rest).take tlvTagLen = entry.tag := by
    rw [split, take_left' readable.tag]
  have afterTag : (entry.bytes ++ rest).drop tlvTagLen = entry.len ++ (entry.value ++ rest) := by
    rw [split, drop_left' readable.tag]
  have afterHeader : (entry.bytes ++ rest).drop tlvMinLen = entry.value ++ rest := by
    rw [tlvMinLen, ← drop_drop, afterTag, drop_left' readable.len]
  have len : atoi (trimBlanks ((entry.len ++ (entry.value ++ rest)).take tlvValLen)) =
      entry.value.length := by
    rw [take_left' readable.len, readable.value]
  rw [tlvLoop, if_neg long]
  simp only [tag, afterTag, afterHeader, len, Int.toNat_natCast, take_left, drop_left]
  rw [if_neg (by omega), if_neg (by rw [length_append]; omega)]
  rfl

theorem tlvLoop_split {entries : List Entry} (readable : ∀ entry ∈ entries, entry.Readable)
    (stuck : Stuck tail) {turns : Nat}
    (enough : (entries.flatMap Entry.bytes ++ tail).length ≤ turns)
    (tlvmap : List (Bytes × Bytes)) :
    tlvLoop turns (entries.flatMap Entry.bytes ++ tail) tlvmap =
    (decide (tail.length < tlvMinLen), (entries.map Entry.pair).reverse ++ tlvmap) := by
  induction entries generalizing turns tlvmap with
  | nil => exact tlvLoop_stuck stuck enough _
  | cons entry entries ih =>
    have first := readable _ mem_cons_self
    have header : 0 < tlvMinLen := by decide
    rw [flatMap_cons, append_assoc] at enough ⊢
    rw [length_append, first.length_bytes] at enough
    obtain ⟨_, rfl⟩ := Nat.exists_eq_add_of_lt (show 0 < turns by omega)
    rw [Nat.zero_add, tlvLoop_entry first,
      ih (fun other mem => readable other (mem_cons_of_mem _ mem)) (by omega)]
    simp

/-- What comes out: true unless a header stands behind the entries, or nothing stands before a short
rest, and the entries before those of the caller. -/
theorem tlvToStringMap_of_split {tlv : Bytes} {entries : List Entry}
    (split : Split tlv entries tail) (tlvmap : List (Bytes × Bytes)) :
    tlvToStringMap tlv tlvmap = (decide (entries ≠ [] ∧ tail.length < tlvMinLen),
    (entries.map Entry.pair).reverse ++ tlvmap) := by
  obtain ⟨rfl, readable, stuck⟩ := split
  rw [tlvToStringMap]
  cases entries with
  | nil =>
    simp only [flatMap_nil, nil_append]
    split
    · simp
    case isFalse long =>
      rw [tlvLoop_stuck stuck (Nat.le_refl _), decide_eq_false long]
      simp
  | cons entry rest =>
    have first := (readable _ mem_cons_self).length_bytes
    rw [if_neg, tlvLoop_split readable stuck (Nat.le_refl _)]
    · simp
    · rw [flatMap_cons, append_assoc, length_append]
      omega

theorem readable_front {tlv : Bytes} (free : ¬ Stuck tlv) :
    ∃ (entry : Entry) (rest : Bytes), entry.Readable ∧ tlv = entry.bytes ++ rest := by
  rw [Stuck, not_or, not_or] at free
  obtain ⟨long, _, within⟩ := free
  generalize lenEq : atoi (trimBlanks ((tlv.drop tlvTagLen).take tlvValLen)) = len
  rw [tlvMinLen] at long within
  have room : len.toNat ≤ (tlv.drop (tlvTagLen + tlvValLen)).length := by omega
  refine ⟨⟨tlv.take tlvTagLen, (tlv.drop tlvTagLen).take tlvValLen,
    (tlv.drop (tlvTagLen + tlvValLen)).take len.toNat⟩,
    (tlv.drop (tlvTagLen + tlvValLen)).drop len.toNat, ⟨?_, ?_, ?_⟩, ?_⟩
  · exact length_take_of_le (by omega)
  · exact length_take_of_le (by rw [length_drop]; omega)
  · rw [lenEq, length_take_of_le room, Int.toNat_of_nonneg (by omega)]
  · rw [Entry.bytes, append_assoc, take_append_drop, ← drop_drop,
      append_assoc, take_append_drop, take_append_drop]

/-- Every text can be split. -/
theorem exists_split (tlv : Bytes) : ∃ entries tail, Split tlv entries tail := by
  induction size : tlv.length using Nat.strong_induction_on generalizing tlv with
  | _ length ih =>
    by_cases stuck : Stuck tlv
    · exact ⟨[], _, rfl, forall_mem_nil _, stuck⟩
    · obtain ⟨entry, rest, readable, rfl⟩ := readable_front stuck
      have header : 0 < tlvMinLen := by decide
      rw [length_append, readable.length_bytes] at size
      obtain ⟨entries, tail, split⟩ := ih rest.length (by omega) rest rfl
      refine ⟨entry :: entries, _, ?_, ?_, split.stuck⟩
      · rw [flatMap_cons, append_assoc, ← split.text]
      · exact forall_mem_cons.mpr ⟨readable, split.readable⟩

/-! ### Writing -/

theorem trimBlanks_padTo (width : Nat) (text : Bytes) :
    trimBlanks (padTo width text) = trimBlanks text := by
  have blanks : (List.replicate (width - text.length) (32 : UInt8)).filter (· ≠ 32) = [] := by simp
  rw [padTo, trimBlanks, trimBlanks, filter_append, blanks, append_nil]

theorem trimBlanks_eq_self {text : Bytes} (none_inside : 32 ∉ text) : trimBlanks text = text := by
  apply filter_eq_self.mpr
  intro byte mem
  apply decide_eq_true
  rintro rfl
  exact none_inside mem

theorem blank_not_mem_trimBlanks (text : Bytes) : 32 ∉ trimBlanks text := by
  intro mem
  simpa using (mem_filter.mp mem).2

theorem length_padTo {width : Nat} {text : Bytes} (fits : text.length ≤ width) :
    (padTo width text).length = width := by
  rw [padTo, length_append, length_replicate]
  omega

variable {tlvmap : List (Bytes × Bytes)}

theorem foldl_tlvAppend (tags : ∀ entry ∈ tlvmap, IsTag entry.1) (tlv : Bytes) :
    tlvmap.foldl (fun tlv entry => tlvAppend tlv entry.1 entry.2) tlv =
    tlv ++ (tlvmap.map Entry.ofPair).flatMap Entry.bytes := by
  induction tlvmap generalizing tlv with
  | nil => simp
  | cons entry rest ih =>
    have some_tag : entry.1 ≠ [] := ne_nil_of_length_pos (tags entry mem_cons_self).1
    rw [foldl_cons, ih fun other mem => tags other (mem_cons_of_mem _ mem), tlvAppend,
      if_neg some_tag]
    simp [Entry.ofPair, Entry.bytes]

/-- The text of a map, as a row of entries. -/
theorem encode_eq (tags : ∀ entry ∈ tlvmap, IsTag entry.1) :
    encode tlvmap = (tlvmap.map Entry.ofPair).flatMap Entry.bytes := by
  rw [encode, foldl_tlvAppend tags, nil_append]

variable {entry : Bytes × Bytes}

theorem encode_cons {rest : List (Bytes × Bytes)} (tags : ∀ other ∈ entry :: rest, IsTag other.1) :
    encode (entry :: rest) = padTo tlvTagLen entry.1 ++
    (padTo tlvValLen (decimal entry.2.length) ++ (entry.2 ++ encode rest)) := by
  rw [encode_eq tags, encode_eq fun other mem => tags other (mem_cons_of_mem _ mem)]
  simp [Entry.ofPair, Entry.bytes]

theorem decimalLength_le {n : Nat} (small : n < 2 ^ 31) : decimalLength n ≤ tlvValLen := by
  have digits : Nat.log 10 n < 16 := Nat.log_lt_of_lt_pow' (by decide) (by omega)
  exact digits

theorem readable_ofPair (tag : IsTag entry.1) (short : entry.2.length < 2 ^ 31) :
    (Entry.ofPair entry).Readable where
  tag := length_padTo tag.2.1
  len := length_padTo (by rw [length_decimal]; exact decimalLength_le short)
  value := by
    have noBlank : 32 ∉ decimal entry.2.length := by
      intro mem
      exact absurd (digit_of_mem_decimal mem).1 (by decide)
    rw [Entry.ofPair, trimBlanks_padTo, trimBlanks_eq_self noBlank, atoi_decimal short]

theorem pair_ofPair (none_inside : 32 ∉ entry.1) : (Entry.ofPair entry).pair = entry := by
  rw [Entry.ofPair, Entry.pair, trimBlanks_padTo, trimBlanks_eq_self none_inside]

/-! ### Maps -/

variable {entries : List (Bytes × Bytes)}

theorem lookup_eq_some_iff_mem (distinct : (entries.map (·.1)).Nodup) {tag value : Bytes} :
    entries.lookup tag = some value ↔ (tag, value) ∈ entries := by
  rw [lookup_eq_some_iff]
  constructor
  · rintro ⟨before, after, rfl, -⟩
    exact mem_append_right _ mem_cons_self
  · intro mem
    obtain ⟨before, after, rfl⟩ := append_of_mem mem
    refine ⟨before, after, rfl, ?_⟩
    intro other otherMem
    rw [map_append] at distinct
    have apart := disjoint_of_nodup_append distinct (mem_map_of_mem otherMem)
    rw [bne_iff_ne]
    rintro rfl
    exact apart mem_cons_self

theorem mem_of_lookup {tag value : Bytes} (found : entries.lookup tag = some value) :
    (tag, value) ∈ entries := by
  obtain ⟨_, _, rfl, -⟩ := lookup_eq_some_iff.mp found
  exact mem_append_right _ mem_cons_self

theorem lookup_reverse (distinct : (entries.map (·.1)).Nodup) (tag : Bytes) :
    entries.reverse.lookup tag = entries.lookup tag := by
  have reversed : (entries.reverse.map (·.1)).Nodup := by
    rw [map_reverse, nodup_reverse]
    exact distinct
  apply Option.ext
  intro value
  rw [lookup_eq_some_iff_mem reversed, lookup_eq_some_iff_mem distinct, mem_reverse]

/-! ### The format -/

/-- A map comes back unless it is empty, a tag has a blank inside, or a value has 2 GB or more. -/
theorem roundTrips_iff (isMap : IsMap tlvmap) : RoundTrips tlvmap ↔
    tlvmap ≠ [] ∧ ∀ entry ∈ tlvmap, 32 ∉ entry.1 ∧ entry.2.length < 2 ^ 31 := by
  constructor
  · rintro ⟨ok, same⟩
    refine ⟨?_, ?_⟩
    · rintro rfl
      cases ok
    · intro entry mem
      -- No entry that is read has a blank in its tag or so long a value.
      obtain ⟨_, _, split⟩ := exists_split (encode tlvmap)
      have found := (lookup_eq_some_iff_mem isMap.distinct).mpr mem
      rw [← same entry.1, tlvToStringMap_of_split split, append_nil] at found
      have read := mem_of_lookup found
      rw [mem_reverse] at read
      obtain ⟨source, sourceMem, sourceEq⟩ := mem_map.mp read
      obtain ⟨tagEq, valueEq⟩ := Prod.mk.inj sourceEq
      have number := (split.readable source sourceMem).value
      have bound := atoi_lt_intMax (trimBlanks source.len)
      rw [← tagEq, ← valueEq]
      exact ⟨blank_not_mem_trimBlanks _, by omega⟩
  · rintro ⟨nonempty, fine⟩
    have split : Split (encode tlvmap) (tlvmap.map Entry.ofPair) [] := by
      refine ⟨?_, ?_, .inl (by decide)⟩
      · rw [encode_eq isMap.tags, append_nil]
      · rw [forall_mem_map]
        exact fun entry mem => readable_ofPair (isMap.tags _ mem) (fine _ mem).2
    have pairs : (tlvmap.map Entry.ofPair).map Entry.pair = tlvmap := by
      rw [map_map]
      refine (map_congr_left fun entry mem => ?_).trans (map_id _)
      exact pair_ofPair (fine _ mem).1
    rw [RoundTrips, tlvToStringMap_of_split split, pairs, append_nil]
    refine ⟨?_, lookup_reverse isMap.distinct⟩
    simp [nonempty, tlvMinLen, tlvTagLen]

/-- The caller has all that is read already. -/
def Known (entries : List Entry) (tlvmap : List (Bytes × Bytes)) : Prop :=
  ∀ tag value, (entries.map Entry.pair).reverse.lookup tag = some value →
    tlvmap.lookup tag = some value

/-- A text is refused without a trace where no entry can be read from it; or where a header stands
behind the entries, and the caller has these already. -/
theorem refused_iff {tlv : Bytes} {entries : List Entry} (split : Split tlv entries tail)
    (tlvmap : List (Bytes × Bytes)) :
    Refused tlv tlvmap ↔ entries = [] ∨ tlvMinLen ≤ tail.length ∧ Known entries tlvmap := by
  rw [Refused, tlvToStringMap_of_split split]
  have known : (∀ tag, ((entries.map Entry.pair).reverse ++ tlvmap).lookup tag =
      tlvmap.lookup tag) ↔ Known entries tlvmap := by
    refine forall_congr' fun tag => ?_
    rw [lookup_append]
    cases (entries.map Entry.pair).reverse.lookup tag with
    | none => simp
    | some value => simp [eq_comm]
  rw [known]
  by_cases nothing : entries = []
  · subst nothing
    simp [Known]
  · simp [nothing]

/-- The format, in both directions. A map comes back from its text unless it is empty, a tag has a
blank inside, or a value has 2 GB or more. A text that is not the text of a map is refused, with the
caller's map as it was, unless there are entries to be read off its front, and behind them there is
no header or they are not in the caller's map already. -/
theorem textTlv_format (tlv : Bytes) :
    (∀ tlvmap, IsMap tlvmap →
      (RoundTrips tlvmap ↔
        tlvmap ≠ [] ∧ ∀ entry ∈ tlvmap, 32 ∉ entry.1 ∧ entry.2.length < 2 ^ 31)) ∧
    (∃ entries tail, Split tlv entries tail) ∧
      ∀ entries tail, Split tlv entries tail → ∀ tlvmap,
        (¬ Concatenation tlv → Refused tlv tlvmap) ↔
          Concatenation tlv ∨ entries = [] ∨
            tlvMinLen ≤ tail.length ∧ Known entries tlvmap := by
  refine ⟨fun tlvmap isMap => roundTrips_iff isMap, exists_split _, ?_⟩
  intro entries tail split tlvmap
  rw [← refused_iff split]
  exact Classical.or_iff_not_imp_left.symm

/-- What a daemon sends about itself. -/
theorem textTlv_format_authType :
    RoundTrips [(str "authtype", str "1"), (str "supportfeatures", str "encrypt_tcp")] := by
  apply ((textTlv_format []).1 _ ⟨by decide, by decide⟩).mpr
  exact ⟨cons_ne_nil _ _, by decide⟩

theorem le_length_padTo (width : Nat) (text : Bytes) : width ≤ (padTo width text).length := by
  rw [padTo, length_append, length_replicate]
  omega

/-- There is no text of one byte. -/
theorem length_encode_ne_one (tags : ∀ entry ∈ tlvmap, IsTag entry.1) : (encode tlvmap).length ≠ 1 := by
  cases tlvmap with
  | nil => decide
  | cons entry rest =>
    have tag := le_length_padTo tlvTagLen entry.1
    rw [encode_cons tags, length_append]
    rw [tlvTagLen] at tag ⊢
    omega

/-- An entry and one byte more. -/
theorem trailing_not_concatenation : ¬ Concatenation (tlvAppend [] (str "a") [] ++ str "!") := by
  rintro ⟨tlvmap, isMap, text⟩
  cases tlvmap with
  | nil => exact absurd text (by decide)
  | cons entry rest =>
    have behind := congrArg (List.drop tlvTagLen) text
    rw [encode_cons isMap.tags,
      drop_left' (length_padTo (isMap.tags entry mem_cons_self).2.1)] at behind
    have size := congrArg List.length behind
    have field := le_length_padTo tlvValLen (decimal entry.2.length)
    have more := length_encode_ne_one fun other mem =>
      isMap.tags other (mem_cons_of_mem entry mem)
    simp only [length_append] at size
    change 17 = _ at size
    change 16 ≤ _ at field
    -- The value has no byte or one; its length is not written as 0 if it has one.
    by_cases none : entry.2.length = 0
    · have zero : (padTo tlvValLen (decimal entry.2.length)).length = 16 := by
        rw [none]
        decide
      omega
    · have one : entry.2.length = 1 := by omega
      rw [one] at behind
      have head : some (48 : UInt8) = some 49 := congrArg List.head? behind
      cases head

/-- A blank inside a tag is lost; a byte behind the last entry is let pass; and an entry stays in the
caller's map if the next one is refused. -/
theorem blank_lost_and_trailing_accepted :
    (IsMap [(str "a b", [])] ∧ ¬ RoundTrips [(str "a b", [])]) ∧
    (¬ Concatenation (tlvAppend [] (str "a") [] ++ str "!") ∧
      tlvToStringMap (tlvAppend [] (str "a") [] ++ str "!") [] = (true, [(str "a", [])])) ∧
    tlvToStringMap (tlvAppend [] (str "a") [] ++ padTo 16 (str "b") ++ padTo 16 (str "-1")) [] =
      (false, [(str "a", [])]) := by
  have isMap : IsMap [(str "a b", [])] := ⟨by decide, by decide⟩
  refine ⟨⟨isMap, ?_⟩, ⟨trailing_not_concatenation, by decide⟩, by decide⟩
  rw [roundTrips_iff isMap]
  decide

end Hdc.TextTlv
