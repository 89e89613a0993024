import Mathlib.Data.Nat.Bitwise
import Mathlib.Tactic.Ring

/-!
Integers as bytes: base-128 variable-length integers with a byte budget, and fixed-width integers in
either byte order.

A variable-length value is written low group first, seven bits to a byte; the top bit of a byte says
that another byte follows. Both directions carry a budget of bytes. A value that does not fit in it
is not written; a decoder that runs out of input or budget has consumed input and filled part of its
word.

* `Leb128.decode_encode`: what `encode` writes is read back exactly, modulo the width of the word,
  and the bytes after it are left alone;
* `Leb128.decodeFrom_append`: a successful read does not depend on what follows;
* `Endian.ofLE_toLE`, `Endian.ofBE_toBE`: fixed-width words round trip.
-/

namespace Leb128

open Option Nat

/-- Write `value` in at most `room` bytes, low group first. -/
def encode : Nat → Nat → Option (List UInt8)
  | 0, _ => none
  | room + 1, value =>
    if value / 128 = 0 then
      some [UInt8.ofNat (value % 128)]
    else
      (encode room (value / 128)).map (UInt8.ofNat (value % 128 + 128) :: ·)

/-- The outcome of reading a value: the word as it stands when the reader
stops, whether the last group was seen, and the input that is left. -/
structure Read where
  value : Nat
  ok : Bool
  rest : List UInt8
deriving DecidableEq, Repr

/-- Read at most `room` further bytes, the first of which is group `count`,
into a word of `width` bits that already holds `value`. -/
def decodeFrom (width : Nat) : Nat → Nat → Nat → List UInt8 → Read
  | 0, _, value, input => ⟨value, false, input⟩
  | _ + 1, _, value, [] => ⟨value, false, []⟩
  | room + 1, count, value, byte :: input =>
    let value' := value ||| ((byte.toNat % 128) <<< (7 * count)) % 2 ^ width
    if byte.toNat / 128 = 0 then
      ⟨value', true, input⟩
    else
      decodeFrom width room (count + 1) value' input

/-- Read one value of at most `room` bytes into a word of `width` bits. -/
def decode (width room : Nat) (input : List UInt8) : Read :=
  decodeFrom width room 0 0 input

/-! ### Writing -/

variable {room value : Nat}

/-- Every value below `128 ^ room` is written by a positive budget. -/
theorem encode_total (fits : value < 128 ^ (room + 1)) :
    ∃ bytes, encode (room + 1) value = some bytes := by
  induction room generalizing value with
  | zero =>
    have low : value / 128 = 0 := div_eq_of_lt (by simpa using fits)
    exact ⟨_, by rw [encode, if_pos low]⟩
  | succ room ih =>
    by_cases low : value / 128 = 0
    · exact ⟨_, by rw [encode, if_pos low]⟩
    · have smaller : value / 128 < 128 ^ (room + 1) := by
        rw [div_lt_iff_lt_mul (by decide)]
        rwa [pow_succ] at fits
      obtain ⟨bytes, written⟩ := ih smaller
      exact ⟨_, by rw [encode, if_neg low, written, map_some]⟩

variable {bytes : List UInt8}

/-- A written value takes at least one byte and at most the budget. -/
theorem encode_length
    (written : encode room value = some bytes) : 0 < bytes.length ∧ bytes.length ≤ room := by
  induction room generalizing value bytes with
  | zero => simp [encode] at written
  | succ room ih =>
    rw [encode] at written
    split at written
    · obtain rfl := some.inj written
      simp
    · obtain ⟨_, tailWritten, rfl⟩ := map_eq_some_iff.mp written
      have := ih tailWritten
      simp only [List.length_cons]
      omega

/-- A larger budget writes the same bytes. -/
theorem encode_mono {more : Nat} (written : encode room value = some bytes) (larger : room ≤ more) :
    encode more value = some bytes := by
  induction room generalizing more value bytes with
  | zero => simp [encode] at written
  | succ room ih =>
    obtain ⟨more, rfl⟩ := Nat.exists_eq_add_of_lt larger
    rw [encode] at written ⊢
    split at written
    case isTrue last => rw [if_pos last, written]
    case isFalse others =>
      obtain ⟨_, tailWritten, rfl⟩ := map_eq_some_iff.mp written
      rw [if_neg others, ih tailWritten (Nat.le_add_right _ _), map_some]

/-! ### Reading back -/

private theorem toNat_low {n : Nat} (h : n < 128) : (UInt8.ofNat n).toNat = n := by
  exact mod_eq_of_lt (by omega)

private theorem toNat_cont {n : Nat} (h : n < 128) : (UInt8.ofNat (n + 128)).toNat = n + 128 := by
  exact mod_eq_of_lt (by omega)

/-- A value is its low group with the remaining groups shifted above it. -/
theorem groups_eq_or (value : Nat) : value % 128 ||| (value / 128) <<< 7 = value := by
  have disjoint := Nat.two_pow_add_eq_or_of_lt (i := 7) (Nat.mod_lt value (by decide)) (value / 128)
  rw [Nat.or_comm, Nat.shiftLeft_eq, Nat.mul_comm, ← disjoint]
  exact Nat.div_add_mod _ 128

/-- Adding the low group and then the remaining ones to a word is adding the
value, truncation included. -/
theorem word_groups (width count word value : Nat) :
    (word ||| ((value % 128) <<< (7 * count)) % 2 ^ width) |||
    ((value / 128) <<< (7 * (count + 1))) % 2 ^ width =
    word ||| (value <<< (7 * count)) % 2 ^ width := by
  have split : value <<< (7 * count) =
      (value % 128) <<< (7 * count) ||| (value / 128) <<< (7 * (count + 1)) := by
    conv_lhs => rw [← groups_eq_or value]
    rw [Nat.shiftLeft_or_distrib, ← Nat.shiftLeft_add, Nat.add_comm 7, Nat.mul_succ]
  rw [split, Nat.or_mod_two_pow, Nat.or_assoc]

variable {width : Nat}

section

variable (written : encode room value = some bytes)
include written

theorem decodeFrom_encode (count word : Nat) (tail : List UInt8) :
    decodeFrom width room count word (bytes ++ tail) =
    ⟨word ||| (value <<< (7 * count)) % 2 ^ width, true, tail⟩ := by
  induction room generalizing value bytes count word with
  | zero => simp [encode] at written
  | succ room ih =>
    have small : value % 128 < 128 := mod_lt _ (by decide)
    rw [encode] at written
    split at written
    case isTrue last =>
      obtain rfl := some.inj written
      have whole : value % 128 = value := mod_eq_of_lt (by omega)
      rw [List.singleton_append, decodeFrom, toNat_low small, mod_mod,
        if_pos (div_eq_of_lt small), whole]
    case isFalse more =>
      obtain ⟨_, restWritten, rfl⟩ := map_eq_some_iff.mp written
      have low : (value % 128 + 128) % 128 = value % 128 := by omega
      have high : ¬ (value % 128 + 128) / 128 = 0 := by omega
      rw [List.cons_append, decodeFrom, toNat_cont small, low, if_neg high,
        ih restWritten, word_groups]

/-- Reading back what was written gives the value, cut to the width of the
word, and leaves what follows untouched. -/
theorem decode_encode (tail : List UInt8) :
    decode width room (bytes ++ tail) = ⟨value % 2 ^ width, true, tail⟩ := by
  rw [decode, decodeFrom_encode written]
  simp

/-- What is cut off before its end is not read, whatever the budget. -/
theorem decodeFrom_cut {part : List UInt8} (cut : part <+: bytes) (short : part ≠ bytes)
    (width budget count word : Nat) : (decodeFrom width budget count word part).ok = false := by
  induction room generalizing value bytes part budget count word with
  | zero => simp [encode] at written
  | succ room ih =>
    cases budget with
    | zero => rfl
    | succ budget =>
      cases part with
      | nil => rfl
      | cons byte part =>
        rw [encode] at written
        split at written
        case isTrue =>
          obtain rfl := some.inj written
          obtain ⟨rfl, nothing⟩ := List.cons_prefix_cons.mp cut
          exact absurd (by rw [List.prefix_nil.mp nothing]) short
        case isFalse =>
          obtain ⟨_, restWritten, rfl⟩ := map_eq_some_iff.mp written
          obtain ⟨rfl, shorter⟩ := List.cons_prefix_cons.mp cut
          have high : ¬ (value % 128 + 128) / 128 = 0 := by omega
          rw [decodeFrom, toNat_cont (mod_lt _ (by decide)), if_neg high]
          exact ih restWritten shorter (fun same => short (by rw [same])) ..

end

variable {input : List UInt8}

/-- A successful read does not look at what follows. -/
theorem decodeFrom_append {count word : Nat}
    (ok : (decodeFrom width room count word input).ok = true) (tail : List UInt8) :
    decodeFrom width room count word (input ++ tail) =
    ⟨(decodeFrom width room count word input).value, true,
    (decodeFrom width room count word input).rest ++ tail⟩ := by
  induction room generalizing count word input with
  | zero => simp [decodeFrom] at ok
  | succ room ih =>
    cases input with
    | nil => simp [decodeFrom] at ok
    | cons byte input =>
      rw [List.cons_append]
      rw [decodeFrom] at ok ⊢
      rw [decodeFrom]
      split
      · rfl
      · next more =>
        rw [if_neg more] at ok
        exact ih ok

/-- A read consumes input or stops before it. -/
theorem decodeFrom_rest_length (width room count word : Nat) (input : List UInt8) :
    (decodeFrom width room count word input).rest.length ≤ input.length := by
  induction room generalizing count word input with
  | zero => exact le_refl _
  | succ room ih =>
    cases input with
    | nil => exact le_refl _
    | cons byte input =>
      rw [decodeFrom]
      split
      · simp
      · exact (ih _ _ _).trans (by simp)

/-- A successful read consumes at least one byte. -/
theorem decodeFrom_ok_length {count word : Nat}
    (ok : (decodeFrom width room count word input).ok = true) :
    (decodeFrom width room count word input).rest.length < input.length := by
  cases room with
  | zero => simp [decodeFrom] at ok
  | succ room =>
    cases input with
    | nil => simp [decodeFrom] at ok
    | cons byte input =>
      rw [decodeFrom]
      split
      · simp
      · exact lt_succ_of_le (decodeFrom_rest_length ..)

theorem decode_ok_length (ok : (decode width room input).ok = true) :
    (decode width room input).rest.length < input.length :=
  decodeFrom_ok_length ok

end Leb128

namespace Endian

/-- The low `size` bytes of `value`, least significant first. -/
def toLE : Nat → Nat → List UInt8
  | 0, _ => []
  | size + 1, value => UInt8.ofNat (value % 256) :: toLE size (value / 256)

/-- The word that `bytes` spell, least significant first. -/
def ofLE : List UInt8 → Nat
  | [] => 0
  | byte :: bytes => byte.toNat + 256 * ofLE bytes

/-- The low `size` bytes of `value`, most significant first. -/
def toBE (size value : Nat) : List UInt8 := (toLE size value).reverse

/-- The word that `bytes` spell, most significant first. -/
def ofBE (bytes : List UInt8) : Nat := ofLE bytes.reverse

variable (size value : Nat)

@[simp] theorem length_toLE : (toLE size value).length = size := by
  induction size generalizing value with
  | zero => rfl
  | succ size ih => rw [toLE, List.length_cons, ih]

@[simp] theorem length_toBE : (toBE size value).length = size := by
  rw [toBE, List.length_reverse, length_toLE]

/-- Writing a word in `size` bytes keeps it modulo `256 ^ size`. -/
theorem ofLE_toLE : ofLE (toLE size value) = value % 256 ^ size := by
  induction size generalizing value with
  | zero => rw [pow_zero, Nat.mod_one]; rfl
  | succ size ih =>
    have low : (UInt8.ofNat (value % 256)).toNat = value % 256 := by
      exact Nat.mod_mod _ 256
    rw [toLE, ofLE, low, ih, pow_succ, Nat.mul_comm (256 ^ size) 256, Nat.mod_mul]

theorem ofBE_toBE : ofBE (toBE size value) = value % 256 ^ size := by
  rw [ofBE, toBE, List.reverse_reverse, ofLE_toLE]

/-- The bytes of a word are those it was read from. -/
theorem toLE_ofLE (bytes : List UInt8) : toLE bytes.length (ofLE bytes) = bytes := by
  induction bytes with
  | nil => rfl
  | cons byte bytes ih =>
    have small := byte.toNat_lt
    have low : (byte.toNat + 256 * ofLE bytes) % 256 = byte.toNat := by omega
    have high : (byte.toNat + 256 * ofLE bytes) / 256 = ofLE bytes := by omega
    rw [List.length_cons, ofLE, toLE, low, high, ih, UInt8.ofNat_toNat]

theorem toBE_ofBE (bytes : List UInt8) : toBE bytes.length (ofBE bytes) = bytes := by
  rw [toBE, ofBE, ← List.length_reverse, toLE_ofLE, List.reverse_reverse]

theorem ofLE_lt (bytes : List UInt8) : ofLE bytes < 256 ^ bytes.length := by
  induction bytes with
  | nil => decide
  | cons byte bytes ih =>
    have small := byte.toNat_lt
    rw [List.length_cons, ofLE]
    omega

end Endian
