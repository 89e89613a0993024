import Hdc.DefinePlus
import Mathlib.Data.List.TakeWhile

/-!
Text helpers of `base.cpp`.

* `splitString`: the non-empty pieces between separators;
* `splitCommandToArgs`: the arguments of a command line;
* `tlvAppend`, `tlvToStringMap`: tagged values, each behind a tag and a length in
  decimal, both padded to sixteen bytes.
-/

namespace Hdc.Base

open List

/-- The pieces of `text` behind `piece`, which has been read so far. -/
def splitFrom (sep : UInt8) : Bytes → Bytes → List Bytes
  | piece, [] => if piece = [] then [] else [piece]
  | piece, byte :: text =>
    if byte = sep then
      -- a separator right behind another one ends no piece
      if piece = [] then splitFrom sep [] text else piece :: splitFrom sep [] text
    else
      splitFrom sep (piece ++ [byte]) text

/-- `SplitString` for a separator of one character. -/
def splitString (text : Bytes) (sep : UInt8) : List Bytes := splitFrom sep [] text

/-- The loop of `SplitCommandToArgs`: the arguments so far, and the one that is being
read. Blanks end an argument unless they are quoted, and the quotes are dropped. -/
def splitArgsFrom : Bool → List Bytes → Option Bytes → Bytes → List Bytes
  | _, argv, arg, [] => argv ++ arg.toList
  | true, argv, arg, byte :: text =>
    if byte = 34 then splitArgsFrom false argv arg text
    else splitArgsFrom true argv (some (arg.getD [] ++ [byte])) text
  | false, argv, arg, byte :: text =>
    if byte = 34 then splitArgsFrom true argv (some (arg.getD [])) text
    else if byte = 32 ∨ byte = 9 ∨ byte = 10 ∨ byte = 13 then
      splitArgsFrom false (argv ++ arg.toList) none text
    else splitArgsFrom false argv (some (arg.getD [] ++ [byte])) text

/-- `SplitCommandToArgs` of a `std::string`, which is read up to its first NUL; none
for an empty one. -/
def splitCommandToArgs (text : Bytes) : Option (List Bytes) :=
  match text.takeWhile (· ≠ 0) with
  | [] => none
  | line => some (splitArgsFrom false [] none line)

/-- The arguments are made of the letters of the text. -/
theorem splitArgsFrom_forall {p : UInt8 → Prop} {quoted : Bool} {argv : List Bytes}
    {arg : Option Bytes} {text : Bytes} (done : ∀ out ∈ argv, ∀ byte ∈ out, p byte)
    (sofar : ∀ byte ∈ arg.getD [], p byte) (letters : ∀ byte ∈ text, byte ≠ 34 → p byte) :
    ∀ out ∈ splitArgsFrom quoted argv arg text, ∀ byte ∈ out, p byte := by
  have ended {argv : List Bytes} {arg : Option Bytes} (done : ∀ out ∈ argv, ∀ byte ∈ out, p byte)
      (sofar : ∀ byte ∈ arg.getD [], p byte) : ∀ out ∈ argv ++ arg.toList, ∀ byte ∈ out, p byte := by
    refine forall_mem_append.mpr ⟨done, ?_⟩
    cases arg with
    | none => nofun
    | some arg => simpa using sofar
  induction text generalizing quoted argv arg with
  | nil => cases quoted <;> exact ended done sofar
  | cons byte text ih =>
    obtain ⟨letter, later⟩ := forall_mem_cons.mp letters
    have longer (other : byte ≠ 34) : ∀ old ∈ arg.getD [] ++ [byte], p old :=
      forall_mem_append.mpr ⟨sofar, forall_mem_singleton.mpr (letter other)⟩
    cases quoted with
    | true =>
      rw [splitArgsFrom]
      split
      · exact ih done sofar later
      case isFalse other => exact ih done (longer other) later
    | false =>
      rw [splitArgsFrom]
      split_ifs with quote
      · exact ih done sofar later
      · exact ih (ended done sofar) nofun later
      · exact ih done (longer quote) later

/-- `IsAbsolutePath`. -/
def isAbsolutePath (path : Bytes) : Bool := path.head? = some 47

/-- `isspace`. -/
def isSpace (byte : UInt8) : Bool := byte = 32 || (9 ≤ byte && byte ≤ 13)

/-- `IsDigitString`. -/
def isDigitString (text : Bytes) : Bool := text.all fun byte => 48 ≤ byte && byte ≤ 57

/-- The value of the leading digits. -/
def leadingNat (text : Bytes) : Nat :=
  (text.takeWhile fun byte => 48 ≤ byte && byte ≤ 57).foldl
    (fun value byte => value * 10 + (byte.toNat - 48)) 0

/-- `strtol` in base ten, of a text whose number fits a `long`. -/
def strtol (text : Bytes) : Int :=
  match text.dropWhile isSpace with
  | 45 :: rest => -(leadingNat rest : Int)
  | 43 :: rest => leadingNat rest
  | rest => leadingNat rest

/-- `atoi`, which casts the number to `int`. -/
def atoi (text : Bytes) : Int := (strtol text).bmod (2 ^ 32)

theorem foldl_digits_lt {digits : Bytes} (isDigits : ∀ byte ∈ digits, 48 ≤ byte ∧ byte ≤ 57)
    (value : Nat) : digits.foldl (fun value byte => value * 10 + (byte.toNat - 48)) value <
    (value + 1) * 10 ^ digits.length := by
  induction digits generalizing value with
  | nil => simp
  | cons byte digits ih =>
    have step := ih (fun other mem => isDigits other (mem_cons_of_mem _ mem))
      (value * 10 + (byte.toNat - 48))
    have digit : byte.toNat ≤ 57 := UInt8.le_iff_toNat_le.mp (isDigits byte (mem_cons_self ..)).2
    calc digits.foldl (fun value byte => value * 10 + (byte.toNat - 48))
          (value * 10 + (byte.toNat - 48))
        < (value * 10 + (byte.toNat - 48) + 1) * 10 ^ digits.length := step
      _ ≤ ((value + 1) * 10) * 10 ^ digits.length := Nat.mul_le_mul_right _ (by omega)
      _ = (value + 1) * 10 ^ (digits.length + 1) := by rw [Nat.pow_succ]; ring

variable (text : Bytes)

/-- A number is below the power of ten of its length. -/
theorem leadingNat_lt : leadingNat text < 10 ^ text.length := by
  have isDigits : ∀ byte ∈ text.takeWhile (fun byte => 48 ≤ byte && byte ≤ 57),
      48 ≤ byte ∧ byte ≤ 57 := by
    intro byte mem
    simpa using all_eq_true.mp all_takeWhile byte mem
  have bound := foldl_digits_lt isDigits 0
  rw [Nat.one_mul] at bound
  exact bound.trans_le
    (Nat.pow_le_pow_right (by decide) (takeWhile_sublist _).length_le)

theorem strtol_bounds :
    -10 ^ text.length < strtol text ∧ strtol text < 10 ^ text.length := by
  have skipped : (text.dropWhile isSpace).length ≤ text.length := (dropWhile_sublist _).length_le
  have bound {rest : Bytes} (short : rest.length ≤ text.length) :
      (leadingNat rest : Int) < 10 ^ text.length := by
    exact_mod_cast (leadingNat_lt rest).trans_le (Nat.pow_le_pow_right (by decide) short)
  rw [strtol]
  split
  case h_1 rest same =>
    rw [same, length_cons] at skipped
    have := bound (show rest.length ≤ text.length by omega)
    omega
  case h_2 rest same =>
    rw [same, length_cons] at skipped
    have := bound (show rest.length ≤ text.length by omega)
    omega
  · have := bound skipped
    omega

/-- The cast takes a number to one that is no further from zero. -/
theorem atoi_lt : atoi text < 10 ^ text.length := by
  have bounds := strtol_bounds text
  rw [atoi]
  have cast := Int.bmod_lt (x := strtol text) (show 0 < 2 ^ 32 by decide)
  by_cases fits : -2 ^ 31 ≤ strtol text ∧ strtol text < 2 ^ 31
  · rw [Int.bmod_eq_of_le (by omega) (by omega)]
    exact bounds.2
  · omega

theorem atoi_lt_intMax : atoi text < 2 ^ 31 :=
  Int.bmod_lt (by decide)

theorem toNat_digitChar {digit : Nat} (small : digit < 10) :
    (digitChar digit).toNat = 48 + digit := by
  rw [digitChar, UInt8.toNat_ofNat']
  omega

theorem digit_of_mem_decimal {n : Nat} {byte : UInt8} (mem : byte ∈ decimal n) :
    48 ≤ byte.toNat ∧ byte.toNat ≤ 57 := by
  rw [decimal_eq_map] at mem
  obtain ⟨_, digitMem, rfl⟩ := mem_map.mp mem
  have small := digitList_lt digitMem
  rw [toNat_digitChar small]
  omega

theorem leadingNat_decimal (n : Nat) : leadingNat (decimal n) = n := by
  have digits : (decimal n).takeWhile (fun byte => 48 ≤ byte && byte ≤ 57) = decimal n := by
    apply takeWhile_eq_self_iff.mpr
    intro byte mem
    simp only [Bool.and_eq_true, decide_eq_true_eq]
    exact digit_of_mem_decimal mem
  have spelled := ofDigits_take_digitList n (decimalLength n)
  rw [Nat.sub_self, pow_zero, Nat.div_one, ← length_digitList, take_length,
    Nat.ofDigits_eq_foldr, foldr_reverse] at spelled
  rw [leadingNat, digits, decimal_eq_map, foldl_map]
  refine Eq.trans (foldl_ext _ _ _ ?_) spelled
  intro value digit mem
  rw [toNat_digitChar (digitList_lt mem), Nat.add_sub_cancel_left, Nat.add_comm, Nat.mul_comm]
  rfl

/-- A text of digits has no sign and no space to skip. -/
theorem strtol_of_digits {text : Bytes}
    (digits : ∀ byte ∈ text, 48 ≤ byte.toNat ∧ byte.toNat ≤ 57) :
    strtol text = leadingNat text := by
  have kept : text.dropWhile isSpace = text := by
    cases text with
    | nil => rfl
    | cons byte rest =>
      obtain ⟨low, _⟩ := digits byte mem_cons_self
      have noSpace : isSpace byte = false := by
        rw [isSpace, Bool.or_eq_false_iff, Bool.and_eq_false_iff]
        simp only [decide_eq_false_iff_not]
        refine ⟨?_, .inr ?_⟩
        · exact fun same => absurd (same ▸ low) (by decide)
        · exact fun below => absurd (low.trans below) (by decide)
      rw [dropWhile_cons_of_neg (by rw [noSpace]; exact Bool.false_ne_true)]
  rw [strtol, kept]
  split
  case h_1 => exact absurd (digits 45 mem_cons_self).1 (by decide)
  case h_2 => exact absurd (digits 43 mem_cons_self).1 (by decide)
  case h_3 => rfl

theorem atoi_decimal {n : Nat} (small : n < 2 ^ 31) : atoi (decimal n) = n := by
  rw [atoi, strtol_of_digits fun _ mem => digit_of_mem_decimal mem, leadingNat_decimal]
  exact Int.bmod_eq_of_le (by omega) (by omega)

def tlvTagLen : Nat := 16
def tlvValLen : Nat := 16
def tlvMinLen : Nat := tlvTagLen + tlvValLen

/-- `TrimSubString` with a blank. -/
def trimBlanks (text : Bytes) : Bytes := text.filter (· ≠ 32)

/-- Blanks up to a width. -/
def padTo (width : Nat) (text : Bytes) : Bytes := text ++ List.replicate (width - text.length) 32

/-- `TlvAppend`; nothing is appended for an empty tag. -/
def tlvAppend (tlv tag val : Bytes) : Bytes :=
  if tag = [] then tlv
  else tlv ++ padTo tlvTagLen tag ++ padTo tlvValLen (decimal val.length) ++ val

/-- The loop of `TlvToStringMap`: what it returns, and the caller's map then. The map is a list of
pairs, the latest first. -/
def tlvLoop : Nat → Bytes → List (Bytes × Bytes) → Bool × List (Bytes × Bytes)
  | 0, _, tlvmap => (true, tlvmap)
  | turns + 1, tlv, tlvmap =>
    if tlv.length < tlvMinLen then (true, tlvmap)
    else
      let tag := trimBlanks (tlv.take tlvTagLen)
      let len := atoi (trimBlanks ((tlv.drop tlvTagLen).take tlvValLen))
      let rest := tlv.drop tlvMinLen
      if len < 0 then (false, tlvmap)
      else if rest.length < len.toNat then (false, tlvmap)
      else tlvLoop turns (rest.drop len.toNat) ((tag, rest.take len.toNat) :: tlvmap)

/-- `TlvToStringMap`. -/
def tlvToStringMap (tlv : Bytes) (tlvmap : List (Bytes × Bytes)) : Bool × List (Bytes × Bytes) :=
  if tlv.length < tlvMinLen then (false, tlvmap) else tlvLoop tlv.length tlv tlvmap

example : tlvToStringMap (tlvAppend (tlvAppend [] (str "a") (str "xyz")) (str "b") []) [] =
    (true, [(str "b", []), (str "a", str "xyz")]) := by decide

end Hdc.Base
