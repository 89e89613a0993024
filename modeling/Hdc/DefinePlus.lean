import Hdc.Define
import Mathlib.Data.Nat.Digits.Lemmas

/-!
Decimal text and masking (`define_plus.h`).

`MaskString` hides the middle of a text before it is printed. Session ids are
masked by it too, and the masked text is used as part of a key elsewhere, so
what matters here is which texts it identifies.

* `maskSessionIdToString_eq_iff`: two session ids are masked alike exactly when
  they have the same number of digits and agree in the digits that are kept:
  the first and the last up to six digits, the first three and the last three
  beyond.
-/

namespace Hdc

open List Nat

/-! ### Decimal text -/

/-- The character of a decimal digit. -/
def digitChar (digit : Nat) : UInt8 := UInt8.ofNat (48 + digit)

/-- `std::to_string` of an unsigned number. -/
def decimal (n : Nat) : Bytes :=
  if n = 0 then [digitChar 0] else (digits 10 n).reverse.map digitChar

/-- The number of decimal digits. -/
def decimalLength (n : Nat) : Nat := log 10 n + 1

theorem digitChar_inj {a b : Nat} (ha : a < 10) (hb : b < 10) (same : digitChar a = digitChar b) :
    a = b := by
  have := congrArg UInt8.toNat same
  simp only [digitChar, UInt8.toNat_ofNat'] at this
  omega

variable (n : Nat)

@[simp] theorem length_decimal : (decimal n).length = decimalLength n := by
  unfold decimal decimalLength
  split
  case isTrue zero => simp [zero]
  case isFalse nonzero =>
    rw [length_map, length_reverse, Nat.length_digits 10 n (by decide) nonzero]

/-- The digits of a number, most significant first, as the text has them. -/
def digitList (n : Nat) : List Nat := if n = 0 then [0] else (digits 10 n).reverse

theorem decimal_eq_map : decimal n = (digitList n).map digitChar := by
  unfold decimal digitList
  split <;> rfl

theorem digitList_lt {n digit : Nat} (mem : digit ∈ digitList n) : digit < 10 := by
  unfold digitList at mem
  split at mem
  · simp only [mem_singleton] at mem
    omega
  · exact digits_lt_base (by decide) (mem_reverse.mp mem)

@[simp] theorem length_digitList : (digitList n).length = decimalLength n := by
  rw [← length_decimal, decimal_eq_map, length_map]

theorem map_digitChar_inj {as bs : List Nat} (ha : ∀ a ∈ as, a < 10) (hb : ∀ b ∈ bs, b < 10)
    (same : as.map digitChar = bs.map digitChar) : as = bs := by
  induction as generalizing bs with
  | nil => exact (map_eq_nil_iff.mp same.symm).symm
  | cons a as ih =>
    cases bs with
    | nil => simp at same
    | cons b bs =>
      simp only [map_cons, List.cons.injEq] at same
      rw [digitChar_inj (ha a mem_cons_self) (hb b mem_cons_self) same.1,
        ih (fun x hx => ha x (mem_cons_of_mem _ hx))
          (fun x hx => hb x (mem_cons_of_mem _ hx)) same.2]

/-- The last digits of the text spell the remainder. -/
theorem ofDigits_drop_digitList (keep : Nat) :
    Nat.ofDigits 10 ((digitList n).drop (decimalLength n - keep)).reverse = n % 10 ^ keep := by
  by_cases zero : n = 0
  · subst zero
    rcases keep with _ | keep <;> simp [digitList, decimalLength]
  · have len : decimalLength n = (Nat.digits 10 n).length := by
      rw [Nat.length_digits 10 n (by decide) zero, decimalLength]
    rw [digitList, if_neg zero, len, Nat.self_mod_pow_eq_ofDigits_take keep n (by decide),
      drop_reverse, reverse_reverse]
    by_cases long : keep ≤ (Nat.digits 10 n).length
    · rw [Nat.sub_sub_self long]
    · have all : (Nat.digits 10 n).length - keep = 0 := by omega
      rw [all, Nat.sub_zero, take_length, take_of_length_le (by omega)]

/-- The first digits of the text spell the quotient. -/
theorem ofDigits_take_digitList (keep : Nat) :
    ofDigits 10 ((digitList n).take keep).reverse = n / 10 ^ (decimalLength n - keep) := by
  by_cases zero : n = 0
  · subst zero
    rcases keep with _ | keep <;> simp [digitList]
  · have len : decimalLength n = (digits 10 n).length := by
      rw [length_digits 10 n (by decide) zero, decimalLength]
    rw [digitList, if_neg zero, len, self_div_pow_eq_ofDigits_drop _ n (by decide),
      take_reverse, reverse_reverse]

/-- Parts of two texts of the same length are equal exactly when they spell the same number. -/
private theorem map_digitChar_eq_iff {as bs : List Nat} (ha : ∀ a ∈ as, a < 10)
    (hb : ∀ b ∈ bs, b < 10) (len : as.length = bs.length) :
    as.map digitChar = bs.map digitChar ↔ ofDigits 10 as.reverse = ofDigits 10 bs.reverse := by
  constructor
  · intro same
    rw [map_digitChar_inj ha hb same]
  · intro same
    have reversed := ofDigits_inj_of_len_eq (by decide) (by simpa using len)
      (fun x hx => ha x (mem_reverse.mp hx)) (fun x hx => hb x (mem_reverse.mp hx)) same
    rw [reverse_injective reversed]

/-- Texts of the same length start alike exactly when the quotients agree. -/
theorem take_decimal_eq_iff {a b : Nat} (len : decimalLength a = decimalLength b) (keep : Nat) :
    (decimal a).take keep = (decimal b).take keep ↔
    a / 10 ^ (decimalLength a - keep) = b / 10 ^ (decimalLength a - keep) := by
  have bound : ∀ n, ∀ d ∈ (digitList n).take keep, d < 10 := fun n d hd =>
    digitList_lt (mem_of_mem_take hd)
  rw [decimal_eq_map, decimal_eq_map, ← map_take, ← map_take,
    map_digitChar_eq_iff (bound a) (bound b) (by simp [len]), ofDigits_take_digitList,
    ofDigits_take_digitList, len]

/-- Texts of the same length end alike exactly when the remainders agree. -/
theorem drop_decimal_eq_iff {a b : Nat} (len : decimalLength a = decimalLength b) (keep : Nat) :
    (decimal a).drop (decimalLength a - keep) = (decimal b).drop (decimalLength b - keep) ↔
    a % 10 ^ keep = b % 10 ^ keep := by
  have bound : ∀ n, ∀ d ∈ (digitList n).drop (decimalLength n - keep), d < 10 := fun n d hd =>
    digitList_lt (mem_of_mem_drop hd)
  rw [decimal_eq_map, decimal_eq_map, ← map_drop, ← map_drop,
    map_digitChar_eq_iff (bound a) (bound b) (by simp [len]), ofDigits_drop_digitList,
    ofDigits_drop_digitList]

theorem decimal_injective : Function.Injective decimal := by
  intro a b same
  have len : decimalLength a = decimalLength b := by
    rw [← length_decimal, same, length_decimal]
  have start := (take_decimal_eq_iff len (decimalLength a)).mp (by rw [same])
  rwa [Nat.sub_self, pow_zero, Nat.div_one, Nat.div_one] at start

/-! ### Masking -/

/-- `MaskString`: up to six characters the first and the last are kept, around as
many stars as there are characters; beyond that the first three and the last
three, around six stars, with the length behind. -/
def maskString (text : Bytes) : Bytes :=
  if text = [] then
    text
  else if text.length ≤ 6 then
    text.take 1 ++ List.replicate text.length 42 ++ text.drop (text.length - 1)
  else
    text.take 3 ++ List.replicate 6 42 ++ text.drop (text.length - 3) ++
      str "(L:" ++ decimal text.length ++ str ")"

def maskSessionIdToString (sessionId : UInt32) : Bytes := maskString (decimal sessionId.toNat)

/-- Two numbers with the same number of digits that agree in the digits the mask
keeps. -/
def MaskedAlike (a b : Nat) : Prop :=
  decimalLength a = decimalLength b ∧
    if decimalLength a ≤ 6 then
      a / 10 ^ (decimalLength a - 1) = b / 10 ^ (decimalLength a - 1) ∧ a % 10 = b % 10
    else
      a / 10 ^ (decimalLength a - 3) = b / 10 ^ (decimalLength a - 3) ∧ a % 1000 = b % 1000

instance (a b : Nat) : Decidable (MaskedAlike a b) := by
  unfold MaskedAlike
  exact inferInstance

theorem MaskedAlike.refl (a : Nat) : MaskedAlike a a := by
  refine ⟨rfl, ?_⟩
  split <;> exact ⟨rfl, rfl⟩

theorem decimal_ne_nil : decimal n ≠ [] := by
  intro none
  have := length_decimal n
  rw [none] at this
  simp [decimalLength] at this

theorem maskString_short {n : Nat} (short : decimalLength n ≤ 6) :
    maskString (decimal n) = (decimal n).take 1 ++ List.replicate (decimalLength n) 42 ++
    (decimal n).drop (decimalLength n - 1) := by
  rw [maskString, if_neg (decimal_ne_nil n), length_decimal, if_pos short]

theorem maskString_long {n : Nat} (long : ¬ decimalLength n ≤ 6) :
    maskString (decimal n) = (decimal n).take 3 ++ List.replicate 6 42 ++
    (decimal n).drop (decimalLength n - 3) ++ str "(L:" ++ decimal (decimalLength n) ++
    str ")" := by
  rw [maskString, if_neg (decimal_ne_nil n), length_decimal, if_neg long]

theorem length_maskString : (maskString (decimal n)).length =
    if decimalLength n ≤ 6 then decimalLength n + 2
    else 16 + (decimal (decimalLength n)).length := by
  have positive : 0 < decimalLength n := succ_pos _
  split
  case isTrue short =>
    rw [maskString_short short]
    simp only [length_append, length_take, length_replicate, length_drop,
      length_decimal]
    omega
  case isFalse long =>
    rw [maskString_long long]
    simp only [length_append, length_take, length_replicate, length_drop,
      length_decimal]
    have marks : (str "(L:").length = 3 ∧ (str ")").length = 1 := by decide
    omega

private theorem mask_parts {keep : Nat} (a b : Nat) (la : keep ≤ decimalLength a)
    (lb : keep ≤ decimalLength b) {starsA starsB restA restB : Bytes}
    (stars : starsA.length = starsB.length)
    (same : (decimal a).take keep ++ starsA ++ (decimal a).drop (decimalLength a - keep) ++ restA =
    (decimal b).take keep ++ starsB ++ (decimal b).drop (decimalLength b - keep) ++ restB) :
    (decimal a).take keep = (decimal b).take keep ∧
    (decimal a).drop (decimalLength a - keep) = (decimal b).drop (decimalLength b - keep) ∧
    restA = restB := by
  have first : ∀ n, keep ≤ decimalLength n → ((decimal n).take keep).length = keep := by
    intro n hn
    rw [length_take, length_decimal]
    omega
  have last : ∀ n, keep ≤ decimalLength n →
      ((decimal n).drop (decimalLength n - keep)).length = keep := by
    intro n hn
    rw [length_drop, length_decimal]
    omega
  obtain ⟨front, rest⟩ := append_inj same (by
    simp only [length_append, first a la, first b lb, last a la, last b lb, stars])
  obtain ⟨front, drop⟩ := append_inj front (by
    simp only [length_append, first a la, first b lb, stars])
  exact ⟨(append_inj front (by rw [first a la, first b lb])).1, drop, rest⟩

/-- Which numbers the mask identifies. -/
theorem maskString_decimal_eq_iff (a b : Nat) :
    maskString (decimal a) = maskString (decimal b) ↔ MaskedAlike a b := by
  have positive : ∀ n, 1 ≤ decimalLength n := fun n => succ_pos _
  constructor
  · intro same
    have lengths := congrArg List.length same
    rw [length_maskString, length_maskString] at lengths
    by_cases short : decimalLength a ≤ 6
    · -- A short mask has at most eight characters, a long one at least sixteen.
      have shortB : decimalLength b ≤ 6 := by
        by_contra long
        rw [if_pos short, if_neg long] at lengths
        omega
      rw [if_pos short, if_pos shortB] at lengths
      have len : decimalLength a = decimalLength b := by omega
      rw [maskString_short short, maskString_short shortB, ← append_nil (_ ++ _),
        ← append_nil (_ ++ List.drop _ (decimal b))] at same
      obtain ⟨first, last, -⟩ := mask_parts a b (positive a) (positive b)
        (by rw [length_replicate, length_replicate, len]) same
      refine ⟨len, ?_⟩
      rw [if_pos short]
      exact ⟨(take_decimal_eq_iff len 1).mp first, (drop_decimal_eq_iff len 1).mp last⟩
    · have longB : ¬ decimalLength b ≤ 6 := by
        intro shortB
        rw [if_neg short, if_pos shortB] at lengths
        omega
      rw [maskString_long short, maskString_long longB] at same
      simp only [append_assoc _ (str "(L:") _, append_assoc _ _ (str ")")] at same
      obtain ⟨first, last, tail⟩ := mask_parts a b (by omega) (by omega) rfl same
      have len : decimalLength a = decimalLength b := by
        rw [append_cancel_left_eq, append_cancel_right_eq] at tail
        exact decimal_injective tail
      refine ⟨len, ?_⟩
      rw [if_neg short]
      exact ⟨(take_decimal_eq_iff len 3).mp first, (drop_decimal_eq_iff len 3).mp last⟩
  · rintro ⟨len, kept⟩
    by_cases short : decimalLength a ≤ 6
    · rw [if_pos short] at kept
      rw [maskString_short short, maskString_short (len ▸ short),
        (take_decimal_eq_iff len 1).mpr kept.1, (drop_decimal_eq_iff len 1).mpr kept.2, len]
    · rw [if_neg short] at kept
      rw [maskString_long short, maskString_long (len ▸ short),
        (take_decimal_eq_iff len 3).mpr kept.1, (drop_decimal_eq_iff len 3).mpr kept.2, len]

theorem maskSessionIdToString_eq_iff (a b : UInt32) :
    maskSessionIdToString a = maskSessionIdToString b ↔ MaskedAlike a.toNat b.toNat :=
  maskString_decimal_eq_iff ..

end Hdc
