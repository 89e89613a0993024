import Hdc.Base

/-!
The matcher of `sudo` (`MatchWithWildcard` of `sudo/src/main.cpp`).

It goes over pattern and value once. At a star it notes the place; where a letter does not fit it
goes back to the part behind the last star and tries it one place further, or, once a `=` has been
seen, at the next place where its first letter stands. It stops when the pattern is used up. So the
part behind the last star is found at its first place, although the value may go on behind it and
match at a later one. The end of the value passes for a NUL.

* `matchWithWildcard_iff`: what the scanner decides, for every pattern and value;
* `matchWithWildcard_exact_iff`: when this is what the pattern means.
-/

namespace Hdc.Sudo

open Base List

def star : UInt8 := 42
def equals : UInt8 := 61

/-! ### The scanner -/

/-- The inner loop, which passes over places at which `rest` cannot begin. -/
def skipPlaces (sawSep : Bool) (rest value : Bytes) : Bytes :=
  if sawSep ∧ rest.head? ≠ some 0 then value.dropWhile fun byte => some byte ≠ rest.head? else value

theorem skipPlaces_gap (sawSep : Bool) (rest value : Bytes) :
    ∃ gap, value = gap ++ skipPlaces sawSep rest value ∧ ∀ byte ∈ gap, some byte ≠ rest.head? := by
  rw [skipPlaces]
  split_ifs
  · exact ⟨_, (takeWhile_append_dropWhile ..).symm, fun byte mem => by simpa using mem_takeWhile_imp mem⟩
  · exact ⟨[], rfl, fun _ mem => absurd mem not_mem_nil⟩

/-- The loop of `MatchWithWildcard`: what is left of the pattern and of the value, and what stood
behind the last star with the place in the value where it was tried last. -/
def matchLoop (pattern value : Bytes) (last : Option (Bytes × Bytes)) (sawSep : Bool) : Bool :=
  match pattern with
  | [] => value = []
  | letter :: pattern =>
    if letter = star then
      let rest := pattern.dropWhile (· = star)
      if rest = [] then true
      else matchLoop rest value (some (rest, value)) (sawSep || rest.head? = some equals)
    else if value.headD 0 = letter then
      -- a NUL has met the end of the value, and the loop ends
      if value = [] then pattern.all (· = star)
      else matchLoop pattern value.tail last (sawSep || letter = equals)
    else
      match last with
      | none | some (_, []) => false
      | some (rest, _ :: later) =>
        matchLoop rest (skipPlaces sawSep rest later) (some (rest, later)) sawSep
-- the place that is tried moves on, or the pattern gets shorter
termination_by
  max value.length (last.elim 0 (·.2.length)) * (max pattern.length (last.elim 0 (·.1.length)) + 1)
    + pattern.length
decreasing_by
  · have := (pattern.dropWhile_suffix (· = star)).length_le
    have : value.length * (rest.length + 1) ≤ max value.length (last.elim 0 (·.2.length)) *
      (max (pattern.length + 1) (last.elim 0 (·.1.length)) + 1) := Nat.mul_le_mul (by simp) (by grind)
    grind
  · have := @Nat.mul_le_mul (max value.tail.length (last.elim 0 (·.2.length)))
      (max pattern.length (last.elim 0 (·.1.length)) + 1) _
      (max (pattern.length + 1) (last.elim 0 (·.1.length)) + 1)
      (show _ ≤ max value.length (last.elim 0 (·.2.length)) by grind) (by grind)
    grind
  · have := @Nat.mul_le_mul (later.length + 1) (rest.length + 1) (max value.length (later.length + 1))
      (max (pattern.length + 1) rest.length + 1) (by grind) (by grind)
    obtain ⟨gap, whole, -⟩ := skipPlaces_gap sawSep rest later
    have := congrArg length whole
    have shorter : (skipPlaces sawSep rest later).length ≤ later.length := by simp at this; omega
    simp only [Option.elim_some, length_cons, max_self, max_eq_right shorter]
    linarith

/-- `MatchWithWildcard`. -/
def matchWithWildcard (pattern value : Bytes) : Bool := matchLoop pattern value none false

/-! ### What a pattern means -/

/-- Whether a text matches a pattern in which a star stands for any letters. -/
def globs : Bytes → Bytes → Bool
  | [], text => text = []
  | letter :: pattern, text =>
    if letter = star then text.tails.any (globs pattern)
    else text.head? = some letter && globs pattern text.tail

/-- What may be left of a text behind a beginning that matches. -/
def Leaves : Bytes → Bytes → Bytes → Prop
  | [], text, rest => text = rest
  | letter :: pattern, text, rest =>
    if letter = star then ∃ place, place <:+ text ∧ Leaves pattern place rest
    else ∃ later, text = letter :: later ∧ Leaves pattern later rest

variable {done pattern text rest : Bytes}

theorem leaves_star :
    Leaves (star :: pattern) text rest ↔ ∃ place, place <:+ text ∧ Leaves pattern place rest := by
  rw [Leaves, if_pos rfl]

theorem leaves_plain (plain : star ∉ done) :
    Leaves (done ++ pattern) text rest ↔
      ∃ later, text = done ++ later ∧ Leaves pattern later rest := by
  induction done generalizing text with
  | nil => simp
  | cons letter done ih =>
    obtain ⟨other, plain⟩ := not_or.mp (mt mem_cons.mpr plain)
    simp [Leaves, Ne.symm other, ih plain]

theorem Leaves.suffix (left : Leaves pattern text rest) : rest <:+ text := by
  induction pattern generalizing text with
  | nil => exact left ▸ suffix_rfl
  | cons letter pattern ih =>
    rw [Leaves] at left
    split_ifs at left
    · obtain ⟨place, inside, left⟩ := left
      exact (ih left).trans inside
    · obtain ⟨later, rfl, left⟩ := left
      exact (ih left).trans (suffix_cons ..)

theorem leaves_iff_globs (begun : Bytes) :
    Leaves pattern (begun ++ rest) rest ↔ globs pattern begun = true := by
  induction pattern generalizing begun with
  | nil => simp [Leaves, globs]
  | cons letter pattern ih =>
    rw [Leaves, globs]
    split_ifs with wild
    · simp only [any_eq_true, mem_tails, ← ih]
      constructor
      · rintro ⟨place, inside, left⟩
        obtain ⟨taken, rfl⟩ := left.suffix
        exact ⟨taken, suffix_append_self_iff.mp inside, left⟩
      · rintro ⟨taken, inside, left⟩
        exact ⟨_, suffix_append_self_iff.mpr inside, left⟩
    · cases begun with
      | nil =>
        refine iff_of_false ?_ (by simp)
        rintro ⟨later, rfl, left⟩
        simpa using left.suffix.length_le
      | cons byte begun => simp [← ih]

theorem leaves_star_cons (byte : UInt8) :
    Leaves (star :: pattern) (byte :: text) rest ↔
      Leaves pattern (byte :: text) rest ∨ Leaves (star :: pattern) text rest := by
  simp only [leaves_star, suffix_cons_iff, or_and_right, exists_or, exists_eq_left]

/-- The first place of a part behind a star is as good as any. -/
theorem leaves_here (plain : star ∉ done) (left : Leaves pattern text rest) :
    Leaves (star :: (done ++ pattern)) (done ++ text) rest :=
  leaves_star.mpr ⟨_, suffix_rfl, (leaves_plain plain).mpr ⟨_, rfl, left⟩⟩

theorem Leaves.found (plain : star ∉ done)
    (left : Leaves (star :: (done ++ pattern)) (done ++ text) rest) :
    ∃ later, later <:+ text ∧ Leaves pattern later rest := by
  obtain ⟨place, inside, left⟩ := leaves_star.mp left
  obtain ⟨later, rfl, behind⟩ := (leaves_plain plain).mp left
  refine ⟨later, ?_, behind⟩
  exact suffix_of_suffix_length_le ((suffix_append ..).trans inside) (suffix_append ..)
    (by simpa using inside.length_le)

/-! ### What the scanner looks for -/

/-- The scanner settles for the shortest beginning that matches, and it has to reach the end of the
value; a star at the end of the pattern takes what is left. -/
def Fits (pattern text : Bytes) : Prop :=
  (∃ rest, Leaves pattern text rest) ∧
    (pattern.getLast? = some star ∨ ∀ rest, Leaves pattern text rest → rest.length ≤ 1)

theorem fits_congr {other otherText : Bytes}
    (same : ∀ rest, Leaves pattern text rest ↔ Leaves other otherText rest)
    (ends : pattern.getLast? = some star ↔ other.getLast? = some star) :
    Fits pattern text ↔ Fits other otherText := by
  simp only [Fits, same, ends]

/-- What is found behind a star counts no longer at the next one. -/
theorem fits_star (plain : star ∉ done) :
    Fits (star :: (done ++ star :: pattern)) (done ++ text) ↔ Fits (star :: pattern) text := by
  refine fits_congr (fun rest => ⟨fun left => ?_, leaves_here plain⟩) (by simp [getLast?_cons])
  obtain ⟨later, inside, left⟩ := left.found plain
  obtain ⟨place, inner, left⟩ := leaves_star.mp left
  exact leaves_star.mpr ⟨_, inner.trans inside, left⟩

theorem fits_stars : Fits (star :: pattern.dropWhile (· = star)) text ↔ Fits (star :: pattern) text := by
  induction pattern with
  | nil => rfl
  | cons letter pattern ih =>
    by_cases wild : letter = star
    · rw [dropWhile_cons_of_pos (by simpa using wild), ih, wild]
      exact (@fits_star [] _ _ not_mem_nil).symm
    · rw [dropWhile_cons_of_neg (by simpa using wild)]

/-- A place where the part behind a star does not fit. -/
theorem fits_cons {byte : UInt8} (fails : ∀ rest, ¬ Leaves pattern (byte :: text) rest) :
    Fits (star :: pattern) (byte :: text) ↔ Fits (star :: pattern) text :=
  fits_congr (fun rest => by rw [leaves_star_cons, or_iff_right (fails rest)]) Iff.rfl

theorem fits_gap {gap : Bytes} {first : UInt8} (other : first ≠ star)
    (missed : ∀ byte ∈ gap, byte ≠ first) :
    Fits (star :: first :: pattern) (gap ++ text) ↔ Fits (star :: first :: pattern) text := by
  induction gap with
  | nil => rfl
  | cons byte gap ih =>
    rw [forall_mem_cons] at missed
    rw [cons_append, fits_cons, ih missed.2]
    simp [Leaves, other, missed.1]

/-- A letter that does not fit; behind the value stands a NUL. -/
theorem fails_here {letter : UInt8} {value : Bytes} (plain : star ∉ done) (notStar : letter ≠ star)
    (differs : value.headD 0 ≠ letter) :
    ¬ Leaves (done ++ letter :: pattern) (done ++ (value ++ [0])) rest := by
  rw [leaves_plain plain]
  rintro ⟨later, same, left⟩
  rw [← append_cancel_left same, Leaves, if_neg notStar] at left
  obtain ⟨later, split, -⟩ := left
  cases value <;> exact differs (cons.inj split).1

theorem leaves_empty : Leaves pattern [] rest ↔ (pattern.all (· = star)) = true ∧ rest = [] := by
  induction pattern with
  | nil => simp [Leaves, eq_comm]
  | cons letter pattern ih =>
    rw [Leaves]
    split_ifs with wild <;> simp [wild, ih]

/-- The loop behind a star: `done` has been found, behind a `gap` where it cannot begin. -/
theorem matchLoop_behind {value gap : Bytes} {first : UInt8} {later : Bytes}
    {last : Option (Bytes × Bytes)} {sawSep : Bool} (plain : star ∉ done) (other : first ≠ star)
    (opens : done ++ pattern = first :: later) (missed : ∀ byte ∈ gap, byte ≠ first)
    (behind : last = some (first :: later, gap ++ (done ++ value))) :
    matchLoop pattern value last sawSep = true ↔
    Fits (star :: first :: later) (gap ++ (done ++ (value ++ [0]))) := by
  fun_induction matchLoop pattern value last sawSep generalizing gap done first later with
  | case1 value last sawSep =>
    rw [fits_gap other missed, ← opens, decide_eq_true_eq]
    have found : Leaves (star :: (done ++ [])) (done ++ (value ++ [0])) (value ++ [0]) :=
      leaves_here plain rfl
    constructor
    · rintro rfl
      refine ⟨⟨_, found⟩, .inr fun rest left => ?_⟩
      obtain ⟨later, inside, rfl⟩ := left.found plain
      exact inside.length_le
    · rintro ⟨-, ends | short⟩
      · rw [opens, getLast?_cons_cons, ← opens, append_nil] at ends
        exact absurd (mem_of_getLast? ends) plain
      · simpa using short _ found
  | case2 value last sawSep pattern rest =>
    rename_i empty
    rw [fits_gap other missed, ← opens, fits_star plain, ← fits_stars, show dropWhile _ pattern = [] from empty]
    exact iff_of_true rfl ⟨⟨_, leaves_star.mpr ⟨_, suffix_rfl, rfl⟩⟩, .inl rfl⟩
  | case3 value last sawSep pattern rest more =>
    rename_i ih
    rw [fits_gap other missed, ← opens, fits_star plain, ← fits_stars]
    obtain ⟨first, later, split⟩ : ∃ first later, pattern.dropWhile (· = star) = first :: later :=
      exists_cons_of_ne_nil more
    have other : first ≠ star := by simpa [split] using head_dropWhile_not (· = star) more
    rw [@ih [] [] first later not_mem_nil other split
      (fun _ mem => absurd mem not_mem_nil) (by rw [← split]; rfl), split]
    rfl
  | case4 last sawSep pattern nonzero =>
    have ended : star ∉ done ++ [0] := by simpa using ⟨plain, Ne.symm nonzero⟩
    have whole : ∀ rest, Leaves (star :: (done ++ [0] ++ pattern)) (done ++ [0] ++ []) rest ↔
        Leaves pattern [] rest := by
      refine fun rest => ⟨fun left => ?_, leaves_here ended⟩
      obtain ⟨later, inside, left⟩ := left.found ended
      rwa [suffix_nil.mp inside] at left
    rw [fits_gap other missed, ← opens]
    simp only [append_assoc, append_nil, singleton_append] at whole
    simp [Fits, whole, leaves_empty]
  | case5 value last sawSep pattern nonempty letter ih =>
    obtain ⟨byte, value, rfl⟩ := exists_cons_of_ne_nil nonempty
    have next : star ∉ done ++ [byte] := by simpa using ⟨plain, Ne.symm letter⟩
    simpa using ih next other (by simpa using opens) missed (by simpa using behind)
  | case6 => cases behind
  | case7 value sawSep letter pattern notStar differs rest =>
    obtain ⟨rfl, whole⟩ := Prod.mk.inj (Option.some.inj behind)
    simp only [nil_eq, append_eq_nil_iff] at whole
    obtain ⟨rfl, rfl, rfl⟩ := whole
    have fails := fun rest => @fails_here [] pattern rest _ _ not_mem_nil notStar differs
    rw [← opens]
    refine iff_of_false Bool.false_ne_true ?_
    rintro ⟨⟨rest, left⟩, -⟩
    rcases (leaves_star_cons _).mp left with left | left
    · exact fails _ left
    · simp [leaves_empty, notStar] at left
  | case8 value sawSep letter pattern notStar differs rest head place ih =>
    obtain ⟨rfl, whole⟩ := Prod.mk.inj (Option.some.inj behind)
    obtain ⟨skipped, split, passed⟩ := skipPlaces_gap sawSep (first :: later) place
    have passed : ∀ byte ∈ skipped, byte ≠ first := by simpa using passed
    have text : gap ++ (done ++ (value ++ [0])) = head :: (place ++ [0]) := by
      rw [← cons_append, whole, append_assoc, append_assoc]
    rw [@ih [] skipped first later not_mem_nil other rfl passed (by rw [nil_append, ← split]),
      nil_append, ← append_assoc, ← split, text, fits_cons]
    intro rest left
    cases gap with
    | nil =>
      rw [← text, ← opens] at left
      exact fails_here plain notStar differs left
    | cons byte gap =>
      rw [forall_mem_cons] at missed
      obtain ⟨rfl, -⟩ := cons.inj whole
      simp [Leaves, other, missed.1] at left

/-- Before the first star. -/
theorem matchLoop_none (pattern value : Bytes) (sawSep : Bool) :
    matchLoop pattern value none sawSep = true ↔ Fits pattern (value ++ [0]) := by
  induction pattern generalizing value sawSep with
  | nil => simp [matchLoop, Fits, Leaves]
  | cons letter pattern ih =>
    by_cases wild : letter = star
    · -- a star forgets what has been tried before it
      have forgets : matchLoop (star :: pattern) value none sawSep = matchLoop (star :: pattern)
          value (some (equals :: star :: pattern, equals :: value)) sawSep := by
        rw [matchLoop, matchLoop, if_pos rfl, if_pos rfl]
      have plain : star ∉ [equals] := by decide
      rw [wild, forgets]
      exact (@matchLoop_behind [equals] _ _ [] _ _ _ _ plain (by decide) rfl
        (fun _ mem => absurd mem not_mem_nil) rfl).trans
        (fits_star plain)
    · rw [matchLoop, if_neg wild]
      split_ifs with same empty
      · simp [← same, empty, Fits, Leaves, leaves_empty, (by decide : ¬ 0 = star)]
      · obtain ⟨byte, value, rfl⟩ := exists_cons_of_ne_nil empty
        obtain rfl : byte = letter := same
        rw [tail_cons, ih]
        refine fits_congr (fun rest => by simp [Leaves, wild]) ?_
        cases pattern <;> simp [getLast?_cons_cons, wild]
      · refine iff_of_false id ?_
        rintro ⟨⟨rest, left⟩, -⟩
        exact @fails_here [] _ _ _ _ not_mem_nil wild same left

/-! ### What the scanner decides -/

theorem globs_star : globs (star :: pattern) text = true ↔
    ∃ place, place <:+ text ∧ globs pattern place = true := by
  simp [globs]

theorem globs_starred {stem : Bytes} (plain : star ∉ stem) (text : Bytes) :
    globs (stem ++ [star]) text = true ↔ stem <+: text := by
  induction stem generalizing text with
  | nil => simp [globs]
  | cons letter stem ih =>
    obtain ⟨other, plain⟩ := not_or.mp (mt mem_cons.mpr plain)
    cases text with
    | nil => simp [globs, Ne.symm other]
    | cons first text => simp [globs, Ne.symm other, ih plain, @eq_comm _ first letter]

/-- A star at the end takes what is left. -/
theorem globs_append (ends : pattern.getLast? = some star) (fits : globs pattern text = true) :
    globs pattern (text ++ rest) = true := by
  induction pattern generalizing text with
  | nil => cases ends
  | cons letter pattern ih =>
    cases pattern with
    | nil =>
      rw [getLast?_singleton, Option.some_inj] at ends
      rw [ends]
      exact (globs_starred not_mem_nil _).mpr nil_prefix
    | cons next pattern =>
      rw [getLast?_cons_cons] at ends
      by_cases wild : letter = star
      · rw [wild, globs_star] at fits ⊢
        obtain ⟨place, inside, fits⟩ := fits
        exact ⟨_, suffix_append_self_iff.mpr inside, ih ends fits⟩
      · rw [globs, if_neg wild] at fits ⊢
        cases text <;> simp_all

/-- No shorter beginning of the text matches. -/
def Shortest (pattern text : Bytes) : Prop :=
  ∀ begun, begun <+: text → globs pattern begun = true → begun = text

theorem globs_of_shorter (ends : pattern.getLast? = some star) (shorter : ¬ Shortest pattern text) :
    globs pattern text = true := by
  simp only [Shortest, not_forall] at shorter
  obtain ⟨begun, ⟨more, rfl⟩, fits, -⟩ := shorter
  exact globs_append ends fits

/-- What the scanner decides. -/
theorem matchWithWildcard_iff (pattern value : Bytes) :
    matchWithWildcard pattern value = true ↔
    (globs pattern (value ++ [0]) = true ∨ globs pattern value = true ∨ ¬ Shortest pattern value) ∧
      (pattern.getLast? = some star ∨ Shortest pattern value) := by
  have left : ∀ rest, Leaves pattern (value ++ [0]) rest ↔
      (rest = [] ∧ globs pattern (value ++ [0]) = true) ∨
        ∃ begun more, begun ++ more = value ∧ rest = more ++ [0] ∧ globs pattern begun = true := by
    intro rest
    constructor
    · intro left
      obtain ⟨begun, split⟩ := left.suffix
      rw [← split, leaves_iff_globs] at left
      rcases eq_nil_or_concat' rest with rfl | ⟨more, last, rfl⟩
      · exact .inl ⟨rfl, by rwa [← split, append_nil]⟩
      · rw [← append_assoc] at split
        obtain ⟨whole, last⟩ := append_inj' split rfl
        exact .inr ⟨begun, more, whole, by rw [last], left⟩
    · rintro (⟨rfl, fits⟩ | ⟨begun, more, rfl, rfl, fits⟩)
      · rw [← append_nil (value ++ [0])]
        exact (leaves_iff_globs _).mpr fits
      · rw [append_assoc]
        exact (leaves_iff_globs _).mpr fits
  have short : (∀ rest, Leaves pattern (value ++ [0]) rest → rest.length ≤ 1) ↔
      Shortest pattern value := by
    constructor
    · rintro short begun ⟨more, rfl⟩ fits
      simpa using short _ ((left _).mpr (.inr ⟨begun, more, rfl, rfl, fits⟩))
    · intro shortest rest found
      rcases (left rest).mp found with ⟨rfl, -⟩ | ⟨begun, more, rfl, rfl, fits⟩
      · simp
      · simpa using shortest begun (prefix_append ..) fits
  rw [matchWithWildcard, matchLoop_none, Fits, short]
  refine and_congr_left fun _ => ⟨?_, ?_⟩
  · rintro ⟨rest, found⟩
    rcases (left rest).mp found with ⟨-, fits⟩ | ⟨begun, more, whole, -, fits⟩
    · exact .inl fits
    · by_cases same : begun = value
      · exact .inr (.inl (same ▸ fits))
      · exact .inr (.inr fun shortest => same (shortest begun ⟨more, whole⟩ fits))
  · rintro (fits | fits | shorter)
    · exact ⟨[], (left _).mpr (.inl ⟨rfl, fits⟩)⟩
    · exact ⟨[0], (left _).mpr (.inr ⟨value, [], append_nil _, rfl, fits⟩)⟩
    · by_contra none
      exact shorter (short.mp fun rest found => absurd ⟨rest, found⟩ none)

/-- The scanner decides what the pattern means exactly if it does not stop at a shorter beginning,
and the NUL behind the value makes no difference. -/
theorem matchWithWildcard_exact_iff (pattern value : Bytes) :
    (matchWithWildcard pattern value = true ↔ globs pattern value = true) ↔
    (globs pattern value = true → pattern.getLast? = some star ∨ Shortest pattern value) ∧
      (globs pattern (value ++ [0]) = true →
        globs pattern value = true ∨ ¬ Shortest pattern value) := by
  have shorter := @globs_of_shorter pattern value
  rw [matchWithWildcard_iff]
  tauto

/-- A pattern without NUL takes no notice of the end of the value. -/
theorem globs_of_append_nul (free : 0 ∉ pattern) {value : Bytes}
    (fits : globs pattern (value ++ [0]) = true) : globs pattern value = true := by
  induction pattern generalizing value with
  | nil => simp [globs] at fits
  | cons letter pattern ih =>
    obtain ⟨other, free⟩ := not_or.mp (mt mem_cons.mpr free)
    by_cases wild : letter = star
    · rw [wild, globs_star] at fits ⊢
      obtain ⟨place, inside, fits⟩ := fits
      rcases suffix_concat_iff.mp inside with rfl | ⟨before, rfl, earlier⟩
      · exact ⟨[], nil_suffix, fits⟩
      · exact ⟨before, earlier, ih free fits⟩
    · rw [globs, if_neg wild] at fits ⊢
      cases value with
      | nil => simp [other] at fits
      | cons first value =>
        rw [cons_append, tail_cons, Bool.and_eq_true] at fits
        rw [tail_cons, Bool.and_eq_true]
        exact ⟨fits.1, ih free fits.2⟩

/-- Of such patterns, those with a star at their end are decided rightly. -/
theorem matchWithWildcard_starred (free : 0 ∉ pattern) (ends : pattern.getLast? = some star)
    (value : Bytes) : matchWithWildcard pattern value = true ↔ globs pattern value = true := by
  have shorter := @globs_of_shorter pattern value ends
  have nul := @globs_of_append_nul pattern free value
  rw [matchWithWildcard_iff]
  tauto

/-- `aba` ends like `*a`, but the scanner stops at its first letter; and the end of `a` passes for a
NUL. -/
theorem last_part_missed :
    (globs (str "*a") (str "aba") = true ∧ matchWithWildcard (str "*a") (str "aba") = false) ∧
      globs [97, 0] (str "a") = false ∧ matchWithWildcard [97, 0] (str "a") = true := by
  decide +kernel

end Hdc.Sudo
