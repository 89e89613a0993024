import Hdc.Base
import Hdc.Lib.LexicalPath

/-!
Paths of a file transfer: the helpers of `base.cpp` and `file.cpp` that take them
apart, check them and put them in a normal form.

Texts are `std::string`s and may hold a NUL; what the file system is given is the C
string in them, `cStr`. The functions of the source look at the whole text.

* `splitString_eq_names`: the loop of `SplitString` finds the names in a text;
* `pathSimplify_eq_render`: `PathSimplify` writes out the place that a path leads to,
  so it reads a relative path from the root.
-/

namespace Hdc

open LexicalPath List

variable {sep : UInt8}

namespace Base

/-! ### Splitting -/

theorem splitFrom_eq_names (text : Bytes) {piece : Bytes} (free : sep ∉ piece) :
    splitFrom sep piece text = names sep (piece ++ text) := by
  induction text generalizing piece with
  | nil =>
    rw [append_nil, names_of_free free]
    rfl
  | cons byte text ih =>
    rw [splitFrom]
    by_cases ends : byte = sep
    · subst ends
      rw [names_append_sep, names_of_free free, ih not_mem_nil]
      by_cases empty : piece = [] <;> simp [empty]
    · have grown : sep ∉ piece ++ [byte] := by simp [free, Ne.symm ends]
      rw [if_neg ends, ih grown, append_assoc, singleton_append]

/-- The pieces are the names in the text. -/
theorem splitString_eq_names (text : Bytes) (sep : UInt8) :
    splitString text sep = names sep text := splitFrom_eq_names text not_mem_nil

end Base

/-- The C string at the beginning of a text. -/
def cStr (text : Bytes) : Bytes := text.takeWhile (· ≠ 0)

theorem cStr_isPrefix (text : Bytes) : cStr text <+: text := List.takeWhile_prefix _

theorem cStr_of_free {text : Bytes} (free : 0 ∉ text) : cStr text = text := by
  refine takeWhile_eq_self_iff.mpr fun byte mem => ?_
  simp only [decide_not, Bool.not_eq_true', decide_eq_false_iff_not]
  rintro rfl
  exact free mem

theorem cStr_free (text : Bytes) : 0 ∉ cStr text := fun mem => by
  simpa using mem_takeWhile_imp mem

/-- Behind a NUL nothing counts; before it everything does. -/
theorem cStr_append (text more : Bytes) :
    cStr (text ++ more) = if 0 ∈ text then cStr text else text ++ cStr more := by
  induction text with
  | nil => simp [cStr]
  | cons byte text ih =>
    by_cases ends : byte = 0
    · subst ends
      simp [cStr]
    · have step : ∀ rest, cStr (byte :: rest) = byte :: cStr rest := fun rest => by
        simp [cStr, ends]
      rw [cons_append, step, ih, step]
      by_cases mem : 0 ∈ text <;> simp [mem, Ne.symm ends]

namespace Transfer

/-! ### Checks and parts of a path -/

/-- `CheckPathTraversal`: either separator counts. -/
def checkPathTraversal (path : Bytes) : Bool :=
  let normalizedPath := path.map fun byte => if byte = 92 then 47 else byte
  str ".." ∉ normalizedPath.splitOn 47

/-- `GetFullFilePath`: the last name of a path, and the path without the separators at
its end, which replaces the argument. The source reads in front of an empty text. -/
def getFullFilePath (s : Bytes) : Bytes × Bytes :=
  let s := s.rdropWhile (· = 47)
  (s.rtakeWhile (· ≠ 47), s)

/-- `GetPathWithoutFilename`: up to the last separator; all of it where there is none. -/
def getPathWithoutFilename (s : Bytes) : Bytes :=
  if 47 ∈ s then s.rdropWhile (· ≠ 47) else s

def bundleMinSize : Nat := 7
def bundleMaxSize : Nat := 128

/-- The characters of a bundle name. -/
def isBundleChar (byte : UInt8) : Bool :=
  (48 ≤ byte && byte ≤ 57) || (97 ≤ byte && byte ≤ 122) || (65 ≤ byte && byte ≤ 90) ||
    byte = 95 || byte = 46

/-- `CheckBundleName`. -/
def checkBundleName (bundleName : Bytes) : Bool :=
  bundleName ≠ [] && bundleMinSize ≤ bundleName.length && bundleName.length ≤ bundleMaxSize &&
    bundleName.all isBundleChar

/-- One group of `PathSimplify`. -/
def simplifyGroup (nameVec : List Bytes) (group : Bytes) : List Bytes :=
  if group = [] ∨ group = str "." then nameVec
  else if group = str ".." ∧ nameVec.length ≠ 0 then nameVec.dropLast
  else if group ≠ str ".." then nameVec ++ [group]
  else nameVec

/-- The names that `PathSimplify` keeps. -/
def nameVec (path : Bytes) : List Bytes := (path.splitOn 47).foldl simplifyGroup []

/-- `PathSimplify`. -/
def pathSimplify (path : Bytes) : Bytes :=
  let outPath := (nameVec path).flatMap fun name => 47 :: name
  if outPath.length ≠ 0 then outPath else [47]

/-! ### What they compute -/

/-- The dots of a path. -/
abbrev dot : UInt8 := 46

theorem stays_eq : str "." = [dot] := by decide

theorem goesUp_eq : str ".." = [dot, dot] := by decide

theorem simplifyGroup_eq_enter (place : List Bytes) {group : Bytes} (full : group ≠ []) :
    simplifyGroup place group = enter dot place group := by
  unfold simplifyGroup enter
  rw [stays_eq, goesUp_eq]
  by_cases stay : group = [dot]
  · simp [stay]
  · by_cases up : group = [dot, dot]
    · cases place <;> simp [up]
    · simp [up, full]

variable (path : Bytes)

theorem nameVec_eq_place : nameVec path = place 47 dot path := by
  unfold nameVec place follow names
  generalize ([] : List Bytes) = start
  induction path.splitOn 47 generalizing start with
  | nil => rfl
  | cons group groups ih =>
    rw [foldl_cons]
    by_cases empty : group = []
    · subst empty
      simpa [simplifyGroup] using ih start
    · rw [simplifyGroup_eq_enter start empty, filter_cons_of_pos (by simpa using empty),
        foldl_cons]
      exact ih _

/-- `PathSimplify` writes out the place that the path leads to. -/
theorem pathSimplify_eq_render :
    pathSimplify path =
      if place 47 dot path = [] then [47] else render 47 (place 47 dot path) := by
  rw [pathSimplify, nameVec_eq_place]
  cases place 47 dot path with
  | nil => rfl
  | cons name rest => simp [render]

/-- Nothing but separators is added. -/
theorem subset_of_pathSimplify : pathSimplify path ⊆ 47 :: path := by
  intro byte mem
  rw [pathSimplify_eq_render] at mem
  split at mem
  · exact mem_cons.mpr (.inl (mem_singleton.mp mem))
  · obtain ⟨_, inPlace, mem⟩ := mem_flatMap.mp mem
    rcases mem_cons.mp mem with rfl | mem
    · exact mem_cons_self
    · exact mem_cons_of_mem _ (subset_of_mem_names (mem_names_of_mem_place inPlace) mem)

/-! ### Names and the way up -/

/-- Either separator in one form, as `CheckPathTraversal` has them. -/
def normalized (path : Bytes) : Bytes := path.map fun byte => if byte = 92 then 47 else byte

theorem checkPathTraversal_iff :
    checkPathTraversal path = true ↔ str ".." ∉ names 47 (normalized path) := by
  have full : str ".." ≠ [] := by decide
  simp [checkPathTraversal, normalized, names, full]

section

variable (either : sep = 47 ∨ sep = 92)
include either

/-- A name that holds no separator is found after normalisation as well, whichever
separator it was found by. -/
theorem mem_names_normalized {path name : Bytes}
    (mem : name ∈ names sep path) (slash : 47 ∉ name) (back : 92 ∉ name) :
    name ∈ names 47 (normalized path) := by
  induction path using pieces_induction sep with
  | free path free =>
    rw [names_of_free free] at mem
    split at mem
    case isTrue => cases mem
    case isFalse full =>
      obtain rfl := mem_singleton.mp mem
      have same : normalized name = name := by
        refine (map_congr_left fun byte inside => ?_).trans (map_id _)
        have other : byte ≠ 92 := by
          rintro rfl
          exact back inside
        exact if_neg other
      rw [same, names_of_free slash, if_neg full]
      exact mem_singleton_self _
  | cut first rest _ before behind =>
    have split : normalized (first ++ sep :: rest) = normalized first ++ 47 :: normalized rest := by
      rcases either with rfl | rfl <;> simp [normalized]
    rw [split, names_append_sep, mem_append]
    rw [names_append_sep, mem_append] at mem
    rcases mem with mem | mem
    · exact .inl (before mem)
    · exact .inr (behind mem)

/-- A path that passes the check does not go up, by either separator. -/
theorem up_notMem_names {path : Bytes}
    (plain : checkPathTraversal path = true) : str ".." ∉ names sep path := by
  intro mem
  refine (checkPathTraversal_iff _).mp plain ?_
  exact mem_names_normalized either mem (by decide) (by decide)

/-- What stands behind a separator passes the check as well. -/
theorem checkPathTraversal_of_append {first rest : Bytes}
    (plain : checkPathTraversal (first ++ sep :: rest) = true) :
    checkPathTraversal rest = true := by
  have split : normalized (first ++ sep :: rest) = normalized first ++ 47 :: normalized rest := by
    rcases either with rfl | rfl <;> simp [normalized]
  rw [checkPathTraversal_iff, split, names_append_sep, mem_append, not_or] at plain
  exact (checkPathTraversal_iff _).mpr plain.2

end

/-! ### Names and NUL -/

/-- The names that a C string keeps: those before the first NUL, and what stands before
it in the name that holds it. -/
def cutNames : List Bytes → List Bytes
  | [] => []
  | name :: rest => if 0 ∈ name then names 47 (cStr name) else name :: cutNames rest

theorem names_cStr : names 47 (cStr path) = cutNames (names 47 path) := by
  induction path using pieces_induction (47 : UInt8) with
  | cut first rest free _ later =>
    rw [cStr_append, names_append_sep, names_of_free free]
    by_cases ended : (0 : UInt8) ∈ first
    · have full : first ≠ [] := ne_nil_of_mem ended
      rw [if_pos ended, if_neg full]
      exact (if_pos ended).symm
    · have step : cStr (47 :: rest) = 47 :: cStr rest := by simp [cStr]
      rw [if_neg ended, step, names_append_sep, names_of_free free, later]
      by_cases empty : first = []
      · simp [empty]
      · simp [empty, cutNames, ended]
  | free path free =>
    rw [names_of_free free]
    by_cases ended : (0 : UInt8) ∈ path
    · rw [if_neg (ne_nil_of_mem ended)]
      exact (if_pos ended).symm
    · rw [cStr_of_free ended, names_of_free free]
      by_cases empty : path = []
      · simp [empty, cutNames]
      · simp [empty, cutNames, ended]

theorem cutNames_isPrefix {first whole : List Bytes} (shorter : first <+: whole) :
    cutNames first <+: cutNames whole := by
  obtain ⟨_, rfl⟩ := shorter
  induction first with
  | nil => exact List.nil_prefix
  | cons name first ih =>
    rw [cons_append, cutNames, cutNames]
    split
    · exact prefix_refl _
    · exact (prefix_cons_inj _).mpr ih

theorem cutNames_dot (path : List Bytes) : cutNames (str "." :: path) = str "." :: cutNames path :=
  if_neg (by decide)

theorem cutNames_filter_subset (path : List Bytes) :
    cutNames (path.filter (· ≠ str ".")) ⊆ cutNames path := by
  induction path with
  | nil => exact List.Subset.refl _
  | cons name path ih =>
    by_cases stay : name = str "."
    · subst stay
      rw [filter_cons_of_neg (by simp), cutNames_dot]
      exact fun other mem => mem_cons_of_mem _ (ih mem)
    · rw [filter_cons_of_pos (by simpa using stay), cutNames, cutNames]
      split
      · exact List.Subset.refl _
      · exact cons_subset_cons _ ih

/-- Single dots lead nowhere, so they may be left out. -/
theorem follow_cutNames_filter (path start : List Bytes) :
    follow dot start (cutNames (path.filter (· ≠ str "."))) = follow dot start (cutNames path) := by
  induction path generalizing start with
  | nil => rfl
  | cons name path ih =>
    by_cases stay : name = str "."
    · subst stay
      rw [filter_cons_of_neg (by simp), cutNames_dot, ih]
      rfl
    · rw [filter_cons_of_pos (by simpa using stay), cutNames, cutNames]
      split
      · rfl
      · exact ih (enter dot _ _)

example : pathSimplify (str "/data//local/../service/./el1/") = str "/data/service/el1" := by decide
example : pathSimplify (str "../..") = str "/" := by decide

end Transfer

end Hdc
