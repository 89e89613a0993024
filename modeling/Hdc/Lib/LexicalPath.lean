import Mathlib.Data.List.Basic
import Mathlib.Data.List.DropRight
import Mathlib.Data.List.Infix

/-!
Paths as texts, and the places they name.

A path is a text in which a separator sets names apart; a place is a list of names, from the root. A
path leads from one place to another: the name of a single dot stays, two dots go one up (and stay
at the root), every other name goes down. Nothing is known about links.

* `follow_plain`: without going up, a path only extends the place it starts from;
* `render_place_isPrefix`: a path that is cut off leads to the beginning of what the whole one leads
  to, unless that goes up;
* `above_of_render_isPrefix`: which places have something below them that begins with given letters.
-/

namespace LexicalPath

open List

variable {α : Type} [DecidableEq α] {sep dot : α}

/-! ### Names -/

/-- The names in a text: the non-empty pieces between separators. -/
def names (sep : α) (text : List α) : List (List α) := (text.splitOn sep).filter (· ≠ [])

@[simp] theorem names_nil : names sep [] = [] := rfl

theorem names_append_sep (first rest : List α) :
    names sep (first ++ sep :: rest) = names sep first ++ names sep rest := by
  have split : (first ++ sep :: rest).splitOn sep = first.splitOn sep ++ rest.splitOn sep :=
    splitOnP_append_cons first rest (by simp)
  rw [names, split, filter_append]
  rfl

/-- A text that ends in a separator is continued by whole names. -/
theorem names_append_of_getLast? {text : List α} (ends : text.getLast? = some sep)
    (rest : List α) : names sep (text ++ rest) = names sep text ++ names sep rest := by
  obtain ⟨_, rfl⟩ := getLast?_eq_some_iff.mp ends
  rw [append_assoc, singleton_append, names_append_sep, names_append_sep, names_nil,
    append_nil]

theorem names_append_seps (text : List α) {more : List α} (seps : ∀ letter ∈ more, letter = sep) :
    names sep (text ++ more) = names sep text := by
  induction more generalizing text with
  | nil => rw [append_nil]
  | cons letter more ih =>
    obtain rfl := seps letter mem_cons_self
    have later := ih [] fun other mem => seps other (mem_cons_of_mem _ mem)
    rw [names_append_sep, ← nil_append more, later, names_nil, append_nil]

/-- The names of a text are those up to its last separator, and the one behind it. -/
theorem names_split_last (text : List α) : names sep text =
    names sep (text.rdropWhile (· ≠ sep)) ++ names sep (text.rtakeWhile (· ≠ sep)) := by
  nth_rewrite 1 [← @rdropWhile_append_rtakeWhile _ (· ≠ sep) text]
  by_cases empty : text.rdropWhile (· ≠ sep) = []
  · rw [empty, nil_append, names_nil, nil_append]
  · refine names_append_of_getLast? ?_ _
    rw [getLast?_eq_some_getLast empty]
    simpa using rdropWhile_last_not (· ≠ sep) text empty

theorem names_of_free {text : List α} (free : sep ∉ text) :
    names sep text = if text = [] then [] else [text] := by
  have whole : text.splitOn sep = [text] := by
    refine splitOnP_eq_singleton fun letter mem => ?_
    simp only [beq_eq_false_iff_ne]
    rintro rfl
    exact free mem
  rw [names, whole]
  by_cases empty : text = [] <;> simp [empty]

/-- A text ends in a piece without separators. -/
theorem exists_last_piece (sep : α) (text : List α) :
    sep ∉ text ∨ ∃ front last, text = front ++ sep :: last ∧ sep ∉ last := by
  induction text with
  | nil => exact .inl (by simp)
  | cons letter text ih =>
    rcases ih with free | ⟨front, last, rfl, free⟩
    · by_cases same : letter = sep
      · subst same
        exact .inr ⟨[], _, rfl, free⟩
      · exact .inl (by simp [Ne.symm same, free])
    · exact .inr ⟨letter :: front, last, rfl, free⟩

/-- Induction over the pieces of a text. -/
@[elab_as_elim]
theorem pieces_induction (sep : α) {motive : List α → Prop} (free : ∀ text, sep ∉ text → motive text)
    (cut : ∀ first rest, sep ∉ first → motive first → motive rest → motive (first ++ sep :: rest))
    (text : List α) : motive text := by
  induction len : text.length using Nat.strong_induction_on generalizing text with
  | _ n ih =>
    subst len
    by_cases mem : sep ∈ text
    · obtain ⟨first, rest, rfl, apart⟩ := eq_append_cons_of_mem mem
      have shorter : rest.length < (first ++ sep :: rest).length := by
        simp only [length_append, length_cons]
        omega
      exact cut first rest apart (free first apart) (ih _ shorter rest rfl)
    · exact free text mem

/-- Names as they can stand in a text. -/
def IsName (sep : α) (name : List α) : Prop := name ≠ [] ∧ sep ∉ name

instance (name : List α) : Decidable (IsName sep name) := inferInstanceAs (Decidable (_ ∧ _))

section

variable {text name : List α} (mem : name ∈ names sep text)
include mem

/-- What is found in a text is a name, and made of letters of the text. -/
theorem isName_and_subset_of_mem_names : IsName sep name ∧ name ⊆ text := by
  induction text using pieces_induction sep with
  | free text free =>
    rw [names_of_free free] at mem
    split at mem
    case isTrue => cases mem
    case isFalse full =>
      obtain rfl := mem_singleton.mp mem
      exact ⟨⟨full, free⟩, List.Subset.refl _⟩
  | cut first rest _ before behind =>
    rw [names_append_sep, mem_append] at mem
    rcases mem with mem | mem
    · obtain ⟨named, within⟩ := before mem
      exact ⟨named, fun letter inside => mem_append_left _ (within inside)⟩
    · obtain ⟨named, within⟩ := behind mem
      exact ⟨named, fun letter inside =>
        mem_append_right _ (mem_cons_of_mem _ (within inside))⟩

theorem isName_of_mem_names : IsName sep name := (isName_and_subset_of_mem_names mem).1

theorem subset_of_mem_names : name ⊆ text :=
  (isName_and_subset_of_mem_names mem).2

end

/-- A letter other than the separator stands in a name. -/
theorem exists_name_of_mem {text : List α} {letter : α} (mem : letter ∈ text)
    (other : letter ≠ sep) : ∃ name ∈ names sep text, letter ∈ name := by
  induction text using pieces_induction sep with
  | free text free =>
    refine ⟨_, ?_, mem⟩
    rw [names_of_free free, if_neg (ne_nil_of_mem mem)]
    exact mem_singleton_self _
  | cut first rest _ before behind =>
    rw [names_append_sep]
    simp only [mem_append, mem_cons, other, false_or] at mem
    rcases mem with mem | mem
    · obtain ⟨name, inside, found⟩ := before mem
      exact ⟨name, mem_append_left _ inside, found⟩
    · obtain ⟨name, inside, found⟩ := behind mem
      exact ⟨name, mem_append_right _ inside, found⟩

/-- The names of a text that is cut off: the last one may be cut as well. -/
theorem names_of_isPrefix (sep : α) {text whole : List α} (cut : text <+: whole) :
    ∃ front part rest, names sep text = front ++ part ∧ names sep whole = front ++ rest ∧
    (part = [] ∨ ∃ name full later, part = [name] ∧ rest = full :: later ∧ name <+: full) := by
  obtain ⟨more, rfl⟩ := cut
  -- what stands behind the next separator only adds names
  obtain ⟨piece, later, free, split⟩ : ∃ piece later, sep ∉ piece ∧
      names sep (text ++ more) = names sep (text ++ piece) ++ later := by
    by_cases mem : sep ∈ more
    · obtain ⟨piece, rest, rfl, free⟩ := eq_append_cons_of_mem mem
      exact ⟨piece, names sep rest, free, by rw [← append_assoc, names_append_sep]⟩
    · exact ⟨more, [], mem, by simp⟩
  -- and what stands before the last separator is the same for both
  obtain ⟨front, last, lastFree, short, long⟩ : ∃ front last, sep ∉ last ∧
      names sep text = front ++ names sep last ∧
      names sep (text ++ piece) = front ++ names sep (last ++ piece) := by
    rcases exists_last_piece sep text with textFree | ⟨front, last, rfl, lastFree⟩
    · exact ⟨[], text, textFree, rfl, rfl⟩
    · refine ⟨names sep front, last, lastFree, names_append_sep front last, ?_⟩
      rw [append_assoc, cons_append, names_append_sep]
  have bothFree : sep ∉ last ++ piece := by simp [lastFree, free]
  refine ⟨front, names sep last, names sep (last ++ piece) ++ later, short, ?_, ?_⟩
  · rw [split, long, append_assoc]
  · rw [names_of_free lastFree, names_of_free bothFree]
    by_cases empty : last = []
    · exact .inl (by simp [empty])
    · refine .inr ⟨last, last ++ piece, later, by simp [empty], ?_, prefix_append _ _⟩
      simp [empty]

/-! ### Places -/

/-- One name on the way from a place. -/
def enter (dot : α) (place : List (List α)) (name : List α) : List (List α) :=
  if name = [dot] then place else if name = [dot, dot] then place.dropLast else place ++ [name]

/-- The place that names lead to. -/
def follow (dot : α) (place : List (List α)) (path : List (List α)) : List (List α) :=
  path.foldl (enter dot) place

/-- The place that a path leads to from the root. -/
def place (sep dot : α) (text : List α) : List (List α) := follow dot [] (names sep text)

variable {path : List (List α)}

/-- Every name of a place stood on the way to it. -/
theorem mem_of_mem_follow {start : List (List α)} {name : List α}
    (mem : name ∈ follow dot start path) : name ∈ start ∨ name ∈ path := by
  induction path generalizing start with
  | nil => exact .inl mem
  | cons other path ih =>
    rcases ih mem with early | late
    · unfold enter at early
      split_ifs at early
      · exact .inl early
      · exact .inl (dropLast_subset _ early)
      · rcases mem_append.mp early with early | same
        · exact .inl early
        · exact .inr (mem_cons.mpr (.inl (mem_singleton.mp same)))
    · exact .inr (mem_cons_of_mem _ late)

theorem mem_names_of_mem_place {text name : List α} (mem : name ∈ place sep dot text) :
    name ∈ names sep text := by
  rcases mem_of_mem_follow mem with nothing | found
  · cases nothing
  · exact found

theorem follow_append (start first rest : List (List α)) :
    follow dot start (first ++ rest) = follow dot (follow dot start first) rest :=
  foldl_append

/-- Without going up, a path only goes down. -/
theorem follow_plain (plain : [dot, dot] ∉ path)
    (start : List (List α)) : follow dot start path = start ++ path.filter (· ≠ [dot]) := by
  induction path generalizing start with
  | nil => simp [follow]
  | cons name path ih =>
    simp only [mem_cons, not_or] at plain
    have later := ih plain.2 (enter dot start name)
    rw [follow, foldl_cons, ← follow, later]
    by_cases stay : name = [dot]
    · simp [enter, stay]
    · simp [enter, stay, Ne.symm plain.1]

/-- A path without the way up leads further than its beginnings do. -/
theorem follow_mono {first whole : List (List α)} (shorter : first <+: whole)
    (plain : [dot, dot] ∉ whole) (start : List (List α)) :
    follow dot start first <+: follow dot start whole := by
  obtain ⟨_, rfl⟩ := shorter
  rw [mem_append, not_or] at plain
  rw [follow_append, follow_plain plain.2]
  exact prefix_append _ _

theorem follow_isPrefix (plain : [dot, dot] ∉ path)
    (start : List (List α)) : start <+: follow dot start path := by
  rw [follow_plain plain]
  exact prefix_append _ _

/-! ### Places written out -/

section Render

variable {α : Type} {sep : α}

/-- A place, written out. -/
def render (sep : α) (place : List (List α)) : List α := place.flatMap (sep :: ·)

@[simp] theorem render_nil : render sep ([] : List (List α)) = [] := rfl

theorem render_append (first rest : List (List α)) :
    render sep (first ++ rest) = render sep first ++ render sep rest := flatMap_append

@[simp] theorem render_cons (name : List α) (rest : List (List α)) :
    render sep (name :: rest) = sep :: name ++ render sep rest := rfl

theorem render_isPrefix {first whole : List (List α)} (shorter : first <+: whole) :
    render sep first <+: render sep whole := by
  obtain ⟨_, rfl⟩ := shorter
  rw [render_append]
  exact prefix_append _ _

/-- Letters that end in one that the rest does not hold do not reach into the rest. -/
theorem prefix_of_append {front text more : List α} {letter : α} (absent : letter ∉ more)
    (begins : front ++ [letter] <+: text ++ more) : front ++ [letter] <+: text := by
  rcases List.prefix_or_prefix_of_prefix begins (prefix_append text more) with here | longer
  · exact here
  · obtain ⟨rest, split⟩ := longer
    rcases eq_nil_or_concat rest with rfl | ⟨rest, last, rfl⟩
    · rw [← split, append_nil]
    · rw [concat_eq_append, ← append_assoc] at split
      obtain ⟨rfl, same⟩ := append_inj' split rfl
      rw [append_assoc, prefix_append_right_inj] at begins
      exact absurd (begins.subset (mem_append_right _ mem_cons_self)) absent

end Render

/-- A place that is written out has its own names. -/
theorem names_append_render (text : List α) {place : List (List α)}
    (named : ∀ name ∈ place, IsName sep name) :
    names sep (text ++ render sep place) = names sep text ++ place := by
  induction place generalizing text with
  | nil => simp
  | cons name place ih =>
    have head := named name mem_cons_self
    have tail : ∀ other ∈ place, IsName sep other := fun other mem =>
      named other (mem_cons_of_mem _ mem)
    calc names sep (text ++ render sep (name :: place))
        = names sep ((text ++ sep :: name) ++ render sep place) := by simp
      _ = names sep (text ++ sep :: name) ++ place := ih _ tail
      _ = names sep text ++ names sep name ++ place := by rw [names_append_sep]
      _ = names sep text ++ name :: place := by
        rw [names_of_free head.2, if_neg head.1, append_assoc, singleton_append]

theorem names_render {place : List (List α)} (named : ∀ name ∈ place, IsName sep name) :
    names sep (render sep place) = place := names_append_render [] named

/-- A path that is cut off leads to the beginning of what the whole path leads to. -/
theorem render_place_isPrefix {text whole : List α} (cut : text <+: whole)
    (plain : [dot, dot] ∉ names sep whole) :
    render sep (place sep dot text) <+: render sep (place sep dot whole) := by
  obtain ⟨front, part, rest, short, long, last⟩ := names_of_isPrefix sep cut
  rw [long] at plain
  simp only [mem_append, not_or] at plain
  have wholePlace : place sep dot whole =
      front.filter (· ≠ [dot]) ++ rest.filter (· ≠ [dot]) := by
    rw [place, long, follow_append, follow_plain plain.1, follow_plain plain.2, nil_append]
  have textPlace : place sep dot text = follow dot (front.filter (· ≠ [dot])) part := by
    rw [place, short, follow_append, follow_plain plain.1, nil_append]
  rw [wholePlace, textPlace]
  rcases last with rfl | ⟨name, full, later, rfl, rfl, shorter⟩
  · exact render_isPrefix (prefix_append _ _)
  change render sep (enter dot _ name) <+: _
  unfold enter
  split_ifs with stay up
  · exact render_isPrefix (prefix_append _ _)
  · exact render_isPrefix ((List.dropLast_prefix _).trans (prefix_append _ _))
  · -- a name that is not a dot is not the beginning of one either
    by_cases dotted : full = [dot]
    · subst dotted
      rcases prefix_cons_iff.mp shorter with rfl | ⟨tail, rfl, nothing⟩
      · have found : [] ∈ names sep text := by simp [short]
        exact absurd rfl (isName_of_mem_names found).1
      · rw [prefix_nil] at nothing
        exact absurd (congrArg (dot :: ·) nothing) stay
    · obtain ⟨_, rfl⟩ := shorter
      rw [filter_cons_of_pos (by simpa using dotted), render_append, render_append,
        prefix_append_right_inj]
      simp only [render_cons, render_nil, append_nil, cons_append, append_assoc]
      exact (prefix_cons_inj _).mpr (prefix_append _ _)

/-- A place with something below it that begins with the letters of `wanted` begins
with them itself, or lies above `wanted`. -/
theorem above_of_render_isPrefix {start below wanted : List (List α)}
    (named : ∀ name ∈ start, IsName sep name) (wantedNamed : ∀ name ∈ wanted, IsName sep name)
    (begins : render sep wanted <+: render sep (start ++ below)) :
    render sep wanted <+: render sep start ∨ start <+: wanted := by
  have startBegins : render sep start <+: render sep (start ++ below) :=
    render_isPrefix (prefix_append _ _)
  rcases List.prefix_or_prefix_of_prefix begins startBegins with here | ⟨rest, split⟩
  · exact .inl here
  · cases rest with
    | nil => exact .inl (by simp [← split])
    | cons letter rest =>
      -- the letters of the start end where a separator stands in the wanted text
      rw [← split, render_append, prefix_append_right_inj] at begins
      obtain rfl : letter = sep := by
        cases below with
        | nil => simp at begins
        | cons name below =>
          exact (cons_prefix_cons.mp begins).1
      have decoded := congrArg (names letter) split
      rw [names_append_sep, names_render named, names_render wantedNamed] at decoded
      exact .inr ⟨names _ rest, decoded⟩

end LexicalPath
