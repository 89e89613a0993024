import Mathlib.Data.List.Basic

/-!
Maps that keep their entries in the order of their keys.

A map is the list of its entries, strictly increasing under a comparison of the
keys; only transitivity is asked of the comparison, so keys may be incomparable
and then count as the same. Insertion leaves an entry alone whose key is there
already.

* `SortedMap.perm_insert`: what the entries are then;
* `SortedMap.foldl_insert`: inserting the entries of a map one by one into the
  empty map, with their values changed on the way, changes just the values.
-/

/-- A strict comparison of keys. -/
structure KeyOrder (K : Type) where
  less : K → K → Bool
  trans : ∀ {a b c : K}, less a b → less b c → less a c

/-- Entries in strictly increasing order of their keys. -/
structure SortedMap {K : Type} (order : KeyOrder K) (V : Type) where
  entries : List (K × V)
  sorted : entries.Pairwise fun a b => order.less a.1 b.1

namespace SortedMap

open List

variable {K V : Type} {order : KeyOrder K}

@[ext] theorem ext {a b : SortedMap order V} (same : a.entries = b.entries) : a = b := by
  cases b
  cases same
  rfl

def empty : SortedMap order V := ⟨[], .nil⟩

/-- Insert before the first larger key, unless a key is met that is neither
smaller nor larger. -/
def insertEntry (order : KeyOrder K) (entry : K × V) : List (K × V) → List (K × V)
  | [] => [entry]
  | head :: rest =>
    if order.less head.1 entry.1 then
      head :: insertEntry order entry rest
    else if order.less entry.1 head.1 then
      entry :: head :: rest
    else
      head :: rest

variable {entry : K × V}

theorem mem_insertEntry {other : K × V} {entries : List (K × V)}
    (mem : other ∈ insertEntry order entry entries) : other = entry ∨ other ∈ entries := by
  induction entries with
  | nil => exact .inl (mem_singleton.mp mem)
  | cons head rest ih =>
    rw [insertEntry] at mem
    split at mem
    · rcases mem_cons.mp mem with rfl | later
      · exact .inr mem_cons_self
      · exact (ih later).imp_right (mem_cons_of_mem _)
    · split at mem
      · exact mem_cons.mp mem
      · exact .inr mem

theorem sorted_insertEntry (entry : K × V) {entries : List (K × V)}
    (sorted : entries.Pairwise fun a b => order.less a.1 b.1) :
    (insertEntry order entry entries).Pairwise fun a b => order.less a.1 b.1 := by
  induction entries with
  | nil => exact pairwise_singleton ..
  | cons head rest ih =>
    obtain ⟨first, later⟩ := pairwise_cons.mp sorted
    rw [insertEntry]
    split
    case isTrue below =>
      refine pairwise_cons.mpr ⟨fun other mem => ?_, ih later⟩
      rcases mem_insertEntry mem with rfl | old
      · exact below
      · exact first other old
    case isFalse =>
      split
      case isTrue above =>
        refine pairwise_cons.mpr ⟨fun other mem => ?_, sorted⟩
        rcases mem_cons.mp mem with rfl | old
        · exact above
        · exact order.trans above (first other old)
      case isFalse => exact sorted

/-- `insert` of a map that does not overwrite. -/
def insert (map : SortedMap order V) (entry : K × V) : SortedMap order V :=
  ⟨insertEntry order entry map.entries, sorted_insertEntry entry map.sorted⟩

variable {map : SortedMap order V}

theorem mem_insert {other : K × V}
    (mem : other ∈ (map.insert entry).entries) : other = entry ∨ other ∈ map.entries :=
  mem_insertEntry mem

/-- A key that can be told from all the others is inserted. -/
theorem perm_insert
    (apart : ∀ other ∈ map.entries, order.less other.1 entry.1 ∨ order.less entry.1 other.1) :
    (map.insert entry).entries.Perm (entry :: map.entries) := by
  change (insertEntry order entry map.entries).Perm _
  generalize map.entries = entries at apart
  induction entries with
  | nil => exact .refl _
  | cons head rest ih =>
    rw [insertEntry]
    split
    · have later := ih fun other mem => apart _ (mem_cons_of_mem _ mem)
      exact (later.cons head).trans (.swap _ head rest)
    case isFalse notBelow =>
      rw [if_pos ((apart head mem_cons_self).resolve_left notBelow)]

theorem insert_last (last : ∀ other ∈ map.entries, order.less other.1 entry.1) :
    (map.insert entry).entries = map.entries ++ [entry] := by
  change insertEntry order entry map.entries = _
  generalize map.entries = entries at last
  induction entries with
  | nil => rfl
  | cons head rest ih =>
    rw [insertEntry, if_pos (last head mem_cons_self),
      ih fun other mem => last other (mem_cons_of_mem _ mem), cons_append]

theorem foldl_insert (map : SortedMap order V) (change : K × V → V) :
    ((map.entries.foldl (fun built entry => built.insert (entry.1, change entry))
    (empty : SortedMap order V)).entries) =
    map.entries.map fun entry => (entry.1, change entry) := by
  -- The entries built so far are below all that are still to come.
  have build : ∀ (todo : List (K × V)) (built : SortedMap order V),
      (todo.Pairwise fun a b => order.less a.1 b.1) →
      (∀ old ∈ built.entries, ∀ entry ∈ todo, order.less old.1 entry.1) →
      (todo.foldl (fun built entry => built.insert (entry.1, change entry)) built).entries =
        built.entries ++ todo.map fun entry => (entry.1, change entry) := by
    intro todo
    induction todo with
    | nil =>
      intro built _ _
      exact (append_nil _).symm
    | cons entry todo ih =>
      intro built sorted below
      obtain ⟨first, later⟩ := pairwise_cons.mp sorted
      have grown : (built.insert (entry.1, change entry)).entries =
          built.entries ++ [(entry.1, change entry)] :=
        insert_last fun old mem => below old mem entry mem_cons_self
      rw [foldl_cons, ih _ later, grown, append_assoc, singleton_append,
        map_cons]
      intro old mem next nextMem
      rw [grown] at mem
      rcases mem_append.mp mem with mem | mem
      · exact below old mem next (mem_cons_of_mem _ nextMem)
      · rw [mem_singleton.mp mem]
        exact first next nextMem
  rw [build map.entries empty map.sorted (by intro old mem; cases mem)]
  rfl

end SortedMap
