import Mathlib.Data.List.Basic
import Mathlib.Data.List.Nodup

/-!
Objects that are found by a key.

A program keeps objects in memory and a map from keys to them. The key of an object is a field of it
and may change. Entering an object under a key takes the place of whatever was there, and an object
is taken out by its key and not by what it is, so the map serves its purpose only as long as no two
objects have the same key. Objects are numbered as they are made.

* `Registry.Found`: every object is found under its key;
* `Consistent.add`, `Consistent.rekey`, `Consistent.remove`: what keeps it so;
* `not_found_add`, `not_found_rekey`: a key that is taken makes another object unreachable.
-/

/-- An object: which one it is, its key, and the rest. -/
structure Keyed (K D : Type) where
  number : Nat
  key : K
  data : D
deriving DecidableEq, Repr

/-- The objects in memory and the map to them. -/
structure Registry (K D : Type) [Ord K] where
  map : Std.TreeMap K Nat
  live : List (Keyed K D)
  next : Nat

namespace Registry

open List

/-- One of the items of a list that all differ in a field, and the others. -/
theorem perm_others {α β : Type} [DecidableEq β] {field : α → β} {items : List α}
    (distinct : (items.map field).Nodup) {item : α} (mem : item ∈ items) :
    items.Perm (items.filter (fun other => field other ≠ field item) ++ [item]) := by
  induction items with
  | nil => cases mem
  | cons head items ih =>
    rw [map_cons, nodup_cons] at distinct
    rcases mem_cons.mp mem with rfl | later
    · have others : items.filter (fun other => field other ≠ field item) = items := by
        rw [filter_eq_self]
        intro other inside
        have : field other ≠ field item := fun same =>
          distinct.1 (same ▸ mem_map_of_mem inside)
        simpa using this
      rw [filter_cons_of_neg (by simp), others]
      exact (perm_append_singleton _ _).symm
    · have other : field head ≠ field item := fun same =>
        distinct.1 (same ▸ mem_map_of_mem later)
      rw [filter_cons_of_pos (by simpa using other)]
      exact (ih distinct.2 later).cons head

variable {K D : Type} [Ord K]

def empty : Registry K D := ⟨∅, [], 0⟩

/-- The object with a number. -/
def object (r : Registry K D) (number : Nat) : Option (Keyed K D) :=
  r.live.find? (·.number = number)

/-- The object that the map leads to. -/
def query (r : Registry K D) (key : K) : Option (Keyed K D) :=
  r.map[key]?.bind r.object

/-- A new object, entered under its key. -/
def add (r : Registry K D) (key : K) (data : D) : Registry K D where
  map := r.map.insert key r.next
  live := r.live ++ [⟨r.next, key, data⟩]
  next := r.next + 1

/-- An object gets another key: the old entry goes, the new one is made. -/
def rekey (r : Registry K D) (number : Nat) (key : K) : Registry K D :=
  match r.object number with
  | none => r
  | some object =>
    { r with
      map := (r.map.erase object.key).insert key number
      live := r.live.map fun other =>
        if other.number = number then { other with key := key } else other }

/-- The rest of an object changes. -/
def change (r : Registry K D) (number : Nat) (f : D → D) : Registry K D :=
  { r with
    live := r.live.map fun other =>
      if other.number = number then { other with data := f other.data } else other }

/-- An object is deleted, and the entry under its key erased. -/
def remove (r : Registry K D) (number : Nat) : Registry K D :=
  match r.object number with
  | none => r
  | some object =>
    { r with
      map := r.map.erase object.key
      live := r.live.filter (·.number ≠ number) }

/-- Every object is found under its key. -/
def Found (r : Registry K D) : Prop :=
  ∀ object ∈ r.live, r.map[object.key]? = some object.number

/-- Objects have their own numbers, whatever their keys are. -/
structure Numbered (r : Registry K D) : Prop where
  numbers : (r.live.map Keyed.number).Nodup
  bounded : ∀ object ∈ r.live, object.number < r.next

/-- Every object is found under its key, and nothing else is in the map. -/
structure Consistent (r : Registry K D) : Prop extends Numbered r where
  found : r.Found
  exact : ∀ key number, r.map[key]? = some number →
    ∃ object ∈ r.live, object.key = key ∧ object.number = number

variable {r : Registry K D} {number : Nat} {object : Keyed K D}

theorem mem_of_object (here : r.object number = some object) : object ∈ r.live :=
  mem_of_find?_eq_some here

theorem number_of_object (here : r.object number = some object) : object.number = number := by
  simpa using find?_some here

theorem object_change (number wanted : Nat) (f : D → D) :
    (r.change number f).object wanted = (r.object wanted).map fun other =>
      if other.number = number then { other with data := f other.data } else other := by
  rw [object, change, find?_map]
  congr 2
  funext other
  dsimp only [Function.comp_apply]
  split
  · rfl
  · rfl

variable {other : Keyed K D}

theorem Numbered.eq_of_number (numbered : Numbered r)
    (mem : object ∈ r.live) (inside : other ∈ r.live) (same : other.number = object.number) :
    other = object :=
  inj_on_of_nodup_map numbered.numbers inside mem same

theorem Numbered.object_of_mem (numbered : Numbered r) (mem : object ∈ r.live) :
    r.object object.number = some object := by
  cases here : r.object object.number with
  | none =>
    have := find?_eq_none.mp here _ mem
    simp at this
  | some other =>
    rw [numbered.eq_of_number mem (mem_of_object here) (number_of_object here)]

/-- Objects with one key are one. -/
theorem Consistent.eq_of_key (consistent : Consistent r) (mem : object ∈ r.live)
    (inside : other ∈ r.live) (same : other.key = object.key) : other = object := by
  apply consistent.eq_of_number mem inside
  have first := consistent.found other inside
  rw [same, consistent.found object mem] at first
  exact (Option.some.inj first).symm

variable {key : K}

/-- A key that the map does not have is no object's. -/
theorem Consistent.free_of_absent (consistent : Consistent r) (absent : r.map[key]? = none)
    (mem : object ∈ r.live) : object.key ≠ key := by
  rintro rfl
  rw [consistent.found object mem] at absent
  cases absent

/-! ### Changes that keep every object reachable -/

/-- Two registries that differ in the rest of their objects only. -/
structure Similar (r s : Registry K D) : Prop where
  map : s.map = r.map
  shape : s.live.map (fun object => (object.number, object.key)) =
    r.live.map fun object => (object.number, object.key)
  next : s.next = r.next

theorem Similar.refl (r : Registry K D) : Similar r r := ⟨rfl, rfl, rfl⟩

theorem Similar.trans {r s t : Registry K D} (first : Similar r s) (second : Similar s t) :
    Similar r t :=
  ⟨second.map.trans first.map, second.shape.trans first.shape, second.next.trans first.next⟩

theorem Similar.symm {r s : Registry K D} (similar : Similar r s) : Similar s r :=
  ⟨similar.map.symm, similar.shape.symm, similar.next.symm⟩

theorem Similar.change (r : Registry K D) (number : Nat) (f : D → D) :
    Similar r (r.change number f) where
  map := rfl
  next := rfl
  shape := by
    rw [Registry.change, map_map]
    congr 1
    funext object
    dsimp only [Function.comp_apply]
    split
    · rfl
    · rfl

section Similar

variable {s : Registry K D} (similar : Similar r s)
include similar

theorem Similar.exists_old (mem : object ∈ s.live) :
    ∃ old ∈ r.live, old.number = object.number ∧ old.key = object.key := by
  have listed : (object.number, object.key) ∈ r.live.map fun old => (old.number, old.key) :=
    similar.shape ▸ mem_map_of_mem mem
  obtain ⟨old, inside, same⟩ := mem_map.mp listed
  exact ⟨old, inside, congrArg Prod.fst same, congrArg Prod.snd same⟩

theorem Similar.length_live : s.live.length = r.live.length := by
  have lengths := congrArg List.length similar.shape
  rwa [length_map, length_map] at lengths

theorem Similar.found (found : r.Found) : s.Found := by
  intro object mem
  obtain ⟨old, inside, number, key⟩ := similar.exists_old mem
  rw [similar.map, ← number, ← key]
  exact found old inside

theorem Similar.numbered (numbered : Numbered r) : Numbered s where
  numbers := by
    have numbers := congrArg (List.map Prod.fst) similar.shape
    rw [map_map, map_map] at numbers
    change (s.live.map (Prod.fst ∘ fun object => (object.number, object.key))).Nodup
    rw [numbers]
    exact numbered.numbers
  bounded := by
    intro object mem
    obtain ⟨old, inside, number, -⟩ := similar.exists_old mem
    rw [similar.next, ← number]
    exact numbered.bounded old inside

theorem Similar.consistent (consistent : Consistent r) : Consistent s where
  toNumbered := similar.numbered consistent.toNumbered
  found := similar.found consistent.found
  exact := by
    intro key number here
    rw [similar.map] at here
    obtain ⟨_, inside, sameKey, sameNumber⟩ := consistent.exact key number here
    obtain ⟨_, mem, number', key'⟩ := similar.symm.exists_old inside
    exact ⟨_, mem, key'.trans sameKey, number'.trans sameNumber⟩

end Similar

theorem Numbered.empty : Numbered (Registry.empty : Registry K D) where
  numbers := .nil
  bounded := fun _ mem => nomatch mem

theorem Numbered.add (numbered : Numbered r) (key : K) (data : D) : Numbered (r.add key data) where
  numbers := by
    rw [Registry.add, map_append, map_singleton, ← concat_eq_append]
    apply numbered.numbers.concat
    intro inside
    obtain ⟨object, mem, same⟩ := mem_map.mp inside
    exact Nat.ne_of_lt (numbered.bounded _ mem) same
  bounded := by
    refine forall_mem_append.mpr ⟨fun object old => ?_, forall_mem_singleton.mpr (Nat.lt_succ_self _)⟩
    exact Nat.lt_succ_of_lt (numbered.bounded _ old)

theorem Numbered.remove (numbered : Numbered r) (number : Nat) : Numbered (r.remove number) := by
  rw [Registry.remove]
  split
  · exact numbered
  · constructor
    · exact numbered.numbers.sublist (filter_sublist.map _)
    · exact fun other inside => numbered.bounded other (mem_of_mem_filter inside)

theorem Numbered.rekey (numbered : Numbered r) (number : Nat) (key : K) :
    Numbered (r.rekey number key) := by
  rw [Registry.rekey]
  split
  · exact numbered
  have numbers : (r.live.map
      (fun other => if other.number = number then { other with key := key } else other)).map
        Keyed.number = r.live.map Keyed.number := by
    rw [map_map]
    congr 1
    funext other
    dsimp only [Function.comp_apply]
    split
    · rfl
    · rfl
  constructor
  · rw [numbers]
    exact numbered.numbers
  · intro other inside
    have listed : other.number ∈ r.live.map Keyed.number := numbers ▸ mem_map_of_mem inside
    obtain ⟨old, oldMem, same⟩ := mem_map.mp listed
    rw [← same]
    exact numbered.bounded old oldMem

theorem Consistent.empty : Consistent (Registry.empty : Registry K D) where
  toNumbered := .empty
  found := fun object mem => nomatch mem
  exact := by
    intro key number here
    cases here

section Ordered

variable [Std.TransOrd K]

variable [Std.LawfulEqOrd K]

/-- A new object under a key that no other one has. -/
theorem Consistent.add (consistent : Consistent r) (data : D)
    (free : ∀ object ∈ r.live, object.key ≠ key) : Consistent (r.add key data) where
  toNumbered := consistent.toNumbered.add key data
  found := by
    intro object mem
    rw [Registry.add, Std.TreeMap.getElem?_insert]
    rcases mem_append.mp mem with old | new
    · rw [if_neg (by simpa using (free object old).symm)]
      exact consistent.found _ old
    · obtain rfl := mem_singleton.mp new
      rw [if_pos (by simp)]
  exact := by
    intro wanted number here
    rw [Registry.add, Std.TreeMap.getElem?_insert] at here
    split at here
    case isTrue same =>
      obtain rfl : key = wanted := by simpa using same
      obtain rfl := Option.some.inj here
      exact ⟨⟨r.next, _, data⟩, mem_append_right _ (mem_singleton_self _), rfl, rfl⟩
    case isFalse =>
      obtain ⟨object, mem, same⟩ := consistent.exact wanted number here
      exact ⟨_, mem_append_left _ mem, same⟩

/-- Without the entry of one object, the map holds those of the others. -/
theorem Consistent.others (consistent : Consistent r) (here : r.object number = some object) :
    (∀ other ∈ r.live, other.number ≠ number →
      (r.map.erase object.key)[other.key]? = some other.number) ∧
    ∀ key wanted, (r.map.erase object.key)[key]? = some wanted →
      ∃ other ∈ r.live, other.number ≠ number ∧ other.key = key ∧ other.number = wanted := by
  have mem := mem_of_object here
  have isNumber := number_of_object here
  constructor
  · intro other inside notIt
    have apart : other.key ≠ object.key := by
      intro same
      obtain rfl := consistent.eq_of_key mem inside same
      exact notIt isNumber
    rw [Std.TreeMap.getElem?_erase, if_neg (by simpa using apart.symm)]
    exact consistent.found other inside
  · intro key wanted there
    rw [Std.TreeMap.getElem?_erase] at there
    split at there
    · cases there
    case isFalse apart =>
      obtain ⟨other, inside, rfl, rfl⟩ := consistent.exact key wanted there
      refine ⟨other, inside, fun same => ?_, rfl, rfl⟩
      obtain rfl := consistent.eq_of_number mem inside (same.trans isNumber.symm)
      exact apart (by simp)

/-- An object is deleted; the others stay where they are. -/
theorem Consistent.remove (consistent : Consistent r) (number : Nat) :
    Consistent (r.remove number) := by
  have numbered := consistent.toNumbered.remove number
  rw [Registry.remove] at numbered ⊢
  split at numbered
  · exact consistent
  case h_2 object here =>
    obtain ⟨found, exact⟩ := consistent.others here
    refine ⟨numbered, fun other inside => ?_, fun key wanted there => ?_⟩
    · obtain ⟨old, notIt⟩ := mem_filter.mp inside
      exact found other old (by simpa using notIt)
    · obtain ⟨other, inside, notIt, its⟩ := exact key wanted there
      exact ⟨other, mem_filter.mpr ⟨inside, by simpa using notIt⟩, its⟩

/-- Where objects are found, one that is deleted takes no entry but its own. -/
theorem Found.own_of_remove (found : r.Found)
    (changed : (r.remove number).map[key]? ≠ r.map[key]?) : r.map[key]? = some number := by
  rw [Registry.remove] at changed
  split at changed
  · exact absurd rfl changed
  case h_2 object here =>
    rw [Std.TreeMap.getElem?_erase] at changed
    split at changed
    case isTrue same =>
      obtain rfl : object.key = key := by simpa using same
      rw [found object (mem_of_object here), number_of_object here]
    case isFalse => exact absurd rfl changed

/-- An object takes a key that no other one has. -/
theorem Consistent.rekey (consistent : Consistent r)
    (free : ∀ object ∈ r.live, object.number ≠ number → object.key ≠ key) :
    Consistent (r.rekey number key) := by
  have numbered := consistent.toNumbered.rekey number key
  rw [Registry.rekey] at numbered ⊢
  split at numbered
  · exact consistent
  case h_2 object here =>
    have isNumber := number_of_object here
    obtain ⟨found, exact⟩ := consistent.others here
    refine ⟨numbered, fun other inside => ?_, fun wanted count there => ?_⟩
    · obtain ⟨old, oldMem, rfl⟩ := mem_map.mp inside
      rw [Std.TreeMap.getElem?_insert]
      split
      case isTrue same => rw [if_pos (by simp), same]
      case isFalse apart =>
        rw [if_neg (by simpa using (free old oldMem apart).symm)]
        exact found old oldMem apart
    · rw [Std.TreeMap.getElem?_insert] at there
      split at there
      case isTrue same =>
        obtain rfl : key = wanted := by simpa using same
        obtain rfl := Option.some.inj there
        refine ⟨_, mem_map_of_mem (mem_of_object here), ?_⟩
        rw [if_pos isNumber]
        exact ⟨rfl, isNumber⟩
      case isFalse =>
        obtain ⟨other, inside, notIt, its⟩ := exact wanted count there
        refine ⟨_, mem_map_of_mem inside, ?_⟩
        rw [if_neg notIt]
        exact its

/-! ### Keys that are taken -/

theorem Consistent.not_found_add (consistent : Consistent r) {data : D} (mem : object ∈ r.live) :
    ¬ (r.add object.key data).Found := by
  intro found
  have new := found _ (mem_append_left _ mem)
  rw [Registry.add, Std.TreeMap.getElem?_insert, if_pos (by simp)] at new
  have below := consistent.bounded _ mem
  rw [Option.some.inj new] at below
  exact Nat.lt_irrefl _ below

/-- An object that leaves a key takes the entry of another one along. -/
theorem not_found_rekey_shared (here : r.object number = some object)
    (inside : other ∈ r.live) (apart : other.number ≠ number) (shared : other.key = object.key) :
    ¬ (r.rekey number key).Found := by
  intro found
  rw [Registry.rekey, here] at found
  have entry := found other (mem_map.mpr ⟨other, inside, if_neg apart⟩)
  rw [Std.TreeMap.getElem?_insert, Std.TreeMap.getElem?_erase] at entry
  split at entry
  · exact apart (Option.some.inj entry).symm
  · rw [if_pos (by simp [shared])] at entry
    cases entry

theorem Consistent.not_found_rekey (consistent : Consistent r)
    (mem : object ∈ r.live) (inside : other ∈ r.live) (apart : other.number ≠ object.number) :
    ¬ (r.rekey object.number other.key).Found := by
  intro found
  rw [Registry.rekey, consistent.object_of_mem mem] at found
  have kept : other ∈ r.live.map (fun object' => if object'.number = object.number then
      { object' with key := other.key } else object') :=
    mem_map.mpr ⟨other, inside, if_neg apart⟩
  have new := found other kept
  rw [Std.TreeMap.getElem?_insert, if_pos (by simp)] at new
  exact apart (Option.some.inj new).symm

end Ordered

/-! ### How many there are -/

theorem length_add (key : K) (data : D) : (r.add key data).live.length = r.live.length + 1 := by
  rw [Registry.add, length_append, length_singleton]

theorem length_rekey (number : Nat) (key : K) :
    (r.rekey number key).live.length = r.live.length := by
  rw [Registry.rekey]
  split
  · rfl
  · rw [length_map]

theorem Numbered.length_remove (numbered : Numbered r) (here : r.object number = some object) :
    (r.remove number).live.length + 1 = r.live.length := by
  have others := (perm_others numbered.numbers (mem_of_object here)).length_eq
  rw [number_of_object here, length_append] at others
  rw [Registry.remove, here]
  exact others.symm

end Registry
