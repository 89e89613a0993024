import Mathlib.Data.Finset.Basic
import Mathlib.Data.List.Induction

/-!
The ids of sessions that have ended, as the C++ and the Rust side keep them: a queue and a set.

`remember` says what the record is for. The C++ side refines it; the Rust side makes room before
it looks whether the id is new, and drops the oldest id where nothing is to be added.

* `remembers_iff`: both sides keep the record exactly if no recorded id comes again while the
  record of the Rust side is full.
-/

namespace Hdc.Rust

open List

/-- The ids in the order they came, and as a set. -/
structure DiedSession where
  queue : List UInt32 := []
  set : Finset UInt32 := ∅

namespace DiedSession

/-- The oldest id leaves the queue and the set. -/
def popFront (record : DiedSession) : DiedSession :=
  match record.queue with
  | [] => record
  | front :: queue => ⟨queue, record.set.erase front⟩

def push (record : DiedSession) (sessionId : UInt32) : DiedSession :=
  ⟨record.queue ++ [sessionId], insert sessionId record.set⟩

/-- `MAX_DELETED_SESSION_ID_RECORD_COUNT`. -/
def maxDeletedSessionIdRecordCount (host : Bool) : Nat := if host then 32 else 10

/-- `MAX_DIED_SESSION_NUM`. -/
def maxDiedSessionNum : Nat := 10

/-- The C++ side looks first and makes room afterwards. -/
def addDeletedSessionId (max : Nat) (record : DiedSession) (sessionId : UInt32) : DiedSession :=
  if sessionId ∈ record.set then record
  else
    let record := record.push sessionId
    if record.queue.length > max then record.popFront else record

/-- The Rust side makes room first. -/
def add (record : DiedSession) (sessionId : UInt32) : DiedSession :=
  let record := if record.queue.length ≥ maxDiedSessionNum then record.popFront else record
  if sessionId ∈ record.set then record else record.push sessionId

/-- A record of at most `max` ids after one more: a known id changes nothing, a new one drops the
oldest where there is no room. -/
def remember (max : Nat) (ids : List UInt32) (sessionId : UInt32) : List UInt32 :=
  if sessionId ∈ ids then ids
  else if ids.length < max then ids ++ [sessionId] else ids.tail ++ [sessionId]

/-- Queue and set hold the same ids. -/
def ofList (ids : List UInt32) : DiedSession := ⟨ids, ids.toFinset⟩

/-- A side holds what is to be remembered of the ids so far, without repetition and at most
`max` ids. -/
def Remembers (max : Nat) (add : DiedSession → UInt32 → DiedSession) (ids : List UInt32) : Prop :=
  ids.foldl add {} = ofList (ids.foldl (remember max) []) ∧
    (ids.foldl (remember max) []).Nodup ∧ (ids.foldl (remember max) []).length ≤ max

variable {max : Nat} {ids : List UInt32} {id front : UInt32}

theorem mem_ofList : id ∈ (ofList ids).set ↔ id ∈ ids := mem_toFinset

theorem push_ofList : (ofList ids).push id = ofList (ids ++ [id]) := by
  have set : insert id ids.toFinset = (ids ++ [id]).toFinset := by
    ext other
    simp only [Finset.mem_insert, mem_toFinset, mem_append, mem_singleton, or_comm]
  rw [push, ofList, set, ofList]

theorem popFront_ofList (fresh : front ∉ ids) : (ofList (front :: ids)).popFront = ofList ids := by
  simp [popFront, ofList, fresh]

theorem remember_sound (some : 0 < max) (nodup : ids.Nodup) (bounded : ids.length ≤ max) :
    (remember max ids id).Nodup ∧ (remember max ids id).length ≤ max := by
  rw [remember]
  split_ifs with known room
  · exact ⟨nodup, bounded⟩
  · grind
  · cases ids with
    | nil => exact absurd some room
    | cons front ids => grind

/-- The C++ side refines what is to be remembered. -/
theorem addDeletedSessionId_eq (some : 0 < max) (nodup : ids.Nodup) :
    (ofList ids).addDeletedSessionId max id = ofList (remember max ids id) := by
  simp only [addDeletedSessionId, remember, mem_ofList, push_ofList, apply_ite ofList]
  refine ite_congr rfl (fun _ => rfl) fun new => ?_
  have length : (ofList (ids ++ [id])).queue.length = ids.length + 1 := length_append
  rw [length]
  by_cases room : ids.length < max
  · rw [if_pos room, if_neg (Nat.not_lt.mpr room)]
  · rw [if_neg room, if_pos (Nat.lt_succ_of_le (Nat.not_lt.mp room))]
    obtain ⟨front, ids, rfl⟩ := exists_cons_of_length_pos (by omega : 0 < ids.length)
    have fresh : front ∉ ids ++ [id] := by grind
    exact popFront_ofList fresh

/-- So does the Rust side, but for a known id that meets a full record. -/
theorem add_eq_iff (nodup : ids.Nodup) (bounded : ids.length ≤ maxDiedSessionNum) :
    (ofList ids).add id = ofList (remember maxDiedSessionNum ids id) ↔
      ¬ (id ∈ ids ∧ ids.length = maxDiedSessionNum) := by
  have queue : (ofList ids).queue = ids := rfl
  have positive : 0 < maxDiedSessionNum := by decide
  rw [add, queue]
  by_cases room : ids.length < maxDiedSessionNum
  · simp only [ge_iff_le, Nat.not_le.mpr room, if_false, mem_ofList, push_ofList, remember, room,
      if_true, apply_ite ofList, Nat.ne_of_lt room, and_false, not_false_iff]
  · obtain ⟨front, ids, rfl⟩ := exists_cons_of_length_pos (by omega : 0 < ids.length)
    have full : (front :: ids).length = maxDiedSessionNum := by omega
    obtain ⟨fresh, -⟩ := nodup_cons.mp nodup
    simp only [full, ge_iff_le, le_refl, if_true, popFront_ofList fresh, mem_ofList, push_ofList,
      remember, Nat.lt_irrefl, if_false, and_true, tail_cons]
    by_cases known : id ∈ front :: ids
    · refine iff_of_false (fun same => ?_) fun new => new known
      rw [if_pos known] at same
      replace same := congrArg DiedSession.queue same
      cases ids with
      | nil => simp [maxDiedSessionNum] at full
      | cons second rest => grind [ofList]
    · rw [if_neg known, if_neg fun mem => known (mem_cons_of_mem _ mem)]
      exact iff_of_true rfl known

/-- The limit of the C++ side is not the same for the host and for the daemon. -/
theorem remembers_iff (host : Bool) (ids : List UInt32) :
    (∀ before, before <+: ids →
      Remembers (maxDeletedSessionIdRecordCount host)
        (addDeletedSessionId (maxDeletedSessionIdRecordCount host)) before ∧
      Remembers maxDiedSessionNum add before) ↔
    ∀ before id, before ++ [id] <+: ids →
      ¬ (id ∈ before.foldl (remember maxDiedSessionNum) [] ∧
        (before.foldl (remember maxDiedSessionNum) []).length = maxDiedSessionNum) := by
  have some : 0 < maxDeletedSessionIdRecordCount host := by cases host <;> decide
  constructor
  · intro remembers before id here
    obtain ⟨-, now, nodup, bounded⟩ := remembers before ((prefix_append _ _).trans here)
    have next := (remembers _ here).2.1
    rw [foldl_append, foldl_append, now] at next
    exact (add_eq_iff nodup bounded).mp next
  · intro fine before
    induction before using reverseRecOn with
    | nil => exact fun _ => ⟨⟨rfl, nodup_nil, Nat.zero_le _⟩, rfl, nodup_nil, Nat.zero_le _⟩
    | append_singleton before id ih =>
      intro here
      obtain ⟨⟨cpp, nodup, bounded⟩, rust, nodup', bounded'⟩ := ih ((prefix_append _ _).trans here)
      simp only [Remembers, foldl_append, foldl_cons, foldl_nil, cpp, rust]
      exact ⟨⟨addDeletedSessionId_eq some nodup, remember_sound some nodup bounded⟩,
        (add_eq_iff nodup' bounded').mpr (fine before id here),
        remember_sound (by decide) nodup' bounded'⟩

/-- The last of ten ids comes again: the first one is forgotten. -/
theorem repeated_drops_oldest :
    ¬ Remembers maxDiedSessionNum add [0, 1, 2, 3, 4, 5, 6, 7, 8, 9, 9] :=
  fun remembers => absurd (congrArg queue remembers.1) (by decide)

end DiedSession

end Hdc.Rust
