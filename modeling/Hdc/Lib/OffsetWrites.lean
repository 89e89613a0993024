import Mathlib.Algebra.GroupWithZero.Nat
import Mathlib.Data.List.Basic

/-!
Writes at offsets, in any order.

Something is cut into pieces that follow each other, and each piece is written at its
place in a file that begins empty. The pieces may arrive in any order; a gap is filled
until its piece comes.

* `Agrees`: wherever something was written, the file is as it should be;
* `eq_of_covers`: a file that agrees and is written everywhere is the whole;
* `covers_of_total`: to know that it is written everywhere it is enough to count.
-/

namespace OffsetWrites

open List

variable {α : Type}

structure Write (α : Type) where
  offset : Nat
  data : List α
deriving DecidableEq, Repr

/-- A positioned write. Beyond the end of the file the gap is filled; without data
nothing happens. -/
def Write.apply (fill : α) (file : List α) (write : Write α) : List α :=
  match write.data with
  | [] => file
  | data =>
    file.take write.offset ++ List.replicate (write.offset - file.length) fill ++ data ++
      file.drop (write.offset + data.length)

/-- The data is what stands at its place in `content`. -/
def Write.In (content : List α) (write : Write α) : Prop :=
  write.data = (content.drop write.offset).take write.data.length

/-- Some write has been at position `i`. -/
def Covers (writes : List (Write α)) (i : Nat) : Prop :=
  ∃ write ∈ writes, write.offset ≤ i ∧ i < write.offset + write.data.length

/-- The file is as `content` wherever it was written, and not longer. -/
structure Agrees (content : List α) (writes : List (Write α)) (file : List α) : Prop where
  length_le : file.length ≤ content.length
  same : ∀ i, Covers writes i → file[i]? = content[i]?

theorem agrees_nil (content : List α) : Agrees content [] [] where
  length_le := Nat.zero_le _
  same := by
    rintro i ⟨write, mem, -⟩
    cases mem

variable {content : List α} {write : Write α}

theorem Write.In.fits (inside : write.In content) (full : write.data ≠ []) :
    write.offset + write.data.length ≤ content.length := by
  have length := congrArg List.length inside
  rw [length_take, length_drop] at length
  have positive := length_pos_iff.mpr full
  omega

theorem Write.In.getElem? (inside : write.In content) {i : Nat} (before : write.offset ≤ i)
    (within : i < write.offset + write.data.length) :
    write.data[i - write.offset]? = content[i]? := by
  rw [inside, getElem?_take, if_pos (by omega), getElem?_drop,
    Nat.add_sub_of_le before]

variable {file : List α}

theorem Write.length_apply {fill : α} (full : write.data ≠ []) :
    (write.apply fill file).length = max file.length (write.offset + write.data.length) := by
  rw [Write.apply]
  split
  next empty => exact absurd empty full
  next =>
    simp only [length_append, length_take, length_replicate, length_drop]
    omega

theorem Write.getElem?_apply {fill : α} {file : List α} {write : Write α} {i : Nat} :
    (write.offset ≤ i ∧ i < write.offset + write.data.length →
    (write.apply fill file)[i]? = write.data[i - write.offset]?) ∧
    (i < file.length → ¬ (write.offset ≤ i ∧ i < write.offset + write.data.length) →
    (write.apply fill file)[i]? = file[i]?) := by
  rw [Write.apply]
  split
  next empty =>
    rw [empty]
    refine ⟨?_, fun _ _ => rfl⟩
    rintro ⟨before, within⟩
    rw [length_nil] at within
    omega
  next =>
    have front : (file.take write.offset ++
        List.replicate (write.offset - file.length) fill).length = write.offset := by
      rw [length_append, length_take, length_replicate]
      omega
    constructor
    · rintro ⟨before, within⟩
      rw [append_assoc, getElem?_append_right (by omega), front,
        getElem?_append_left (by omega)]
    · intro inside outside
      by_cases before : i < write.offset
      · rw [append_assoc, append_assoc, getElem?_append_left, getElem?_take,
          if_pos before]
        rw [length_take]
        omega
      · rw [getElem?_append_right, length_append, getElem?_drop]
        · congr 1
          omega
        · rw [length_append]
          omega

variable {writes : List (Write α)}

/-- A further write of the right data at its place. -/
theorem Agrees.apply (agrees : Agrees content writes file) (inside : write.In content) (fill : α) :
    Agrees content (writes ++ [write]) (write.apply fill file) := by
  constructor
  · by_cases full : write.data = []
    · rw [Write.apply, full]
      exact agrees.length_le
    · rw [Write.length_apply full]
      exact Nat.max_le.mpr ⟨agrees.length_le, inside.fits full⟩
  · rintro i ⟨other, mem, before, within⟩
    obtain ⟨hit, miss⟩ := @Write.getElem?_apply α fill file write i
    by_cases here : write.offset ≤ i ∧ i < write.offset + write.data.length
    · rw [hit here, inside.getElem? here.1 here.2]
    · rcases mem_append.mp mem with old | new
      · have same := agrees.same i ⟨other, old, before, within⟩
        by_cases short : i < file.length
        · rw [miss short here, same]
        · -- nothing was there, so `content` ends before `i`
          rw [getElem?_eq_none (Nat.not_lt.mp short)] at same
          have ends := List.getElem?_eq_none_iff.mp same.symm
          rw [← same]
          apply getElem?_eq_none
          by_cases full : write.data = []
          · rw [Write.apply, full]
            exact Nat.not_lt.mp short
          · rw [Write.length_apply full]
            have := inside.fits full
            omega
      · obtain rfl := mem_singleton.mp new
        exact absurd ⟨before, within⟩ here

theorem eq_of_covers (agrees : Agrees content writes file)
    (covered : ∀ i < content.length, Covers writes i) : file = content := by
  refine ext_getElem? fun i => ?_
  by_cases short : i < content.length
  · exact agrees.same i (covered i short)
  · have long := Nat.not_lt.mp short
    rw [getElem?_eq_none long, getElem?_eq_none (Nat.le_trans agrees.length_le long)]

/-! ### Counting -/

def total (writes : List (Write α)) : Nat := (writes.map (·.data.length)).sum

/-- The pieces follow each other from `start` on. -/
def Consecutive : Nat → List (Write α) → Prop
  | _, [] => True
  | start, write :: writes => write.offset = start ∧ Consecutive (start + write.data.length) writes

@[simp] theorem total_nil : total ([] : List (Write α)) = 0 := rfl

@[simp] theorem total_cons (write : Write α) (writes : List (Write α)) :
    total (write :: writes) = write.data.length + total writes := rfl

@[simp] theorem total_append (first second : List (Write α)) :
    total (first ++ second) = total first + total second := by
  rw [total, map_append, sum_append, ← total, ← total]

theorem total_perm {first second : List (Write α)} (perm : first.Perm second) :
    total first = total second := (perm.map _).sum_nat

theorem length_le_total (mem : write ∈ writes) : write.data.length ≤ total writes := by
  induction writes with
  | nil => cases mem
  | cons other writes ih =>
    rcases mem_cons.mp mem with rfl | mem
    · exact Nat.le_add_right _ _
    · exact Nat.le_trans (ih mem) (Nat.le_add_left _ _)

theorem consecutive_append_singleton {start : Nat} (row : Consecutive start writes)
    (next : write.offset = start + total writes) : Consecutive start (writes ++ [write]) := by
  induction writes generalizing start with
  | nil => exact ⟨next, trivial⟩
  | cons other writes ih =>
    refine ⟨row.1, ih row.2 ?_⟩
    rw [next, total_cons, Nat.add_assoc]

theorem covers_of_consecutive {start : Nat} (row : Consecutive start writes) {i : Nat}
    (above : start ≤ i) (below : i < start + total writes) : Covers writes i := by
  induction writes generalizing start with
  | nil =>
    rw [total_nil] at below
    omega
  | cons write writes ih =>
    obtain ⟨rfl, rest⟩ := row
    by_cases here : i < write.offset + write.data.length
    · exact ⟨_, mem_cons_self, above, here⟩
    · obtain ⟨other, mem, covered⟩ := ih rest (Nat.not_lt.mp here) (by rw [total_cons] at below; omega)
      exact ⟨other, mem_cons_of_mem _ mem, covered⟩

/-- Where as much was written as there is, it was written everywhere. -/
theorem covers_of_total {pieces written rest : List (Write α)} (row : Consecutive 0 pieces)
    (perm : (written ++ rest).Perm pieces) {size : Nat} (most : total pieces ≤ size)
    (enough : size ≤ total written) : ∀ i < size, Covers written i := by
  have count := total_perm perm
  rw [total_append] at count
  intro i below
  obtain ⟨_, mem, before, within⟩ := covers_of_consecutive row (Nat.zero_le i) (by omega)
  rcases mem_append.mp (perm.mem_iff.mpr mem) with done | open'
  · exact ⟨_, done, before, within⟩
  · have := length_le_total open'
    omega

end OffsetWrites
