import Mathlib.Data.List.Basic

/-!
Records of a fixed size, read and written by position.

A record is a row of cells; a field is a stretch of them. Putting something into a field
leaves every field alone that it does not reach into.

* `get_put`, `get_put_inside`: a field begins with what was put there, and goes on as it
  was;
* `get_put_before`, `get_put_after`: the other fields.
-/

namespace FixedRecord

open List

variable {α : Type} {n : Nat}

/-- A row of `n` cells. -/
structure Record (α : Type) (n : Nat) where
  cells : List α
  length_cells : cells.length = n
deriving DecidableEq, Repr

namespace Record

/-- The same value everywhere. -/
def fill (n : Nat) (value : α) : Record α n where
  cells := List.replicate n value
  length_cells := length_replicate

/-- The field of `len` cells at `off`. -/
def get (r : Record α n) (off len : Nat) : List α := (r.cells.drop off).take len

/-- The record with `data` at `off`. -/
def put (r : Record α n) (off : Nat) (data : List α) (fits : off + data.length ≤ n) :
    Record α n where
  cells := r.cells.take off ++ data ++ r.cells.drop (off + data.length)
  length_cells := by
    have := r.length_cells
    simp only [length_append, length_take, length_drop]
    omega

variable {r : Record α n} {off : Nat} {data : List α} {fits : off + data.length ≤ n}

theorem cells_put : (r.put off data fits).cells =
    r.cells.take off ++ (data ++ r.cells.drop (off + data.length)) := append_assoc ..

/-- What comes before the data. -/
theorem length_front (fits : off + data.length ≤ n) : (r.cells.take off).length = off := by
  rw [length_take, r.length_cells]
  omega

variable {len : Nat}

theorem get_put (wide : data.length ≤ len) :
    (r.put off data fits).get off len = data ++ r.get (off + data.length) (len - data.length) := by
  have front := r.length_front fits
  rw [get, cells_put, get, drop_append_of_le_length (by omega), drop_take,
    Nat.sub_self, take_zero, nil_append, take_append, take_of_length_le wide]

theorem get_put_inside (narrow : len ≤ data.length) :
    (r.put off data fits).get off len = data.take len := by
  have front := r.length_front fits
  rw [get, cells_put, drop_append_of_le_length (by omega), drop_take,
    Nat.sub_self, take_zero, nil_append, take_append_of_le_length narrow]

theorem get_put_before {at' : Nat} (before : at' + len ≤ off) :
    (r.put off data fits).get at' len = r.get at' len := by
  have front := r.length_front fits
  rw [get, cells_put, get, drop_append_of_le_length (by omega),
    take_append_of_le_length (by rw [length_drop]; omega), drop_take,
    take_take]
  congr 1
  omega

theorem get_put_after {at' : Nat} (after : off + data.length ≤ at') :
    (r.put off data fits).get at' len = r.get at' len := by
  have front := r.length_front fits
  rw [get, cells_put, get, drop_append, drop_of_length_le (by omega), nil_append,
    drop_append, drop_of_length_le (by omega), nil_append, drop_drop, front]
  congr 2
  omega

/-- A whole record that is put in takes the place of everything. -/
theorem put_cells (whole : Record α n) (same : 0 + whole.cells.length ≤ n) :
    r.put 0 whole.cells same = whole := by
  obtain ⟨cells, rfl⟩ := whole
  simp [put, drop_of_length_le, r.length_cells]

theorem put_whole {whole : Record α n} (same : data = whole.cells) (inside : 0 + data.length ≤ n) :
    r.put 0 data inside = whole := by
  subst same
  exact put_cells _ inside

end Record

end FixedRecord
