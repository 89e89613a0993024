import Hdc.Host.CommandLine

/-!
The block of `SplitCommandToArgs` (`base.cpp`).

One block holds the table of the arguments and their texts behind it. Both sizes are computed from
the length of the line before it is read: a pointer for every second letter, and a byte for each. The
loop then moves a cursor in either part. The model notes whether every write was inside its part.

* `splitCommandToArgs_refines`: every write is inside, and the table leads to the arguments that
  `Base.splitCommandToArgs` cuts out of the line, each with a NUL behind it, up to a null pointer.
-/

namespace Hdc.ArgumentBlock

open List Base Host

/-- A pointer of the table; a text is given by its place behind the table. -/
inductive Slot
  | unset
  | null
  | text (place : Nat)
deriving DecidableEq

structure Block where
  argv : List Slot
  temp : Bytes
  inside : Bool

namespace Block

def writeSlot (b : Block) (argc : Nat) (slot : Slot) : Block :=
  { b with argv := b.argv.set argc slot, inside := b.inside && argc < b.argv.length }

def writeByte (b : Block) (j : Nat) (byte : UInt8) : Block :=
  { b with temp := b.temp.set j byte, inside := b.inside && j < b.temp.length }

/-- The C string at a place; none if no NUL follows inside the block. -/
def stringAt (b : Block) (place : Nat) : Option Bytes :=
  let rest := b.temp.drop place
  if 0 ∈ rest then some (rest.takeWhile (· ≠ 0)) else none

end Block

/-- The variables of the loop. -/
structure Scan where
  block : Block
  argc : Nat := 0
  j : Nat := 0
  isQuoted : Bool := false
  isText : Bool := false
  isSpace : Bool := true

namespace Scan

def begins (s : Scan) : Scan :=
  if s.isSpace then { s with block := s.block.writeSlot s.argc (.text s.j), argc := s.argc + 1 } else s

def put (s : Scan) (byte : UInt8) : Scan :=
  { s with block := s.block.writeByte s.j byte, j := s.j + 1 }

/-- One turn of the loop. -/
def step (s : Scan) (a : UInt8) : Scan :=
  if s.isQuoted then
    if a = 34 then { s with isQuoted := false } else s.put a
  else if a = 34 then { s.begins with isQuoted := true, isText := true, isSpace := false }
  else if a = 32 ∨ a = 9 ∨ a = 10 ∨ a = 13 then
    { if s.isText then s.put 0 else s with isText := false, isSpace := true }
  else { s.begins.put a with isText := true, isSpace := false }

end Scan

def slotCount (len : Nat) : Nat := (len + 2) / 2 + 1
def textSize (len : Nat) : Nat := len + 2

/-- `SplitCommandToArgs`; the block is not initialized. -/
def splitCommandToArgs (memory : Nat → UInt8) (cmdStringLine : Bytes) : Option (Block × Nat) :=
  let line := cmdStringLine.takeWhile (· ≠ 0)
  if line = [] then none
  else
    let fresh : Block :=
      ⟨List.replicate (slotCount line.length) .unset, (List.range (textSize line.length)).map memory, true⟩
    let s := line.foldl Scan.step { block := fresh.writeSlot 0 (.text 0) }
    some ((s.block.writeByte s.j 0).writeSlot s.argc .null, s.argc)

/-! ### What the block holds -/

/-- Texts, each with its NUL. -/
def texts (args : List Bytes) : Bytes := args.flatMap (· ++ [0])

/-- Where each of them begins. -/
def places (args : List Bytes) : List Slot :=
  (List.range args.length).map fun k => .text (texts (args.take k)).length

theorem texts_concat (args : List Bytes) (arg : Bytes) :
    texts (args ++ [arg]) = texts args ++ (arg ++ [0]) := by
  rw [texts, flatMap_append, flatMap_singleton, texts]

theorem places_concat (args : List Bytes) (arg : Bytes) :
    places (args ++ [arg]) = places args ++ [.text (texts args).length] := by
  have earlier : ∀ k ∈ List.range args.length, (args ++ [arg]).take k = args.take k := by
    intro k mem
    exact take_append_of_le_length (mem_range.mp mem).le
  rw [places, length_append, length_singleton, range_succ, map_append, map_singleton, take_left,
    map_congr_left fun k mem => by rw [earlier k mem], places]

theorem length_places (args : List Bytes) : (places args).length = args.length := by
  rw [places, length_map, length_range]

/-- A write behind what a buffer holds. -/
theorem prefix_set {α : Type} {content buffer : List α} (holds : content <+: buffer)
    (room : content.length < buffer.length) (value : α) :
    content ++ [value] <+: buffer.set content.length value := by
  obtain ⟨rest, rfl⟩ := holds
  cases rest with
  | nil => simp at room
  | cons old rest =>
    rw [set_append_right _ _ (Nat.le_refl _), Nat.sub_self, set_cons_zero]
    exact ⟨rest, by simp⟩

/-- The loop has read so many letters of a line, and the block holds the arguments so far. -/
structure Holds (len read : Nat) (quoted : Bool) (argv : List Bytes) (arg : Option Bytes)
    (s : Scan) : Prop where
  inside : s.block.inside = true
  slots : s.block.argv.length = slotCount len
  size : s.block.temp.length = textSize len
  table : places (argv ++ arg.toList) <+: s.block.argv
  text : texts argv ++ arg.getD [] <+: s.block.temp
  argc : s.argc = (argv ++ arg.toList).length
  j : s.j = (texts argv ++ arg.getD []).length
  /-- An argument has a letter or a quote, and a separator behind it. -/
  few : 2 * argv.length + arg.toList.length ≤ read
  short : s.j ≤ read
  flags : s.isQuoted = quoted ∧ s.isText = arg.isSome ∧ s.isSpace = arg.isNone
  begun : quoted = true → arg.isSome = true

variable {len read : Nat} {quoted : Bool} {argv : List Bytes} {arg : Option Bytes} {s : Scan}

/-- One more letter has been read. -/
theorem Holds.next (holds : Holds len read quoted argv arg s) :
    Holds len (read + 1) quoted argv arg s :=
  { holds with few := Nat.le_succ_of_le holds.few, short := Nat.le_succ_of_le holds.short }

theorem Holds.room (holds : Holds len read quoted argv arg s) (more : read ≤ len) :
    s.j < s.block.temp.length := by
  have short := holds.short
  rw [holds.size, textSize]
  omega

/-- What a byte at the cursor makes of the text. -/
theorem Holds.writeByte (holds : Holds len read quoted argv arg s) (more : read ≤ len)
    (byte : UInt8) :
    texts argv ++ arg.getD [] ++ [byte] <+: (s.block.writeByte s.j byte).temp ∧
      (s.block.writeByte s.j byte).inside = true := by
  have room := holds.room more
  have written := prefix_set holds.text (holds.j ▸ room) byte
  rw [← holds.j] at written
  exact ⟨written, by simp [Block.writeByte, holds.inside, room]⟩

/-- The next letter of an argument. -/
theorem Holds.put {sofar : Bytes} (holds : Holds len read quoted argv (some sofar) s)
    (more : read ≤ len) (behind : s.j < read) (byte : UInt8) :
    Holds len read quoted argv (some (sofar ++ [byte])) (s.put byte) := by
  obtain ⟨written, inside⟩ := holds.writeByte more byte
  have table := holds.table
  rw [Option.toList_some, places_concat] at table
  exact
    { holds with
      inside
      size := (length_set ..).trans holds.size
      table := by
        rw [Option.toList_some, places_concat]
        exact table
      text := by rwa [append_assoc] at written
      argc := holds.argc.trans (by simp)
      j := by simp [Scan.put, holds.j, Nat.add_assoc]
      short := behind
      begun := fun _ => rfl }

/-- The end of an argument. -/
theorem Holds.ends {sofar : Bytes} (holds : Holds len read false argv (some sofar) s)
    (more : read < len) :
    Holds len (read + 1) false (argv ++ [sofar]) none
      { s.put 0 with isText := false, isSpace := true } := by
  obtain ⟨written, inside⟩ := holds.writeByte more.le 0
  have few := holds.few
  rw [Option.getD_some, append_assoc, ← texts_concat] at written
  exact
    { inside
      slots := holds.slots
      size := (length_set ..).trans holds.size
      table := by
        rw [Option.toList_none, append_nil]
        exact holds.table
      text := by
        rw [Option.getD_none, append_nil]
        exact written
      argc := holds.argc.trans (by simp)
      j := by simp [Scan.put, holds.j, texts_concat, Nat.add_assoc]
      few := by simp at few ⊢; omega
      short := Nat.succ_le_succ holds.short
      flags := ⟨holds.flags.1, rfl, rfl⟩
      begun := fun impossible => absurd impossible (by decide) }

/-- An argument begins, unless one has begun. -/
theorem Holds.begins (holds : Holds len read quoted argv arg s) (more : read < len) :
    Holds len (read + 1) quoted argv (some (arg.getD []))
        { s.begins with isText := true, isSpace := false } ∧ s.begins.j ≤ read := by
  obtain ⟨-, -, space⟩ := holds.flags
  have few := holds.few
  cases arg with
  | some sofar =>
    rw [Scan.begins, space]
    exact ⟨{ holds.next with flags := ⟨holds.flags.1, rfl, rfl⟩ }, holds.short⟩
  | none =>
    rw [Option.toList_none, length_nil, Nat.add_zero] at few
    have table := holds.table
    have argc := holds.argc
    have text := holds.text
    have j := holds.j
    rw [Option.toList_none, append_nil] at table argc
    rw [Option.getD_none, append_nil] at text j
    have room : s.argc < s.block.argv.length := by
      rw [holds.slots, argc, slotCount]
      omega
    rw [← length_places] at argc
    have written := prefix_set table (argc ▸ room) (.text s.j)
    rw [← argc, j, ← places_concat argv []] at written
    rw [Scan.begins, space]
    refine ⟨?_, holds.short⟩
    exact
      { inside := by simp [Block.writeSlot, holds.inside, room]
        slots := (length_set ..).trans holds.slots
        size := holds.size
        table := by
          simp only [Option.isNone_none, if_true, Block.writeSlot, j]
          exact written
        text := by
          rw [Option.getD_some, Option.getD_none, append_nil]
          exact text
        argc := by simp [argc, length_places]
        j := by simpa using j
        few := by simp; omega
        short := Nat.le_succ_of_le holds.short
        flags := ⟨holds.flags.1, rfl, rfl⟩
        begun := fun _ => rfl }

/-- One turn of the loop for one letter of `splitArgsFrom`. -/
theorem Holds.step (holds : Holds len read quoted argv arg s) (more : read < len) (byte : UInt8) :
    ∃ quoted' argv' arg', Holds len (read + 1) quoted' argv' arg' (s.step byte) ∧
      ∀ rest, splitArgsFrom quoted argv arg (byte :: rest) =
        splitArgsFrom quoted' argv' arg' rest := by
  obtain ⟨quote, isText, isSpace⟩ := holds.flags
  cases quoted with
  | true =>
    by_cases close : byte = 34
    · refine ⟨false, argv, arg, ?_, fun rest => by rw [close, splitArgsFrom_close]⟩
      rw [Scan.step, quote, if_pos rfl, if_pos close]
      exact { holds.next with
        flags := ⟨rfl, isText, isSpace⟩
        begun := fun impossible => absurd impossible (by decide) }
    · refine ⟨true, argv, _, ?_, fun rest => splitArgsFrom_inside _ _ _ close⟩
      rw [Scan.step, quote, if_pos rfl, if_neg close]
      obtain ⟨sofar, rfl⟩ := Option.isSome_iff_exists.mp (holds.begun rfl)
      exact holds.next.put more (Nat.lt_succ_of_le holds.short) byte
  | false =>
    by_cases opens : byte = 34
    · refine ⟨true, argv, _, ?_, fun rest => by rw [opens, splitArgsFrom_open]⟩
      rw [Scan.step, quote, if_neg Bool.false_ne_true, if_pos opens]
      obtain ⟨begun, -⟩ := holds.begins more
      exact { begun with flags := ⟨rfl, rfl, rfl⟩, begun := fun _ => rfl }
    by_cases separates : Separates byte
    · refine ⟨false, _, none, ?_, fun rest => splitArgsFrom_separator _ _ _ separates⟩
      have blank : byte = 32 ∨ byte = 9 ∨ byte = 10 ∨ byte = 13 := separates
      rw [Scan.step, quote, if_neg Bool.false_ne_true, if_neg opens, if_pos blank, isText]
      cases arg with
      | some sofar => exact holds.ends more
      | none =>
        rw [Option.toList_none, append_nil]
        exact { holds.next with flags := ⟨quote, rfl, rfl⟩ }
    · refine ⟨false, argv, _, ?_, fun rest => splitArgsFrom_letter _ _ _ opens separates⟩
      have letter : ¬ (byte = 32 ∨ byte = 9 ∨ byte = 10 ∨ byte = 13) := separates
      rw [Scan.step, quote, if_neg Bool.false_ne_true, if_neg opens, if_neg letter]
      obtain ⟨begun, behind⟩ := holds.begins more
      exact begun.put more (Nat.lt_succ_of_le behind) byte

theorem Holds.foldl (holds : Holds len read quoted argv arg s) {line : Bytes}
    (more : read + line.length ≤ len) :
    ∃ quoted' argv' arg', Holds len (read + line.length) quoted' argv' arg' (line.foldl Scan.step s) ∧
      splitArgsFrom quoted argv arg line = argv' ++ arg'.toList := by
  induction line generalizing read quoted argv arg s with
  | nil => exact ⟨_, _, _, holds, splitArgsFrom_nil ..⟩
  | cons byte line ih =>
    rw [length_cons] at more
    obtain ⟨_, _, _, next, same⟩ := holds.step (by omega) byte
    obtain ⟨_, _, _, last, split⟩ := ih next (by omega)
    rw [length_cons, Nat.add_comm line.length 1, ← Nat.add_assoc, same]
    exact ⟨_, _, _, last, split⟩

/-! ### What comes back -/

/-- All writes were inside, and the table leads to these arguments. -/
structure Block.Leads (block : Block) (args : List Bytes) : Prop where
  inside : block.inside = true
  null : block.argv[args.length]? = some Slot.null
  pointers : ∀ (k : Nat) (arg : Bytes), args[k]? = some arg →
    ∃ place, block.argv[k]? = some (Slot.text place) ∧ block.stringAt place = some arg

/-- The text of an argument is at its place. -/
theorem stringAt_place {block : Block} {args : List Bytes} (text : texts args <+: block.temp)
    (free : ∀ arg ∈ args, ∀ byte ∈ arg, byte ≠ 0) {k : Nat} (inRange : k < args.length) :
    block.stringAt (texts (args.take k)).length = some args[k] := by
  obtain ⟨more, whole⟩ := text
  have cut : args = args.take k ++ args[k] :: args.drop (k + 1) := by
    rw [← drop_eq_getElem_cons inRange, take_append_drop]
  have split : texts args = texts (args.take k) ++ (args[k] ++ [0] ++ texts (args.drop (k + 1))) := by
    conv_lhs => rw [cut, texts, flatMap_append, flatMap_cons]
    rfl
  have letters : ∀ byte ∈ args[k], decide (byte ≠ 0) = true := fun byte mem =>
    decide_eq_true (free _ (getElem_mem inRange) byte mem)
  rw [Block.stringAt, ← whole, split, append_assoc, drop_left, append_assoc, append_assoc,
    if_pos (by simp), takeWhile_append_of_pos letters]
  simp

/-- The last two writes. -/
theorem Holds.finish (holds : Holds len len quoted argv arg s) (free : ∀ out ∈ argv ++ arg.toList,
    ∀ byte ∈ out, byte ≠ 0) :
    ((s.block.writeByte s.j 0).writeSlot s.argc .null).Leads (argv ++ arg.toList) := by
  obtain ⟨written, inside⟩ := holds.writeByte (Nat.le_refl _) 0
  have text : texts (argv ++ arg.toList) <+: (s.block.writeByte s.j 0).temp := by
    refine IsPrefix.trans ?_ written
    cases arg with
    | none => simp
    | some sofar =>
      rw [Option.toList_some, texts_concat, ← append_assoc]
      exact prefix_rfl
  have few := holds.few
  have argc := holds.argc
  have one : arg.toList.length ≤ 1 := by cases arg <;> simp
  have room : s.argc < s.block.argv.length := by
    rw [holds.slots, argc, slotCount, length_append]
    omega
  rw [← length_places] at argc
  obtain ⟨more, table⟩ := prefix_set holds.table (argc ▸ room) Slot.null
  rw [← argc, append_assoc] at table
  refine ⟨?_, ?_, fun k out here => ?_⟩
  · simp only [Block.writeSlot, inside, Bool.true_and, decide_eq_true_eq]
    exact room
  · change (s.block.argv.set s.argc Slot.null)[_]? = _
    rw [← table, ← length_places, getElem?_append_right (Nat.le_refl _), Nat.sub_self]
    rfl
  · obtain ⟨inRange, rfl⟩ := List.getElem?_eq_some_iff.mp here
    refine ⟨(texts ((argv ++ arg.toList).take k)).length, ?_, stringAt_place text free inRange⟩
    change (s.block.argv.set s.argc Slot.null)[_]? = _
    rw [← table, getElem?_append_left (by rwa [length_places]), places, getElem?_map,
      getElem?_range inRange]
    rfl

/-- Every write is inside the block, and what comes back are the arguments of the line. -/
theorem splitCommandToArgs_refines (memory : Nat → UInt8) (cmdStringLine : Bytes) :
    (splitCommandToArgs memory cmdStringLine = none ∧
        Base.splitCommandToArgs cmdStringLine = none) ∨
      ∃ block args, splitCommandToArgs memory cmdStringLine = some (block, args.length) ∧
        Base.splitCommandToArgs cmdStringLine = some args ∧ block.Leads args := by
  have letters : ∀ byte ∈ cmdStringLine.takeWhile (· ≠ 0), byte ≠ 0 := fun byte mem => by
    simpa using mem_takeWhile_imp mem
  rw [splitCommandToArgs, Base.splitCommandToArgs]
  generalize cmdStringLine.takeWhile (· ≠ 0) = line at letters
  cases line with
  | nil => exact .inl ⟨rfl, rfl⟩
  | cons first rest =>
    right
    have start : Holds (first :: rest).length 0 false [] none
        { block := Block.writeSlot ⟨List.replicate (slotCount (first :: rest).length) .unset,
            (List.range (textSize (first :: rest).length)).map memory, true⟩ 0 (.text 0) } := by
      constructor <;> simp [Block.writeSlot, slotCount, textSize, places, texts]
    obtain ⟨_, argv, arg, last, split⟩ := start.foldl (Nat.zero_add _).le
    rw [Nat.zero_add] at last
    have free : ∀ out ∈ argv ++ arg.toList, ∀ byte ∈ out, byte ≠ 0 := by
      rw [← split]
      exact splitArgsFrom_forall (by simp) (by simp) fun byte mem _ => letters byte mem
    refine ⟨_, argv ++ arg.toList, ?_, congrArg some split, last.finish free⟩
    rw [if_neg (cons_ne_nil _ _), ← last.argc]

end Hdc.ArgumentBlock
