import Hdc.Transfer.Path

/-!
Where the receiver of the Rust implementation writes (`hdctransfer.rs`, `hdcfile.rs`, `base.rs`).

`check_local_path` joins the target and the optional name as texts, makes every directory on the way
to the result and creates the file there. Nothing looks for `..` in either of them, an empty target
becomes the root as soon as the name has layers, and the directories in front of the target are made
as well.

* `contained_iff`: exactly when all of that is at or below the target.
-/

namespace Hdc.Rust

open LexicalPath List

/-- A path as the standard library takes it. -/
structure Path where
  root : Bool
  names : List Bytes
deriving DecidableEq

def Path.parse (text : Bytes) : Path := ⟨text.head? = some 47, LexicalPath.names 47 text⟩

/-- The state of the file system, as far as it decides what is done. -/
structure Disk where
  cwd : List Bytes
  /-- `metadata`: whether there is something, and whether it is a directory. -/
  metadata : Bytes → Option Bool
  present : Path → Bool
  refuses : Path → Bool
  opens : Path → Bool

/-- The place that a path leads to by its letters. -/
def Disk.place (disk : Disk) (path : Path) : List Bytes :=
  follow 46 (if path.root then [] else disk.cwd) path.names

def Disk.Within (disk : Disk) (target path : Path) : Prop := disk.place target <+: disk.place path

/-- `create_dir_all` of the standard library makes the directories that are missing on the way, and
stops at the first that cannot be made. -/
def Disk.createDirAll (disk : Disk) (path : Path) : Bool × List Path :=
  let missing := (path.names.inits.tail.map (Path.mk path.root)).filter (! disk.present ·)
  (missing.all (! disk.refuses ·), missing.takeWhile (! disk.refuses ·))

/-! ### Joining -/

/-- `dedup_by` of `combine`: one empty piece of several in a row. -/
def dedup : List Bytes → List Bytes
  | [] => []
  | piece :: rest => if piece = [] ∧ rest.head? = some [] then dedup rest else piece :: dedup rest

def pieces (text : Bytes) : List Bytes := dedup (text.splitOn 47)

def join (list : List Bytes) : Bytes := [(47 : UInt8)].intercalate list

/-- How much of the beginning of `list2` ends `list1`. -/
def overlap (list1 list2 : List Bytes) : Nat :=
  ((List.range (list2.length + 1)).reverse.find? fun count =>
    (list2.take count).isSuffixOf list1).getD 0

/-- `Base::combine`. -/
def combine (src1 src2 : Bytes) : Bytes :=
  let list1 := pieces src1
  let list2 := pieces src2
  if list1 = [] then join list2
  else
    let list2 := list2.drop (overlap list1 list2)
    join (list1 ++ if (list2.head?.bind List.head?) = some 47 then list2.tail else list2)

/-! ### The check -/

structure HdcTransferBase where
  localPath : Bytes
  isLocalDirExsit : Option Bool
  isDir : Bool
  /-- Of the configuration that the task already has. -/
  updateIfNew : Bool

structure TransferConfig where
  path : Bytes
  optionalName : Bytes

/-- What was made and opened, and the result. -/
structure Trace where
  made : List Path
  opened : Option Path
  ok : Bool
deriving DecidableEq

def withSep (text : Bytes) : Bytes := if text.getLast? = some 47 then text else text ++ [47]

/-- The end of `check_local_path`: the directories and the file. -/
def create (disk : Disk) (localPath : Bytes) : Trace :=
  if localPath.getLast? = some 47 then
    let (ok, made) := disk.createDirAll (.parse localPath)
    ⟨made, none, ok⟩
  else
    let (ok, made) := if 47 ∈ localPath then
        disk.createDirAll (.parse (localPath.rdropWhile (· ≠ 47)).dropLast)
      else (true, [])
    if ok && disk.opens (.parse localPath) then ⟨made, some (.parse localPath), true⟩
    else ⟨made, none, false⟩

/-- `check_local_path`. -/
def checkLocalPath (disk : Disk) (transfer : HdcTransferBase) (localPath optionalName : Bytes) :
    HdcTransferBase × Trace :=
  let file := disk.metadata localPath
  let existed := transfer.isLocalDirExsit.getD file.isSome
  let path := if file = some true then withSep transfer.localPath else transfer.localPath
  let op := Transfer.normalized optionalName
  let path := if 47 ∈ op then withSep path else path
  let path := if path.getLast? = some 47 then
      combine path (if !existed && 47 ∈ op then op.dropWhile (· ≠ 47) else op)
    else path
  ({ transfer with
      localPath := path
      isLocalDirExsit := some existed
      isDir := file.getD transfer.isDir }, create disk path)

/-- `check_slaver`, from the configuration that was read. -/
def checkSlaver (disk : Disk) (transfer : HdcTransferBase) (config : TransferConfig) :
    HdcTransferBase × Trace :=
  let (transfer, trace) :=
    checkLocalPath disk { transfer with localPath := config.path } config.path config.optionalName
  (transfer, { trace with ok := trace.ok && !transfer.updateIfNew })

/-- All that was made or opened is at or below the target. -/
def Contained (disk : Disk) (target : Bytes) (trace : Trace) : Prop :=
  (∀ path ∈ trace.made, disk.Within (.parse target) path) ∧
    ∀ path, trace.opened = some path → disk.Within (.parse target) path

/-! ### Pieces -/

theorem filter_dedup (list : List Bytes) : (dedup list).filter (· ≠ []) = list.filter (· ≠ []) := by
  induction list with
  | nil => rfl
  | cons piece rest ih =>
    rw [dedup]
    split
    case isTrue both => rw [ih, filter_cons_of_neg (by simp [both.1])]
    case isFalse => rw [filter_cons, filter_cons, ih]

theorem filter_pieces (text : Bytes) : (pieces text).filter (· ≠ []) = names 47 text :=
  filter_dedup _

variable {list : List Bytes} {text : Bytes}

theorem free_of_names (kept : list.filter (· ≠ []) = names 47 text)
    {piece : Bytes} (mem : piece ∈ list) : 47 ∉ piece := by
  by_cases empty : piece = []
  · simp [empty]
  · have found : piece ∈ list.filter (· ≠ []) := by simp [mem, empty]
    rw [kept] at found
    exact (isName_of_mem_names found).2

theorem mem_pieces {piece : Bytes} (mem : piece ∈ pieces text) : 47 ∉ piece :=
  free_of_names (filter_pieces _) mem

theorem names_join (free : ∀ piece ∈ list, 47 ∉ piece) :
    names 47 (join list) = list.filter (· ≠ []) := by
  by_cases empty : list = []
  · simp [empty, join]
  · rw [names, join, splitOn_intercalate 47 free empty]

theorem join_concat (full : list ≠ []) (last : Bytes) :
    join (list ++ [last]) = join list ++ 47 :: last := by
  induction list with
  | nil => exact absurd rfl full
  | cons piece rest ih =>
    cases rest with
    | nil => simp [join]
    | cons next rest =>
      have later := ih (cons_ne_nil _ _)
      simp only [join, cons_append, intercalate_cons_cons, append_assoc] at later ⊢
      rw [later]

theorem dedup_ends (list : List Bytes) :
    (dedup list).head? = list.head? ∧ (dedup list).getLast? = list.getLast? := by
  induction list with
  | nil => exact ⟨rfl, rfl⟩
  | cons piece rest ih =>
    rw [dedup]
    split
    case isTrue both =>
      obtain ⟨rfl, next⟩ := both
      obtain ⟨_, rfl⟩ := head?_eq_some_iff.mp next
      exact ⟨ih.1, by rw [ih.2, getLast?_cons_cons]⟩
    case isFalse =>
      exact ⟨rfl, by rw [getLast?_cons, getLast?_cons, ih.2]⟩

theorem pieces_head (text : Bytes) :
    (pieces text).head? = some [] ↔ text = [] ∨ text.head? = some 47 := by
  rw [pieces, (dedup_ends _).1]
  cases text with
  | nil => simp
  | cons byte text =>
    rw [List.splitOn, splitOnP_cons_eq_if_modifyHead]
    by_cases sep : byte = 47
    · simp [sep]
    · cases List.splitOnP (· == 47) text <;> simp [sep]

theorem pieces_last (ends : text.getLast? = some 47) :
    ∃ list, pieces text = list ++ [[]] := by
  obtain ⟨front, rfl⟩ := getLast?_eq_some_iff.mp ends
  apply getLast?_eq_some_iff.mp
  have split : (front ++ [47]).splitOn 47 = front.splitOn 47 ++ [[]] :=
    splitOnP_append_cons front [] (by simp)
  rw [pieces, (dedup_ends _).2, split, getLast?_concat]

theorem join_head (free : ∀ piece ∈ list, 47 ∉ piece) (last : Bytes)
    (full : list ≠ []) : (join (list ++ [last])).head? = some 47 ↔ list.head? = some [] := by
  obtain ⟨piece, rest, rfl⟩ := exists_cons_of_ne_nil full
  obtain ⟨next, later, shape⟩ : ∃ next later, rest ++ [last] = next :: later :=
    exists_cons_of_ne_nil (by simp)
  rw [cons_append, shape, join]
  cases piece with
  | nil => simp
  | cons byte piece =>
    have other : byte ≠ 47 := by
      rintro rfl
      exact free _ mem_cons_self mem_cons_self
    simp [other]

/-! ### What is done for a path -/

variable (disk : Disk)

/-- A root alone has no names on the way. -/
theorem createDirAll_join (free : ∀ piece ∈ list, 47 ∉ piece)
    (full : list ≠ []) : disk.createDirAll (.parse (join list)) =
    disk.createDirAll ⟨list.head? = some [], list.filter (· ≠ [])⟩ := by
  rw [Path.parse, names_join free]
  rcases eq_nil_or_concat list with rfl | ⟨init, final, rfl⟩
  · exact absurd rfl full
  rw [concat_eq_append] at *
  by_cases single : init = []
  · subst single
    cases final with
    | nil => rfl
    | cons byte final =>
      have other : byte ≠ 47 := by
        rintro rfl
        exact free _ mem_cons_self mem_cons_self
      simp [join, other]
  · have head := join_head (fun piece mem => free _ (mem_append_left _ mem)) final single
    rw [head?_append_of_ne_nil _ single]
    simp only [head]

theorem create_joined {last : Bytes}
    (free : ∀ piece ∈ list ++ [last], 47 ∉ piece) (full : list ≠ []) :
    let root := decide (list.head? = some [])
    let dirs := list.filter (· ≠ [])
    let trace := create disk (join (list ++ [last]))
    trace.made = (disk.createDirAll ⟨root, dirs⟩).2 ∧
      trace.opened = if last ≠ [] ∧ (disk.createDirAll ⟨root, dirs⟩).1 = true ∧
        disk.opens ⟨root, dirs ++ [last]⟩ then some ⟨root, dirs ++ [last]⟩ else none := by
  intro root dirs trace
  have front : ∀ piece ∈ list, 47 ∉ piece := fun piece mem =>
    free piece (mem_append_left _ mem)
  have lastFree : 47 ∉ last := free last (by simp)
  have text : join (list ++ [last]) = join list ++ 47 :: last := join_concat full last
  have whole : Path.parse (join (list ++ [last])) = ⟨root, dirs ++ [last].filter (· ≠ [])⟩ := by
    rw [Path.parse, names_join free, filter_append]
    exact congrArg (Path.mk · _) (decide_eq_decide.mpr (join_head front _ full))
  by_cases empty : last = []
  · subst empty
    have ends : (join (list ++ [[]])).getLast? = some 47 := by rw [text, getLast?_concat]
    simp only [trace, create, ends, whole]
    simp
  · have ends : (join (list ++ [last])).getLast? ≠ some 47 := by
      obtain ⟨_, byte, rfl⟩ := (eq_nil_or_concat last).resolve_left empty
      have other : byte ≠ 47 := by
        rintro rfl
        exact lastFree (by simp)
      rw [text, concat_eq_append, ← cons_append, ← append_assoc,
        getLast?_concat]
      exact fun same => other (Option.some.inj same)
    have cut : ((join (list ++ [last])).rdropWhile (· ≠ 47)).dropLast = join list := by
      have skipped : ∀ byte ∈ last.reverse, decide (byte ≠ 47) = true := fun byte mem =>
        decide_eq_true (ne_of_mem_of_not_mem (mem_reverse.mp mem) lastFree)
      rw [text, List.rdropWhile, reverse_append, reverse_cons, append_assoc,
        dropWhile_append_of_pos skipped]
      simp
    have before : disk.createDirAll (.parse (join list)) = disk.createDirAll ⟨root, dirs⟩ :=
      createDirAll_join disk front full
    have inside : 47 ∈ join (list ++ [last]) := by simp [text]
    have wholeFile : Path.parse (join (list ++ [last])) = ⟨root, dirs ++ [last]⟩ := by
      rw [whole, filter_cons_of_pos (by simpa using empty), filter_nil]
    simp only [trace, create, if_neg ends, if_pos inside, cut, before, wholeFile]
    by_cases done : (disk.createDirAll ⟨root, dirs⟩).1 = true ∧ disk.opens ⟨root, dirs ++ [last]⟩
    · rw [if_pos (Bool.and_eq_true_iff.mpr done), if_pos ⟨empty, done⟩]
      exact ⟨rfl, rfl⟩
    · rw [if_neg (mt Bool.and_eq_true_iff.mp done), if_neg fun all => done all.2]
      exact ⟨rfl, rfl⟩

/-- `combine` of a directory keeps it and adds what is left of the name. -/
theorem combine_eq {src1 : Bytes} (ends : src1.getLast? = some 47) (src2 : Bytes) :
    combine src1 src2 =
    join (pieces src1 ++ (pieces src2).drop (overlap (pieces src1) (pieces src2))) := by
  obtain ⟨_, shape⟩ := pieces_last ends
  have some : pieces src1 ≠ [] := by simp [shape]
  have free : ((pieces src2).drop (overlap (pieces src1) (pieces src2))).head?.bind List.head? ≠
      .some 47 := by
    intro same
    obtain ⟨_, first, start⟩ := Option.bind_eq_some_iff.mp same
    exact mem_pieces (mem_of_mem_drop (mem_of_head? first)) (mem_of_head? start)
  simp only [combine, if_neg some, if_neg free]

/-! ### Containment -/

/-- The target is taken for a directory. -/
def joins (disk : Disk) (config : TransferConfig) : Bool :=
  disk.metadata config.path = some true || 47 ∈ Transfer.normalized config.optionalName ||
    config.path.getLast? = some 47

/-- The pieces of the name that go behind the target: without the first layer if the target was not
there in the beginning, and without what repeats the end of the target. -/
def added (existed : Bool) (config : TransferConfig) : List Bytes :=
  let op := Transfer.normalized config.optionalName
  let list := pieces (if !existed && 47 ∈ op then op.dropWhile (· ≠ 47) else op)
  list.drop (overlap (pieces (withSep config.path)) list)

/-- The directories that are missing are at or below the target, and the file is. -/
def Stays (disk : Disk) (existed : Bool) (config : TransferConfig) : Prop :=
  if joins disk config then
    let more := added existed config
    let root := decide (config.path = [] ∨ config.path.head? = some 47)
    let dirs := names 47 config.path ++ more.dropLast.filter (· ≠ [])
    (∀ path ∈ (disk.createDirAll ⟨root, dirs⟩).2, disk.Within (.parse config.path) path) ∧
      ∀ last, more.getLast? = some last → last ≠ [] → (disk.createDirAll ⟨root, dirs⟩).1 = true →
        disk.opens ⟨root, dirs ++ [last]⟩ →
          disk.Within (.parse config.path) ⟨root, dirs ++ [last]⟩
  else
    ∀ path ∈ (disk.createDirAll ⟨config.path.head? = some 47, (names 47 config.path).dropLast⟩).2,
      disk.Within (.parse config.path) path

theorem withSep_ends (text : Bytes) : (withSep text).getLast? = some 47 := by
  unfold withSep
  split
  case isTrue ends => exact ends
  case isFalse => exact getLast?_concat

theorem filter_withSep (text : Bytes) : (pieces (withSep text)).filter (· ≠ []) = names 47 text := by
  rw [filter_pieces, withSep]
  split
  · rfl
  · rw [names_append_sep, names_nil, append_nil]

theorem head_withSep (text : Bytes) :
    (pieces (withSep text)).head? = some [] ↔ text = [] ∨ text.head? = some 47 := by
  rw [pieces_head, withSep]
  cases text <;> split <;> simp

/-- The path that is left in the end. -/
theorem localPath_checkSlaver (transfer : HdcTransferBase) (config : TransferConfig) :
    (checkSlaver disk transfer config).1.localPath =
      if joins disk config then
        join (pieces (withSep config.path) ++
          added (transfer.isLocalDirExsit.getD (disk.metadata config.path).isSome) config)
      else config.path := by
  have ends := withSep_ends config.path
  have twice : withSep (withSep config.path) = withSep config.path := if_pos ends
  simp only [checkSlaver, checkLocalPath, joins, added]
  by_cases directory : disk.metadata config.path = some true <;>
    by_cases layers : 47 ∈ Transfer.normalized config.optionalName
  · simp [directory, layers, twice, ends, combine_eq ends]
  · simp [directory, layers, ends, combine_eq ends]
  · simp [directory, layers, ends, combine_eq ends]
  · by_cases closed : config.path.getLast? = some 47
    · have same : withSep config.path = config.path := if_pos closed
      simp [directory, layers, closed, same, combine_eq closed]
    · simp [directory, layers, closed]

theorem contained_joined (target : Bytes) {last : Bytes}
    {root : Bool} {dirs : List Bytes} (free : ∀ piece ∈ list ++ [last], 47 ∉ piece)
    (full : list ≠ []) (head : decide (list.head? = some []) = root)
    (names : list.filter (· ≠ []) = dirs) :
    Contained disk target (create disk (join (list ++ [last]))) ↔
    (∀ path ∈ (disk.createDirAll ⟨root, dirs⟩).2, disk.Within (.parse target) path) ∧
    (last ≠ [] → (disk.createDirAll ⟨root, dirs⟩).1 = true → disk.opens ⟨root, dirs ++ [last]⟩ →
    disk.Within (.parse target) ⟨root, dirs ++ [last]⟩) := by
  obtain ⟨made, opened⟩ := create_joined disk free full
  rw [head, names] at made opened
  rw [Contained, made, opened]
  refine and_congr_right fun _ => ⟨?_, ?_⟩
  · intro each named ok opens
    exact each _ (if_pos ⟨named, ok, opens⟩)
  · intro each path shape
    split at shape
    case isTrue all =>
      obtain rfl := Option.some.inj shape
      exact each all.1 all.2.1 all.2.2
    case isFalse => cases shape

/-- Nothing is made for a path without a separator. -/
theorem contained_alone {disk : Disk} {target : Bytes}
    (within : disk.Within (.parse target) (.parse text)) (free : 47 ∉ text) :
    Contained disk target (create disk text) := by
  have ends : text.getLast? ≠ some 47 := fun same => free (mem_of_getLast? same)
  simp only [create, if_neg ends, if_neg free]
  split
  · refine ⟨nofun, fun path opened => ?_⟩
    obtain rfl := Option.some.inj opened
    exact within
  · exact ⟨nofun, nofun⟩

/-- For every target and every name: what is made and opened is at or below the target exactly if
the pieces that go behind it stay there. -/
theorem contained_iff (disk : Disk) (transfer : HdcTransferBase) (config : TransferConfig) :
    Contained disk config.path (checkSlaver disk transfer config).2 ↔
      Stays disk (transfer.isLocalDirExsit.getD (disk.metadata config.path).isSome) config := by
  have trace : Contained disk config.path (checkSlaver disk transfer config).2 ↔
      Contained disk config.path (create disk (checkSlaver disk transfer config).1.localPath) :=
    Iff.rfl
  rw [trace, localPath_checkSlaver, Stays]
  generalize transfer.isLocalDirExsit.getD (disk.metadata config.path).isSome = existed
  by_cases joined : joins disk config = true
  · rw [if_pos joined, if_pos joined]
    have moreFree : ∀ piece ∈ added existed config, 47 ∉ piece := fun piece mem =>
      mem_pieces (mem_of_mem_drop mem)
    have free : ∀ piece ∈ pieces (withSep config.path), 47 ∉ piece := fun piece => mem_pieces
    have head := head_withSep config.path
    have named := filter_withSep config.path
    obtain ⟨list, shape⟩ := pieces_last (withSep_ends config.path)
    rcases eq_nil_or_concat (added existed config) with nothing | ⟨more, last, shape'⟩
    · rw [nothing, append_nil]
      rw [shape] at free head named ⊢
      by_cases alone : list = []
      · -- the root, or nothing at all: the text is empty then
        subst alone
        have dirs : names 47 config.path = [] := named.symm
        have within : disk.Within (.parse config.path) (.parse []) := by
          rcases head.mp rfl with empty | rooted
          · rw [empty]
            exact prefix_refl _
          · simp [Disk.Within, Disk.place, Path.parse, rooted, dirs, follow]
        simp only [dirs]
        refine iff_of_true ?_ ⟨forall_mem_nil _, fun last more => by cases more⟩
        exact contained_alone within not_mem_nil
      · rw [head?_append_of_ne_nil _ alone] at head
        have root : decide (list.head? = some []) =
            decide (config.path = [] ∨ config.path.head? = some 47) := decide_eq_decide.mpr head
        rw [contained_joined disk config.path free alone root (by simpa using named)]
        simp
    · rw [concat_eq_append] at shape'
      rw [shape'] at moreFree ⊢
      have full : pieces (withSep config.path) ++ more ≠ [] := by simp [shape]
      have root : decide ((pieces (withSep config.path) ++ more).head? = some []) =
          decide (config.path = [] ∨ config.path.head? = some 47) := by
        rw [head?_append_of_ne_nil _ (by simp [shape])]
        exact decide_eq_decide.mpr head
      rw [← append_assoc]
      have bothFree : ∀ piece ∈ pieces (withSep config.path) ++ more ++ [last], 47 ∉ piece := by
        intro piece mem
        rw [append_assoc] at mem
        exact (mem_append.mp mem).elim (free _) (moreFree _)
      rw [contained_joined disk config.path bothFree full root
        (by rw [filter_append, named])]
      simp
  · rw [if_neg joined, if_neg joined]
    have self : disk.Within (.parse config.path) (.parse config.path) := prefix_refl _
    rcases exists_last_piece 47 config.path with free | ⟨front, last, shape, free⟩
    · refine iff_of_true (contained_alone self free) ?_
      have none : (names 47 config.path).dropLast = [] := by
        rw [names_of_free free]
        split <;> rfl
      rw [none]
      exact forall_mem_nil _
    · have named : last ≠ [] := by
        rintro rfl
        exact joined (by simp [joins, shape])
      have pieceFree : ∀ piece ∈ front.splitOn 47, 47 ∉ piece := fun piece =>
        free_of_names (rfl : _ = names 47 front)
      have full : front.splitOn 47 ≠ [] := splitOnP_ne_nil _ _
      have whole : config.path = join (front.splitOn 47 ++ [last]) := by
        rw [join_concat full, shape]
        exact congrArg (· ++ 47 :: last) (intercalate_splitOn 47).symm
      have bothFree : ∀ piece ∈ front.splitOn 47 ++ [last], 47 ∉ piece := by
        simpa [or_imp, forall_and, free] using pieceFree
      have all : names 47 config.path = (front.splitOn 47).filter (· ≠ []) ++ [last] := by
        rw [whole, names_join bothFree, filter_append, filter_cons_of_pos (by simpa),
          filter_nil]
      have head := join_head pieceFree last full
      rw [← whole] at head
      have parsed : Path.parse config.path =
          ⟨config.path.head? = some 47, (front.splitOn 47).filter (· ≠ []) ++ [last]⟩ := by
        rw [Path.parse, all]
      rw [all, dropLast_concat, show create disk config.path =
        create disk (join (front.splitOn 47 ++ [last])) from congrArg _ whole]
      refine (contained_joined _ config.path bothFree full (decide_eq_decide.mpr head.symm)
        rfl).trans (and_iff_left fun _ _ _ => ?_)
      rw [← parsed]
      exact self

/-- A disk on which the directories are there already. -/
def fullDisk : Disk := ⟨[], fun _ => some true, fun _ => true, fun _ => false, fun _ => true⟩

/-- A name that goes up leads out of a directory that exists. -/
theorem name_leaves_target :
    let trace := (checkSlaver fullDisk ⟨[], none, false, false⟩ ⟨str "/data/in", str "../x"⟩).2
    trace = ⟨[], some ⟨true, [str "data", str "in", str "..", str "x"]⟩, true⟩ ∧
      fullDisk.place ⟨true, [str "data", str "in", str "..", str "x"]⟩ = [str "data", str "x"] ∧
      ¬ Contained fullDisk (str "/data/in") trace := by
  intro trace
  have shape : trace = ⟨[], some ⟨true, [str "data", str "in", str "..", str "x"]⟩, true⟩ := by
    decide +kernel
  refine ⟨shape, by decide +kernel, ?_⟩
  rintro ⟨-, file⟩
  have inside : [str "data", str "in"] <+: [str "data", str "x"] := file _ rfl
  exact absurd inside (by decide)

end Hdc.Rust
