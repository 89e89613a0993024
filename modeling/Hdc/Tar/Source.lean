import Hdc.Tar.Copy

/-!
What `Compress` is given: directories and regular files below the prefix, each with what
`lstat` said when it was added. What the file holds when the archive is written is another
matter, `found`.

* `Source.entry_name`: the name that comes to stand in the header. It is the name of the
  source exactly up to 198 bytes (`recorded_eq_iff`);
* `Source.writeToTar_block`: where the file holds as many bytes as its header says, a whole
  block is written.
-/

namespace Hdc.Tar

open List Header OutStream

open Transfer (sIfmt sIfdir sIfreg)

/-- A directory or a regular file, below the limit of the source, that is to be archived. -/
structure Source where
  name : Bytes
  stat : Stat
  free : 0 ∉ name
  kind : stat.mode &&& sIfmt = sIfdir ∨ stat.mode &&& sIfmt = sIfreg
  small : stat.mode &&& sIfmt = sIfreg → stat.size < entryMaxFileSize

namespace Source

/-- The path of a source below the prefix. -/
def path (pathPrefix : Bytes) (source : Source) : Bytes := pathPrefix ++ 47 :: source.name

def isFile (source : Source) : Bool := source.stat.mode &&& sIfmt = sIfreg

/-- The entry that `AddEntry` makes of a source. -/
def entry (pathPrefix : Bytes) (source : Source) : Entry :=
  .new pathPrefix (source.path pathPrefix) (some source.stat)

/-- What a source stands for when the archive is written. -/
def node (found : Bytes → Option Bytes) (pathPrefix : Bytes) (source : Source) : Node :=
  if source.isFile then .file ((found (cStr (source.path pathPrefix))).getD []) else .dir

def item (found : Bytes → Option Bytes) (pathPrefix : Bytes) (source : Source) : Item :=
  ⟨source.name, source.node found pathPrefix⟩

/-- The file can be opened, and holds as many bytes as when it was added. -/
def Unchanged (found : Bytes → Option Bytes) (pathPrefix : Bytes) (source : Source) : Prop :=
  source.isFile = true → ∃ content, found (cStr (source.path pathPrefix)) = some content ∧
    content.length = source.stat.size

/-- What an archive comes to hold: a file that was empty when it was added is not opened. -/
def archived (found : Bytes → Option Bytes) (pathPrefix : Bytes) (source : Source) : Node :=
  if source.isFile then
    .file (if source.stat.size = 0 then [] else (found (cStr (source.path pathPrefix))).getD [])
  else .dir

def archivedItem (found : Bytes → Option Bytes) (pathPrefix : Bytes) (source : Source) : Item :=
  ⟨source.name, source.archived found pathPrefix⟩

/-- What is written of a source is as long as its header says. -/
def Sound (found : Bytes → Option Bytes) (pathPrefix : Bytes) (source : Source) : Prop :=
  source.stat.size = 0 ∨ source.Unchanged found pathPrefix

theorem archivedItem_of_unchanged {found : Bytes → Option Bytes} {pathPrefix : Bytes}
    {source : Source} (unchanged : source.Unchanged found pathPrefix) :
    source.archivedItem found pathPrefix = source.item found pathPrefix := by
  rw [archivedItem, item, archived, node]
  split
  case isFalse => rfl
  case isTrue kind =>
    obtain ⟨_, opened, length⟩ := unchanged kind
    split
    case isFalse => rfl
    case isTrue empty =>
      obtain rfl := length_eq_zero_iff.mp (length.trans empty)
      rw [opened, Option.getD_some]

end Source

/-- A row in which not all is well begins with a part that is, and goes on with something
that is not. -/
theorem exists_first_not {α : Type} {P : α → Prop} [DecidablePred P] {row : List α}
    (some : ¬ ∀ a ∈ row, P a) :
    ∃ goods bad rest, row = goods ++ bad :: rest ∧ (∀ a ∈ goods, P a) ∧ ¬ P bad := by
  push Not at some
  obtain ⟨a, mem, wrong⟩ := some
  have isSome : (row.find? fun a => !decide (P a)).isSome = true :=
    find?_isSome.mpr ⟨a, mem, by simpa using wrong⟩
  obtain ⟨bad, first⟩ := Option.isSome_iff_exists.mp isSome
  obtain ⟨refused, goods, rest, split, before⟩ := find?_eq_some_iff_append.mp first
  refine ⟨_, _, _, split, fun good inGoods => ?_, by simpa using refused⟩
  simpa using before good inGoods

/-! ### Names -/

/-- The name that a header comes to hold. -/
def recorded (name : Bytes) : Bytes :=
  if headerMaxFileLen ≤ name.length then []
  else if name.length < headerNameLen then name
  else (name.take (name.length - 99)).take 99 ++ name.drop (name.length - 99)

theorem recorded_eq_iff (name : Bytes) : recorded name = name ↔ name.length ≤ 198 := by
  rw [recorded, headerMaxFileLen, headerNameLen]
  by_cases long : 255 ≤ name.length
  · rw [if_pos long]
    constructor
    · rintro rfl
      exact Nat.zero_le _
    · intro fits
      omega
  · by_cases short : name.length < 100
    · rw [if_neg long, if_pos short]
      exact ⟨fun _ => by omega, fun _ => rfl⟩
    · rw [if_neg long, if_neg short]
      constructor
      · intro same
        have length := congrArg List.length same
        simp only [length_append, length_take, length_drop] at length
        omega
      · intro fits
        rw [take_of_length_le (by rw [length_take]; omega), take_append_drop]

/-- A header without a name, with a name written into it. -/
theorem Header.name_updataName {header : Header} (blank : header.name = []) {name : Bytes}
    (free : 0 ∉ name) : (header.updataName name).2.name = recorded name := by
  have front : cStr (header.get 345 headerPrefixLen) = [] := by
    rw [name_eq] at blank
    exact (append_eq_nil_iff.mp blank).1
  rw [recorded]
  split_ifs with long short
  · rw [updataName, if_pos long]
    exact blank
  · rw [name_updataName_short header free short, front, nil_append]
  · exact name_updataName_long header free (Nat.not_lt.mp short) (Nat.not_le.mp long)

namespace Entry

theorem name_new : Header.new.name = [] := by decide +kernel

/-- `lstat` gives the kind and the size; the name is still to come. -/
theorem name_label (stat : Option Stat) : (label stat).1.name = [] := by
  rw [label.eq_def]
  split
  · exact name_new
  split_ifs
  · rw [Header.name_updataSize, Header.name_updataFileType, name_new]
  · rw [Header.name_updataFileType, Header.name_updataSize, name_new]
  · exact name_new
  · exact name_new

end Entry

/-- The kind of a file decides the bits of its mode. -/
theorem bit_of_kind {mode kind bit : UInt32} (known : mode &&& sIfmt = kind)
    (part : sIfmt &&& bit = bit) : mode &&& bit = kind &&& bit := by
  rw [← known, UInt32.and_assoc, part]

namespace Source

variable (pathPrefix : Bytes) (source : Source)

theorem dirBit_of_dir (dir : source.stat.mode &&& sIfmt = sIfdir) :
    source.stat.mode &&& sIfdir ≠ 0 := by
  rw [bit_of_kind dir rfl]
  decide

theorem bits_of_file (file : source.stat.mode &&& sIfmt = sIfreg) :
    source.stat.mode &&& sIfdir = 0 ∧ source.stat.mode &&& sIfreg ≠ 0 := by
  rw [bit_of_kind file rfl, bit_of_kind file rfl]
  decide

/-- The entry of a source: its header is labelled by `lstat`, and the name is what comes
behind the prefix. -/
theorem entry_eq : source.entry pathPrefix =
    { header := ((Entry.label (some source.stat)).1.updataName source.name).2
      needSize := (Entry.label (some source.stat)).2
      pathPrefix := pathPrefix ++ [47] } := by
  have behind : stripPrefix (source.path pathPrefix) (pathPrefix ++ [47]) = some source.name := by
    have whole : source.path pathPrefix = pathPrefix ++ [47] ++ source.name := by
      rw [path, append_assoc, singleton_append]
    rw [whole, stripPrefix, if_pos (List.isPrefixOf_iff_prefix.mpr (prefix_append _ _)),
      drop_left]
  rw [entry, Entry.new, Entry.updataName, if_pos (by simp), behind]

theorem entry_name : (source.entry pathPrefix).header.name = recorded source.name := by
  rw [entry_eq]
  exact name_updataName (Entry.name_label _) source.free

theorem entry_getName :
    (source.entry pathPrefix).getName = pathPrefix ++ 47 :: recorded source.name := by
  have ends : (pathPrefix ++ [47]).getLast? = some 47 := getLast?_concat
  rw [Entry.getName, entry_name, entry_eq]
  rw [if_pos (by simp), if_neg (not_not.mpr ends), append_assoc, singleton_append]

theorem entry_dir (dir : source.isFile = false) :
    (source.entry pathPrefix).header.fileType = .directory := by
  have mode := source.kind.resolve_right (by simpa [isFile] using dir)
  rw [entry_eq, Entry.label, if_pos (source.dirBit_of_dir mode)]
  rw [fileType_updataName, fileType_updataSize, fileType_updataFileType]

theorem entry_file (file : source.isFile = true) :
    (source.entry pathPrefix).header.fileType = .ordinaryFile ∧
      (source.entry pathPrefix).header.size = source.stat.size ∧
      (source.entry pathPrefix).needSize = source.stat.size := by
  have mode : source.stat.mode &&& sIfmt = sIfreg := by simpa [isFile] using file
  obtain ⟨notDir, regular⟩ := source.bits_of_file mode
  have small := source.small mode
  have digits : source.stat.size < 8 ^ 11 := small.trans (by decide)
  rw [entry_eq, Entry.label, if_neg (not_not.mpr notDir), if_pos regular, if_pos small]
  rw [fileType_updataName, size_updataName, fileType_updataFileType,
    size_updataFileType, size_updataSize _ digits]
  exact ⟨rfl, rfl, rfl⟩

end Source

/-! ### Writing -/

theorem OutStream.write_of_good {file : OutStream} (good : file.failed = false) (data : Bytes) :
    file.write data = { file with written := file.written ++ data } :=
  if_neg (Bool.eq_false_iff.mp good)

theorem OutStream.insert_of_good {file : OutStream} (good : file.failed = false) (byte : UInt8)
    (rest : Bytes) : file.insert (some (byte :: rest)) =
      { file with written := file.written ++ byte :: rest } := by
  rw [insert.eq_def, if_neg (Bool.eq_false_iff.mp good)]

theorem OutStream.isPrefix_write (file : OutStream) (data : Bytes) :
    file.written <+: (file.write data).written := by
  rw [write]
  split
  · exact prefix_refl _
  · exact prefix_append _ _

theorem OutStream.isPrefix_insert (file : OutStream) (inFile : Option Bytes) :
    file.written <+: (file.insert inFile).written := by
  rw [insert.eq_def]
  split
  · exact prefix_refl _
  split
  · exact prefix_refl _
  · exact prefix_refl _
  · exact prefix_append _ _

/-- Nothing that was written is taken back. -/
theorem Entry.isPrefix_writeToTar (entry : Entry) (found : Bytes → Option Bytes)
    (file : OutStream) : file.written <+: (entry.writeToTar found file).2.written := by
  rw [writeToTar.eq_def]
  split
  · dsimp only
    split
    · exact file.isPrefix_write _
    · exact (file.isPrefix_write _).trans
        ((isPrefix_insert _ _).trans (isPrefix_write _ _))
  · exact file.isPrefix_write _
  · exact prefix_refl _

theorem Compress.isPrefix_writeEntrys (found : Bytes → Option Bytes) (entrys : List Entry)
    (file : OutStream) : file.written <+: (writeEntrys found entrys file).written := by
  induction entrys generalizing file with
  | nil => exact prefix_refl _
  | cons entry entrys ih => exact (entry.isPrefix_writeToTar _ file).trans (ih _)

theorem Compress.writeEntrys_split (found : Bytes → Option Bytes) (pathPrefix : Bytes)
    (goods rest : List Source) (bad : Source) (file : OutStream) :
    writeEntrys found ((goods ++ bad :: rest).map (Source.entry pathPrefix)) file =
      writeEntrys found (rest.map (Source.entry pathPrefix))
        ((bad.entry pathPrefix).writeToTar found
          (writeEntrys found (goods.map (Source.entry pathPrefix)) file)).2 := by
  rw [map_append, writeEntrys, foldl_append]
  rfl

namespace Source

variable {found : Bytes → Option Bytes} {pathPrefix : Bytes} {source : Source} {file : OutStream}

/-- The header comes first. -/
theorem writeToTar_header (good : file.failed = false) :
    file.written ++ (source.entry pathPrefix).header.getBytes <+:
      ((source.entry pathPrefix).writeToTar found file).2.written := by
  have first := file.write_of_good good (source.entry pathPrefix).header.getBytes
  rw [Entry.writeToTar.eq_def]
  cases kind : source.isFile with
  | false =>
    rw [source.entry_dir pathPrefix kind]
    rw [first]
  | true =>
    rw [(source.entry_file pathPrefix kind).1]
    dsimp only
    rw [first]
    split
    · exact prefix_refl _
    · exact (isPrefix_insert ⟨_, _⟩ _).trans (isPrefix_write _ _)

/-- With its name in the header and as many bytes as the header says, a source is written
as a block. -/
theorem writeToTar_block (fits : source.name.length ≤ 198) (sound : source.Sound found pathPrefix)
    (good : file.failed = false) :
    ((source.entry pathPrefix).writeToTar found file).2 = { file with
      written := file.written ++ ((source.entry pathPrefix).header.getBytes ++
        payload (source.archived found pathPrefix)) } := by
  have first := file.write_of_good good (source.entry pathPrefix).header.getBytes
  rw [Entry.writeToTar.eq_def, archived]
  cases kind : source.isFile with
  | false =>
    rw [source.entry_dir pathPrefix kind, if_neg Bool.false_ne_true, payload, append_nil]
    exact first
  | true =>
    obtain ⟨type, size, needSize⟩ := source.entry_file pathPrefix kind
    rw [type, size, needSize, if_pos rfl]
    dsimp only
    rw [first]
    by_cases empty : source.stat.size = 0
    · rw [if_pos empty, if_pos empty]
      simp [payload, Entry.padding]
    · obtain ⟨_, opened, length⟩ := sound.resolve_left empty kind
      obtain ⟨byte, rest, rfl⟩ := exists_cons_of_length_pos
        (length.symm ▸ Nat.pos_of_ne_zero empty)
      have whole := @insert_of_good { file with
        written := file.written ++ (source.entry pathPrefix).header.getBytes } good byte rest
      rw [if_neg empty, if_neg empty, entry_getName, (recorded_eq_iff _).mpr fits, ← path, opened,
        Option.getD_some, payload, length, whole, write_of_good (by exact good)]
      simp only [append_assoc]

theorem suits_archived (sound : source.Sound found pathPrefix) :
    Extraction.Suits (source.entry pathPrefix).header.fileType
      (source.entry pathPrefix).header.size (source.archived found pathPrefix) := by
  rw [archived]
  cases kind : source.isFile with
  | false =>
    exact source.entry_dir _ kind
  | true =>
    obtain ⟨type, size, -⟩ := source.entry_file pathPrefix kind
    refine ⟨type, size.trans ?_⟩
    by_cases empty : source.stat.size = 0
    · rw [empty]
      rfl
    · obtain ⟨_, opened, length⟩ := sound.resolve_left empty kind
      rw [if_neg empty, opened, Option.getD_some, length]

end Source

/-- A row of sources that can be named and are as long as their headers say becomes a row
of blocks. -/
theorem Compress.writeEntrys_blocks {found : Bytes → Option Bytes} {pathPrefix : Bytes}
    {sources : List Source} (fits : ∀ source ∈ sources, source.name.length ≤ 198)
    (sound : ∀ source ∈ sources, source.Sound found pathPrefix) {file : OutStream}
    (good : file.failed = false) :
    ∃ blocks : List Block,
      blocks.map Block.item = sources.map (Source.archivedItem found pathPrefix) ∧
      writeEntrys found (sources.map (Source.entry pathPrefix)) file =
        { file with written := file.written ++ blocks.flatMap Block.bytes } := by
  induction sources generalizing file with
  | nil => exact ⟨[], rfl, by simp [writeEntrys]⟩
  | cons source sources ih =>
    obtain ⟨fitsHere, fitsLater⟩ := forall_mem_cons.mp fits
    obtain ⟨soundHere, soundLater⟩ := forall_mem_cons.mp sound
    have named : (source.entry pathPrefix).header.name = source.name :=
      (source.entry_name pathPrefix).trans ((recorded_eq_iff _).mpr fitsHere)
    obtain ⟨blocks, items, rest⟩ := @ih fitsLater soundLater { file with
      written := file.written ++ ((source.entry _).header.getBytes ++
        payload (source.archived found pathPrefix)) } good
    refine ⟨⟨_, source.archivedItem _ _, named, Source.suits_archived soundHere⟩ ::
      blocks, ?_, ?_⟩
    · rw [map_cons, map_cons, items]
    · change writeEntrys found (sources.map (Source.entry pathPrefix))
        ((source.entry pathPrefix).writeToTar found file).2 = _
      rw [Source.writeToTar_block fitsHere soundHere good, rest, flatMap_cons,
        append_assoc]
      rfl

end Hdc.Tar
