import Hdc.Tar.Archive

/-!
Copying files and directories to a destination, without an archive between.

This is what archiving and taking out are for: `copyToLocal` makes the entries at the destination
one after the other, directly. `Recreates` says that all of it worked, in order, and that every name
stands for what it stood for.

* `Extraction.takeEntry_block`: taking out the block of an entry does what copying the entry does,
  and goes on behind the block;
* `Extraction.decompressFrom_blocks`: a row of blocks.
-/

namespace Hdc.Tar

open List Entry Nat Bool

open Transfer (checkPathTraversal sIfmt sIfdir sIfreg)

/-! ### Copying -/

/-- The destination, and what was made there. -/
structure Copy (σ : Type) where
  disk : σ
  made : List Item

section Copying

variable {σ : Type} (fs : FileSystem σ)

/-- Whole buffers of a content, that many. -/
def appendBuffers (path : Bytes) : Nat → Bytes → σ → Bool × σ
  | 0, _, disk => (true, disk)
  | turns + 1, content, disk =>
    let wrote := fs.append disk path (content.take entryFileBufsize)
    if wrote.1 then appendBuffers path turns (content.drop entryFileBufsize) wrote.2 else wrote

/-- A content, buffer by buffer. -/
def appendContent (path content : Bytes) (disk : σ) : Bool × σ :=
  let turns := content.length / entryFileBufsize
  let wrote := appendBuffers fs path turns content disk
  if wrote.1 ∧ 0 < content.length % entryFileBufsize then
    fs.append wrote.2 path (content.drop (turns * entryFileBufsize))
  else wrote

/-- A directory that is there already is left as it is. -/
def copyDirectory (path : Bytes) (disk : σ) : Bool × σ :=
  match fs.lstat disk path with
  | none => fs.mkdir disk path
  | some mode => (mode &&& sIfmt = sIfdir, disk)

def copyFile (path content : Bytes) (disk : σ) : Bool × σ :=
  let opened := fs.openAppend disk path
  if opened.1 then appendContent fs path content opened.2 else opened

def copyNode (path : Bytes) : Node → σ → Bool × σ
  | .dir, disk => copyDirectory fs path disk
  | .file content, disk => copyFile fs path content disk

/-- One entry, noted where it was made. -/
def copyItem (decPath : Bytes) (item : Item) (c : Copy σ) : Bool × Copy σ :=
  let copied := copyNode fs (cStr (decPath ++ item.name)) item.node c.disk
  (copied.1, ⟨copied.2, if copied.1 then c.made ++ [item] else c.made⟩)

def copyItems (decPath : Bytes) : List Item → Copy σ → Bool × Copy σ
  | [], c => (true, c)
  | item :: items, c =>
    let copied := copyItem fs decPath item c
    if copied.1 then copyItems decPath items copied.2 else copied

/-- The destination as `CheckPath` looks at it. -/
def openDestination (decPath : Bytes) (disk : σ) : Bool × σ :=
  match fs.lstat disk (cStr decPath) with
  | some mode => (validateDecompressPath mode, disk)
  | none => fs.mkdir disk (cStr decPath)

/-- All entries, one after the other. -/
def copyToLocal (decPath : Bytes) (items : List Item) (disk : σ) : Bool × Copy σ :=
  let opened := openDestination fs decPath disk
  if opened.1 then copyItems fs decPath items ⟨opened.2, []⟩ else (false, ⟨opened.2, []⟩)

/-- The entries were made, in order and nothing else, and each name stands for what it is
to stand for. -/
def Recreates (decPath : Bytes) (items : List Item) (c : Copy σ) : Prop :=
  c.made = items ∧
    ∀ item ∈ items, fs.node c.disk (cStr (decPath ++ item.name)) = some item.node

variable {fs}

theorem copyItem_of_node {decPath name : Bytes} {node : Node} {disk : σ} {made : List Item}
    {copied : Bool × σ} (direct : copyNode fs (cStr (decPath ++ name)) node disk = copied) :
    copyItem fs decPath ⟨name, node⟩ ⟨disk, made⟩ =
    (copied.1, ⟨copied.2, if copied.1 = true then made ++ [⟨name, node⟩] else made⟩) := by
  subst direct
  rfl

/-- What copying notes: everything, or only a part. -/
theorem copyItems_made {decPath : Bytes} {items : List Item} (c : Copy σ) :
    let copied := copyItems fs decPath items c
    (copied.1 = true → copied.2.made = c.made ++ items) ∧
      (copied.1 = false → ∃ part, copied.2.made = c.made ++ part ∧ part.length < items.length) := by
  induction items generalizing c with
  | nil => exact ⟨fun _ => (append_nil _).symm, fun failed => nomatch failed⟩
  | cons item items ih =>
    rw [copyItems]
    cases copied : (copyItem fs decPath item c).1 with
    | true =>
      have made : (copyItem fs decPath item c).2.made = c.made ++ [item] := if_pos copied
      obtain ⟨all, some⟩ := ih (copyItem fs decPath item c).2
      rw [made] at all some
      refine ⟨fun done => (all done).trans (by simp), fun failed => ?_⟩
      obtain ⟨part, partMade, fewer⟩ := some failed
      refine ⟨item :: part, partMade.trans (by simp), ?_⟩
      exact succ_lt_succ fewer
    | false =>
      have made : (copyItem fs decPath item c).2.made = c.made :=
        if_neg (Bool.eq_false_iff.mp copied)
      rw [if_neg Bool.false_ne_true]
      refine ⟨fun done => ?_, fun _ => ⟨[], made.trans (append_nil _).symm, ?_⟩⟩
      · rw [copied] at done
        cases done
      · exact zero_lt_succ _

end Copying

/-! ### Pieces of a payload -/

/-- What a payload takes up is a multiple of the size of a header. -/
theorem length_add_padding (needSize : Nat) :
    headerLen ∣ needSize + (padding needSize).length := by
  have small : needSize % headerLen < headerLen := mod_lt _ (by decide)
  have whole := div_add_mod needSize headerLen
  rw [padding]
  split
  case isTrue less =>
    rw [length_replicate]
    refine ⟨needSize / headerLen + 1, ?_⟩
    rw [mul_add]
    omega
  case isFalse more =>
    refine ⟨needSize / headerLen, ?_⟩
    rw [length_nil]
    omega

theorem padding_mod (needSize : Nat) :
    padding (needSize % entryFileBufsize) = padding needSize := by
  have same : needSize % entryFileBufsize % headerLen = needSize % headerLen :=
    mod_mod_of_dvd _ (by decide)
  rw [padding, padding, same]

namespace Extraction

variable {σ : Type} {fs : FileSystem σ} {x : Extraction σ} {saveFile content rest : Bytes}

/-- A part of the reader that appends `content` to the open file as `direct` does, and
leaves `rest` of the archive. -/
structure Follows (x : Extraction σ) (direct : Bool × σ) (content rest : Bytes)
    (out : Bool × Extraction σ) : Prop where
  ok : out.1 = direct.1
  disk : out.2.disk = direct.2
  made : out.2.made = x.made
  goesOn : out.1 = true → out.2.inFile = rest ∧ out.2.written = x.written ++ content

theorem readAndWriteData_follows {chunk : Bytes} {readSize writeSize : Nat}
    (inFile : x.inFile = chunk ++ rest) (size : chunk.length = readSize) :
    Follows x (fs.append x.disk (cStr saveFile) (chunk.take writeSize)) (chunk.take writeSize) rest
    (x.readAndWriteData fs saveFile readSize writeSize) := by
  have taken : x.inFile.take readSize = chunk := by rw [inFile, take_left' size]
  have left : x.inFile.drop readSize = rest := by rw [inFile, drop_left' size]
  rw [readAndWriteData]
  rw [taken, left, if_neg (not_not.mpr size)]
  exact ⟨rfl, rfl, rfl, fun _ => ⟨rfl, rfl⟩⟩

theorem copyBuffers_follows {turns : Nat} (inFile : x.inFile = content ++ rest)
    (enough : turns * entryFileBufsize ≤ content.length) :
    Follows x (appendBuffers fs (cStr saveFile) turns content x.disk)
    (content.take (turns * entryFileBufsize)) (content.drop (turns * entryFileBufsize) ++ rest)
    (x.copyBuffers fs saveFile turns) := by
  induction turns generalizing x content with
  | zero =>
    refine ⟨rfl, rfl, rfl, fun _ => ?_⟩
    rw [zero_mul, take_zero, append_nil]
    exact ⟨inFile, rfl⟩
  | succ turns ih =>
    rw [succ_mul] at enough
    have size : (content.take entryFileBufsize).length = entryFileBufsize := by
      rw [length_take]
      omega
    have split : x.inFile = content.take entryFileBufsize ++
        (content.drop entryFileBufsize ++ rest) := by
      rw [← append_assoc, take_append_drop, inFile]
    have once : Follows x
        (fs.append x.disk (cStr saveFile) (content.take entryFileBufsize))
        (content.take entryFileBufsize) (content.drop entryFileBufsize ++ rest)
        (x.readAndWriteData fs saveFile entryFileBufsize entryFileBufsize) := by
      have follows := @readAndWriteData_follows σ fs x saveFile _ _ _ entryFileBufsize split size
      rwa [take_of_length_le size.le] at follows
    rw [copyBuffers, appendBuffers]
    by_cases wrote : (fs.append x.disk (cStr saveFile) (content.take entryFileBufsize)).1 = true
    · have read := once.ok.trans wrote
      obtain ⟨left, written⟩ := once.goesOn read
      have later : turns * entryFileBufsize ≤ (content.drop entryFileBufsize).length := by
        rw [length_drop]
        omega
      have follows := ih left later
      rw [if_pos wrote, if_pos read, ← once.disk]
      refine ⟨follows.ok, follows.disk, follows.made.trans once.made, fun ok => ?_⟩
      obtain ⟨leftThen, writtenThen⟩ := follows.goesOn ok
      have whole : (turns + 1) * entryFileBufsize = entryFileBufsize + turns * entryFileBufsize := by
        rw [succ_mul, add_comm]
      rw [leftThen, writtenThen, written, whole, drop_drop, take_add, append_assoc]
      exact ⟨rfl, rfl⟩
    · rw [if_neg wrote, if_neg (once.ok ▸ wrote)]
      refine ⟨once.ok, once.disk, once.made, fun ok => ?_⟩
      exact absurd (once.ok.symm.trans ok) wrote

/-- The last piece comes with the zeros behind it. -/
theorem copyLast_follows (inFile : x.inFile = content ++ padding content.length ++ rest)
    (some : 0 < content.length) :
    Follows x (fs.append x.disk (cStr saveFile) content) content rest
    (x.copyLast fs saveFile content.length) := by
  have size : (content ++ padding content.length).length =
      if headerLen - content.length % headerLen = headerLen then content.length
      else content.length + (headerLen - content.length % headerLen) := by
    rw [padding]
    split_ifs <;> simp <;> omega
  have follows := @readAndWriteData_follows σ fs x saveFile rest _ _ content.length inFile size
  rw [take_left' rfl] at follows
  rw [copyLast, if_pos some]
  exact follows

/-- The whole payload of a file. -/
theorem copyContent_follows (inFile : x.inFile = content ++ padding content.length ++ rest) :
    Follows x (appendContent fs (cStr saveFile) content x.disk) content rest
    (x.copyContent fs saveFile content.length) := by
  have enough : content.length / entryFileBufsize * entryFileBufsize ≤ content.length :=
    Nat.div_mul_le_self ..
  rw [append_assoc] at inFile
  have buffers : Follows x _ _ _ (x.copyBuffers fs saveFile (content.length / entryFileBufsize)) :=
    copyBuffers_follows inFile enough
  rw [appendContent, copyContent]
  by_cases wrote : (x.copyBuffers fs saveFile (content.length / entryFileBufsize)).1 = true
  · have direct := buffers.ok.symm.trans wrote
    obtain ⟨left, written⟩ := buffers.goesOn wrote
    have lastSize : (content.drop (content.length / entryFileBufsize * entryFileBufsize)).length =
        content.length % entryFileBufsize := by
      rw [length_drop, Nat.mod_eq_sub_div_mul]
    rw [if_pos wrote]
    by_cases some : 0 < content.length % entryFileBufsize
    · rw [if_pos ⟨direct, some⟩, ← buffers.disk]
      rw [← padding_mod, ← lastSize, ← append_assoc] at left
      have last := @copyLast_follows σ fs _ saveFile _ _ left (lastSize ▸ some)
      rw [lastSize] at last
      refine ⟨last.ok, last.disk, last.made.trans buffers.made, fun ok => ?_⟩
      obtain ⟨leftThen, writtenThen⟩ := last.goesOn ok
      rw [leftThen, writtenThen, written, append_assoc, take_append_drop]
      exact ⟨rfl, rfl⟩
    · rw [if_neg fun both => some both.2, copyLast, if_neg some]
      refine ⟨direct.symm, buffers.disk, buffers.made, fun _ => ?_⟩
      have none := Nat.eq_zero_of_not_pos some
      rw [none] at lastSize
      have all := length_eq_zero_iff.mp lastSize
      have zeros : padding content.length = [] := by
        rw [← padding_mod, none]
        rfl
      rw [all, zeros] at left
      rw [drop_eq_nil_iff] at all
      rw [take_of_length_le all] at written
      exact ⟨left, written⟩
  · rw [if_neg wrote, if_neg fun both => wrote (buffers.ok.trans both.1)]
    exact ⟨buffers.ok, buffers.disk, buffers.made, fun ok => absurd ok wrote⟩

/-! ### Blocks -/

/-- What a reader has made. -/
def copy (x : Extraction σ) : Copy σ := ⟨x.disk, x.made⟩

/-- A part of the reader that does what `direct` does, and leaves `rest` of the archive. -/
structure Mirrors (direct : Bool × Copy σ) (rest : Bytes) (out : Bool × Extraction σ) : Prop where
  ok : out.1 = direct.1
  copy : out.2.copy = direct.2
  goesOn : out.1 = true → out.2.inFile = rest

theorem noting_mirrors {decPath name : Bytes} {node : Node} {nodeOf : Extraction σ → Node}
    {out : Bool × Extraction σ}
    (ok : out.1 = (copyNode fs (cStr (decPath ++ name)) node x.disk).1)
    (disk : out.2.disk = (copyNode fs (cStr (decPath ++ name)) node x.disk).2)
    (made : out.2.made = x.made)
    (goesOn : out.1 = true → out.2.inFile = rest ∧ nodeOf out.2 = node) :
    Mirrors (copyItem fs decPath ⟨name, node⟩ x.copy) rest (noting name nodeOf out) := by
  have direct : copyItem fs decPath ⟨name, node⟩ x.copy = (out.1, ⟨out.2.disk,
      if out.1 = true then x.made ++ [⟨name, node⟩] else x.made⟩) :=
    copyItem_of_node (Prod.ext ok.symm disk.symm : _ = (out.1, out.2.disk))
  rw [direct, noting]
  by_cases success : out.1 = true
  · obtain ⟨left, same⟩ := goesOn success
    rw [if_pos success, if_pos success]
    refine ⟨rfl, ?_, fun _ => left⟩
    rw [copy, made, same]
  · rw [if_neg success, if_neg success]
    refine ⟨rfl, ?_, fun ok => absurd ok success⟩
    rw [copy, made]

variable {decPath : Bytes} {entry : Entry}

theorem payloadToFile_mirrors (plain : checkPathTraversal (decPath ++ entry.getName) = true)
    (size : entry.needSize = content.length)
    (inFile : x.inFile = content ++ padding content.length ++ rest) :
    Mirrors (copyItem fs decPath ⟨entry.getName, .file content⟩ x.copy) rest
    (x.payloadToFile fs decPath entry) := by
  rw [payloadToFile]
  rw [if_neg (eq_false_iff.not_left.mpr plain), size]
  by_cases opened : (fs.openAppend x.disk (cStr (decPath ++ entry.getName))).1 = true
  · have follows := @copyContent_follows σ fs { x with
      disk := (fs.openAppend x.disk (cStr (decPath ++ entry.getName))).2
      touched := x.touched ++ [cStr (decPath ++ entry.getName)]
      written := [] } (decPath ++ entry.getName) content rest inFile
    have direct : copyNode fs (cStr (decPath ++ entry.getName)) (.file content) x.disk =
        appendContent fs (cStr (decPath ++ entry.getName)) content
          (fs.openAppend x.disk (cStr (decPath ++ entry.getName))).2 := by
      exact if_pos opened
    rw [if_neg (eq_false_iff.not_left.mpr opened)]
    refine noting_mirrors (follows.ok.trans (by rw [direct]))
      (follows.disk.trans (by rw [direct])) follows.made fun ok => ?_
    obtain ⟨left, written⟩ := follows.goesOn ok
    exact ⟨left, congrArg Node.file written⟩
  · have direct : copyNode fs (cStr (decPath ++ entry.getName)) (.file content) x.disk =
        fs.openAppend x.disk (cStr (decPath ++ entry.getName)) := by
      exact if_neg opened
    have failed : copyItem fs decPath ⟨entry.getName, .file content⟩ x.copy = (false,
        ⟨(fs.openAppend x.disk (cStr (decPath ++ entry.getName))).2, x.made⟩) := by
      rw [copy, copyItem_of_node direct, if_neg opened, eq_false_iff.mpr opened]
    rw [if_pos (eq_false_iff.mpr opened), failed]
    exact ⟨rfl, rfl, fun ok => nomatch ok⟩

theorem payloadToDir_mirrors (plain : checkPathTraversal (decPath ++ entry.getName) = true) :
    Mirrors (copyItem fs decPath ⟨entry.getName, .dir⟩ x.copy) x.inFile
    (x.payloadToDir fs decPath entry) := by
  have created : ∀ path, (x.tryCreateDirectory fs path).1 = (copyDirectory fs (cStr path) x.disk).1 ∧
      (x.tryCreateDirectory fs path).2.disk = (copyDirectory fs (cStr path) x.disk).2 ∧
      (x.tryCreateDirectory fs path).2.made = x.made ∧
      (x.tryCreateDirectory fs path).2.inFile = x.inFile := by
    intro path
    cases found : fs.lstat x.disk (cStr path) <;> simp [tryCreateDirectory, copyDirectory, found]
  obtain ⟨ok, disk, made, inFile⟩ := created (decPath ++ entry.getName)
  rw [payloadToDir, if_neg (eq_false_iff.not_left.mpr plain)]
  exact noting_mirrors ok disk made fun _ => ⟨inFile, rfl⟩

end Extraction

/-- The bytes behind the header of an entry. -/
def payload : Node → Bytes
  | .dir => []
  | .file content => content ++ Entry.padding content.length

/-- A name that can be taken out to a destination. -/
def Extractable (decPath name : Bytes) : Prop :=
  checkPathTraversal name = true ∧ checkPathTraversal (decPath ++ name) = true

instance (decPath name : Bytes) : Decidable (Extractable decPath name) :=
  inferInstanceAs (Decidable (_ ∧ _))

theorem Entry.fileType_ofData_getBytes (header : Header) :
    (ofData header.getBytes).header.fileType = header.fileType := by
  have read : (ofData header.getBytes).header = header.updataCheckSum :=
    header.ofData_getBytes
  rw [read, Header.fileType_updataCheckSum]

theorem Entry.needSize_ofData_getBytes (header : Header) :
    (ofData header.getBytes).needSize = header.size := by
  have read : (ofData header.getBytes).needSize = header.updataCheckSum.size :=
    congrArg Header.size header.ofData_getBytes
  rw [read, Header.size_updataCheckSum]

theorem getName_ofData_getBytes (header : Header) :
    (ofData header.getBytes).getName = header.name := by
  have read : (ofData header.getBytes).getName = (Header.ofData header.getBytes).name := rfl
  rw [read, Header.ofData_getBytes, Header.name_updataCheckSum]

namespace Extraction

variable {σ : Type} {fs : FileSystem σ} {x : Extraction σ} {decPath rest : Bytes}

/-- What the kind of an entry and its size have to be. -/
def Suits (type : TypeFlage) (needSize : Nat) : Node → Prop
  | .dir => type = .directory
  | .file content => type = .ordinaryFile ∧ needSize = content.length

theorem copyPayload_mirrors {entry : Entry} {item : Item} (named : entry.getName = item.name)
    (suits : Suits entry.header.fileType entry.needSize item.node)
    (plain : Extractable decPath item.name) (inFile : x.inFile = payload item.node ++ rest) :
    Mirrors (copyItem fs decPath item x.copy) rest (x.copyPayload fs decPath entry) := by
  obtain ⟨name, node⟩ := item
  obtain rfl : entry.getName = name := named
  rw [copyPayload, if_neg (eq_false_iff.not_left.mpr plain.1)]
  cases node with
  | dir =>
    obtain rfl : x.inFile = rest := inFile
    have type := suits
    rw [type]
    exact payloadToDir_mirrors plain.2
  | file content =>
    obtain ⟨type, size⟩ := suits
    rw [type]
    exact payloadToFile_mirrors plain.2 size inFile

/-- Taking out a block does what copying the entry does, and goes on behind it. -/
theorem takeEntry_block {header : Header} {item : Item} (named : header.name = item.name)
    (suits : Suits header.fileType header.size item.node)
    (plain : Extractable decPath item.name) (inFile : x.inFile = payload item.node ++ rest) :
    Mirrors (copyItem fs decPath item x.copy) rest (x.takeEntry fs decPath header.getBytes) := by
  have same := (getName_ofData_getBytes _).trans named
  have readSuits : Suits (ofData header.getBytes).header.fileType
      (ofData header.getBytes).needSize item.node := by
    rw [fileType_ofData_getBytes, needSize_ofData_getBytes]
    exact suits
  rw [takeEntry]
  generalize ofData header.getBytes = entry at same readSuits ⊢
  have copied := @copyPayload_mirrors σ fs { x with consumed := 0 } decPath rest entry item same
    readSuits plain inFile
  exact ⟨copied.ok, copied.copy, copied.goesOn⟩

/-! ### What is noted -/

section Made

variable (fs : FileSystem σ)

theorem made_readAndWriteData (saveFile : Bytes) (readSize writeSize : Nat) (x : Extraction σ) :
    (x.readAndWriteData fs saveFile readSize writeSize).2.made = x.made := by
  rw [readAndWriteData]
  split <;> rfl

theorem made_copyBuffers (saveFile : Bytes) (turns : Nat) (x : Extraction σ) :
    (x.copyBuffers fs saveFile turns).2.made = x.made := by
  induction turns generalizing x with
  | zero => rfl
  | succ turns ih =>
    rw [copyBuffers]
    split
    · exact (ih _).trans (made_readAndWriteData ..)
    · exact made_readAndWriteData ..

theorem made_copyContent (saveFile : Bytes) (needSize : Nat) (x : Extraction σ) :
    (x.copyContent fs saveFile needSize).2.made = x.made := by
  have buffers := made_copyBuffers fs saveFile (needSize / entryFileBufsize) x
  rw [copyContent, copyLast]
  split_ifs
  · exact (made_readAndWriteData ..).trans buffers
  · exact buffers
  · exact buffers

theorem made_tryCreateDirectory (path : Bytes) (x : Extraction σ) :
    (x.tryCreateDirectory fs path).2.made = x.made := by
  rw [tryCreateDirectory]
  split <;> rfl

/-- What one entry adds: nothing where it fails, and its name otherwise. -/
def Notes (name : Bytes) (made : List Item) (out : Bool × Extraction σ) : Prop :=
  out.1 = false ∧ out.2.made = made ∨ out.1 = true ∧ ∃ node, out.2.made = made ++ [⟨name, node⟩]

theorem noting_notes {out : Bool × Extraction σ} {made : List Item} (same : out.2.made = made)
    (name : Bytes) (node : Extraction σ → Node) : Notes name made (noting name node out) := by
  rw [noting]
  by_cases ok : out.1 = true
  · rw [if_pos ok]
    exact .inr ⟨ok, node out.2, by rw [same]⟩
  · rw [if_neg ok]
    exact .inl ⟨eq_false_iff.mpr ok, same⟩

theorem copyPayload_notes (decPath : Bytes) (entry : Entry) (x : Extraction σ) :
    Notes entry.getName x.made (x.copyPayload fs decPath entry) ∧
    ((x.copyPayload fs decPath entry).1 = true → Extractable decPath entry.getName) := by
  have stops : Notes entry.getName x.made (false, x) := .inl ⟨rfl, rfl⟩
  rw [copyPayload]
  split
  case isTrue => exact ⟨stops, fun ok => nomatch ok⟩
  case isFalse plain =>
    split
    case h_1 =>
      rw [payloadToFile]
      dsimp only
      split_ifs with goesUp refused
      · exact ⟨stops, fun ok => nomatch ok⟩
      · exact ⟨.inl ⟨rfl, rfl⟩, fun ok => nomatch ok⟩
      · exact ⟨noting_notes (made_copyContent ..) _ _,
          fun _ => ⟨not_eq_false _ ▸ plain, not_eq_false _ ▸ goesUp⟩⟩
    case h_2 =>
      rw [payloadToDir]
      split_ifs with goesUp
      · exact ⟨stops, fun ok => nomatch ok⟩
      · exact ⟨noting_notes (made_tryCreateDirectory ..) _ _,
          fun _ => ⟨not_eq_false _ ▸ plain, not_eq_false _ ▸ goesUp⟩⟩
    case h_3 => exact ⟨stops, fun ok => nomatch ok⟩

/-- What a turn of the loop notes: nothing, or the name in the header. -/
theorem takeEntry_notes (decPath buff : Bytes) (x : Extraction σ) :
    Notes (ofData buff).getName x.made (x.takeEntry fs decPath buff) ∧
    ((x.takeEntry fs decPath buff).1 = true → Extractable decPath (ofData buff).getName) := by
  rw [takeEntry]
  generalize ofData buff = entry
  exact copyPayload_notes fs decPath entry { x with consumed := 0 }

/-- Nothing that was noted is forgotten. -/
theorem made_isPrefix_decompressFrom (decPath : Bytes) (turns : Nat) (x : Extraction σ) :
    x.made <+: (x.decompressFrom fs decPath turns).2.made := by
  induction turns generalizing x with
  | zero => exact prefix_refl _
  | succ turns ih =>
    have turn : x.made <+: ({ x with inFile := x.inFile.drop headerLen }.takeEntry fs decPath
        (x.inFile.take headerLen)).2.made := by
      rcases (takeEntry_notes fs decPath (x.inFile.take headerLen)
        { x with inFile := x.inFile.drop headerLen }).1 with ⟨-, made⟩ | ⟨-, _, made⟩
      · rw [made]
      · rw [made]
        exact prefix_append _ _
    rw [decompressFrom]
    dsimp only
    split_ifs with _ _ ok
    · exact prefix_refl _
    · exact prefix_refl _
    · exact turn.trans (ih _)
    · exact turn

end Made

/-! ### Rows of blocks -/

/-- A turn of the loop at a header. -/
theorem decompressFrom_header {header : Header} (inFile : x.inFile = header.getBytes ++ rest)
    (turns : Nat) : x.decompressFrom fs decPath (turns + 1) =
      let copied := { x with inFile := rest }.takeEntry fs decPath header.getBytes
      if copied.1 then copied.2.decompressFrom fs decPath turns else (false, copied.2) := by
  have length : header.getBytes.length = headerLen := header.updataCheckSum.length_cells
  have nonempty : ¬ header.getBytes.length = 0 := by
    rw [length]
    decide
  rw [decompressFrom, inFile, take_left' length, drop_left' length]
  rw [if_neg nonempty, if_neg (not_not.mpr length)]

end Extraction

/-- A header with the entry it describes. -/
structure Block where
  header : Header
  item : Item
  named : header.name = item.name
  suits : Extraction.Suits header.fileType header.size item.node

def Block.bytes (block : Block) : Bytes := block.header.getBytes ++ payload block.item.node

theorem Block.length_bytes (block : Block) :
    headerLen ≤ block.bytes.length ∧ headerLen ∣ block.bytes.length := by
  have length : block.header.getBytes.length = headerLen :=
    block.header.updataCheckSum.length_cells
  rw [Block.bytes, length_append, length]
  refine ⟨Nat.le_add_right _ _, (Nat.dvd_add_right (Nat.dvd_refl _)).mpr ?_⟩
  cases block.item.node with
  | dir => exact Nat.dvd_zero _
  | file content =>
    rw [payload, length_append]
    exact length_add_padding _

namespace Extraction

variable {σ : Type} {fs : FileSystem σ} {x : Extraction σ} {decPath rest : Bytes}

/-- The loop over a row of blocks does what copying the entries does: it comes out behind
them, or stops where copying stops. -/
theorem decompressFrom_blocks {blocks : List Block}
    (plain : ∀ block ∈ blocks, Extractable decPath block.item.name)
    (inFile : x.inFile = blocks.flatMap Block.bytes ++ rest) (turns : Nat) :
    let direct := copyItems fs decPath (blocks.map Block.item) x.copy
    ∃ after : Extraction σ, after.copy = direct.2 ∧
      (direct.1 = true → after.inFile = rest ∧ x.decompressFrom fs decPath (blocks.length + turns) =
        after.decompressFrom fs decPath turns) ∧
      (direct.1 = false → x.decompressFrom fs decPath (blocks.length + turns) = (false, after)) := by
  induction blocks generalizing x with
  | nil => exact ⟨x, rfl, fun _ => ⟨inFile, by rw [length_nil, zero_add]⟩, nofun⟩
  | cons block blocks ih =>
    obtain ⟨here, later⟩ := forall_mem_cons.mp plain
    have split : x.inFile = block.header.getBytes ++
        (payload block.item.node ++ (blocks.flatMap Block.bytes ++ rest)) := by
      rw [inFile, flatMap_cons, Block.bytes]
      simp only [append_assoc]
    have turn : ∀ turns, x.decompressFrom fs decPath (turns + 1) = _ :=
      decompressFrom_header split
    have mirrors := @takeEntry_block σ fs { x with
      inFile := payload block.item.node ++ (blocks.flatMap Block.bytes ++ rest) } decPath _
      block.header block.item block.named block.suits here rfl
    have count : (block :: blocks).length + turns = blocks.length + turns + 1 := by
      rw [length_cons]
      omega
    rw [count, turn, map_cons, copyItems]
    generalize { x with inFile := payload block.item.node ++
      (blocks.flatMap Block.bytes ++ rest) }.takeEntry fs decPath block.header.getBytes = taken
      at mirrors ⊢
    obtain ⟨ok, same, goesOn⟩ := mirrors
    have start : copyItem fs decPath block.item x.copy = (taken.1, taken.2.copy) :=
      Prod.ext ok.symm same.symm
    rw [start]
    by_cases success : taken.1 = true
    · rw [if_pos success, if_pos success]
      exact ih later (goesOn success)
    · rw [if_neg success, if_neg success]
      exact ⟨taken.2, rfl, fun done => absurd done success, fun _ => rfl⟩

end Extraction

end Hdc.Tar
