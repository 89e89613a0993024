import Hdc.Tar.Source

/-!
An archive that is written and taken out again.

Where every name can be written into a header and may be taken out, the way through the
archive does what copying the entries directly does, whatever the file system is. Where
some name cannot, the first such entry is not recreated: its header holds another name, or
it is refused. So the condition is exact.

* `roundTrip_iff`: both together.
-/

namespace Hdc.Tar

open List Block Extraction FileSystem

open Transfer (checkPathTraversal sIfmt sIfdir sIfreg)

/-! ### Adding and saving -/

variable {found : Bytes → Option Bytes}

namespace Compress

/-- All sources, each of which has to be accepted. -/
def addAll (c : Compress) : List Source → Option Compress
  | [] => some c
  | source :: sources =>
    let added := c.addEntry (source.path c.pathPrefix) (some source.stat)
    if added.1 then added.2.addAll sources else none

theorem addAll_entrys {c after : Compress} {sources : List Source}
    (added : c.addAll sources = some after) :
    after.entrys = c.entrys ++ sources.map (Source.entry c.pathPrefix) := by
  induction sources generalizing c with
  | nil =>
    obtain rfl := Option.some.inj added
    rw [map_nil, append_nil]
  | cons source sources ih =>
    have below : ¬ (0 < c.pathPrefix.length ∧ source.path c.pathPrefix = c.pathPrefix) := by
      rintro ⟨-, same⟩
      have length := congrArg List.length same
      simp [Source.path] at length
    rw [addAll, addEntry] at added
    split at added
    case isTrue => cases added
    case isFalse =>
      have later := ih added
      rw [later, append_assoc]
      rfl

/-- Where `SaveToFile` reports success, it has written the entries. -/
theorem saveToFile_archive {c : Compress} {localPath archive : Bytes} {target : Bytes → Target}
    (saved : c.saveToFile localPath target found = (true, some archive)) :
    archive = (writeEntrys found c.entrys {}).written := by
  rw [saveToFile] at saved
  split_ifs at saved
  all_goals simp_all

end Compress

/-! ### Taking out -/

section Decompress

variable {σ : Type} (fs : FileSystem σ) {tar : TarFile} {decPath : Bytes} {disk : σ}

theorem checkDestination_spec (decPath : Bytes) (x : Extraction σ) :
    (x.checkDestination fs decPath).1 = (openDestination fs decPath x.disk).1 ∧
    (x.checkDestination fs decPath).2.copy = ⟨(openDestination fs decPath x.disk).2, x.made⟩ ∧
    (x.checkDestination fs decPath).2.inFile = x.inFile := by
  cases found : fs.lstat x.disk (cStr decPath) <;>
    simp [checkDestination, tryCreateDirectory, openDestination, found,
      copy]

/-- The archive is taken for one, so that the destination decides. -/
theorem decompressToLocal_started (valid : tar.stat.any validateTarFile = true) :
    ∃ start : Extraction σ, start.copy = ⟨(openDestination fs decPath disk).2, []⟩ ∧
      start.inFile = tar.content ∧ decompressToLocal fs tar decPath disk =
        if (openDestination fs decPath disk).1 then
          start.decompressFrom fs decPath (tar.content.length / headerLen + 1)
        else (false, start) := by
  obtain ⟨ok, copy, inFile⟩ :=
    checkDestination_spec fs decPath ({ disk := disk, inFile := tar.content } : Extraction σ)
  refine ⟨_, copy, inFile, ?_⟩
  rw [decompressToLocal, checkPath, if_pos valid, ok]

theorem decompressToLocal_refused (invalid : ¬ tar.stat.any validateTarFile = true) :
    (decompressToLocal fs tar decPath disk).2.made = [] := by
  rw [decompressToLocal, checkPath, if_neg invalid]
  rfl

/-- Whatever the archive is, either nothing is taken out, or the loop runs over it. -/
theorem decompressToLocal_cases (tar : TarFile) (decPath : Bytes) (disk : σ) :
    (decompressToLocal fs tar decPath disk).2.made = [] ∨
    ∃ start : Extraction σ, start.made = [] ∧ start.inFile = tar.content ∧
    decompressToLocal fs tar decPath disk =
    start.decompressFrom fs decPath (tar.content.length / headerLen + 1) := by
  by_cases valid : tar.stat.any validateTarFile = true
  · obtain ⟨start, copy, inFile, runs⟩ := @decompressToLocal_started σ fs tar decPath disk valid
    have none : start.made = [] := congrArg Copy.made copy
    by_cases opened : (openDestination fs decPath disk).1 = true
    · rw [if_pos opened] at runs
      exact .inr ⟨start, none, inFile, runs⟩
    · rw [if_neg opened] at runs
      rw [runs]
      exact .inl none
  · exact .inl (decompressToLocal_refused _ valid)

variable {blocks : List Block}

theorem length_flatMap_bytes (blocks : List Block) :
    blocks.length * headerLen ≤ (blocks.flatMap bytes).length ∧
    headerLen ∣ (blocks.flatMap bytes).length := by
  induction blocks with
  | nil => exact ⟨Nat.le_of_eq (Nat.zero_mul _), Nat.dvd_zero _⟩
  | cons block blocks ih =>
    obtain ⟨_, whole⟩ := block.length_bytes
    rw [flatMap_cons, length_append, length_cons, Nat.succ_mul]
    exact ⟨by omega, Nat.dvd_add whole ih.2⟩

/-- The loop has a turn for every block, and one more. -/
theorem exists_turns {content rest : Bytes} (whole : content = blocks.flatMap bytes ++ rest) :
    ∃ turns, content.length / headerLen + 1 = blocks.length + (turns + 1) := by
  have large := (length_flatMap_bytes blocks).1
  have fits : blocks.length ≤ content.length / headerLen := by
    rw [Nat.le_div_iff_mul_le (by decide), whole, length_append]
    omega
  exact ⟨content.length / headerLen - blocks.length, by omega⟩

theorem decompressFrom_end {x : Extraction σ} (ended : x.inFile = []) (turns : Nat) :
    (x.decompressFrom fs decPath (turns + 1)).2.copy = x.copy := by
  rw [decompressFrom, ended]
  rfl

/-- Taking out a row of blocks is copying. -/
theorem decompress_blocks (some : blocks ≠ [])
    (plain : ∀ block ∈ blocks, Extractable decPath block.item.name) {mode : UInt32}
    (regular : mode &&& sIfreg ≠ 0) :
    (decompressToLocal fs ⟨.some ⟨mode, (blocks.flatMap bytes).length⟩,
    blocks.flatMap bytes⟩ decPath disk).2.copy =
    (copyToLocal fs decPath (blocks.map item) disk).2 := by
  obtain ⟨large, _⟩ := length_flatMap_bytes blocks
  have count : 0 < blocks.length := length_pos_iff.mpr some
  have full : ¬ ((blocks.flatMap bytes).length = 0 ∨
      (blocks.flatMap bytes).length % headerLen ≠ 0) := by
    rw [headerLen] at large
    omega
  have valid : (Option.some (Stat.mk mode (blocks.flatMap bytes).length)).any
      validateTarFile = true := by
    rw [Option.any_some, validateTarFile, if_neg regular, if_neg full]
  obtain ⟨turns, enough⟩ := exists_turns (append_nil (blocks.flatMap bytes)).symm
  obtain ⟨start, copy, inFile, runs⟩ := @decompressToLocal_started σ fs
    ⟨.some ⟨mode, (blocks.flatMap bytes).length⟩, _⟩ decPath disk valid
  rw [runs, copyToLocal]
  by_cases opened : (openDestination fs decPath disk).1 = true
  · rw [if_pos opened, if_pos opened, ← copy]
    obtain ⟨_, same, done, stopped⟩ := @decompressFrom_blocks σ fs start decPath []
      blocks plain (inFile.trans (append_nil _).symm) (turns + 1)
    rw [← same]
    rw [enough]
    cases direct : (copyItems fs decPath (blocks.map item) start.copy).1 with
    | true =>
      obtain ⟨ended, goesOn⟩ := done direct
      rw [goesOn, decompressFrom_end fs ended]
    | false => rw [stopped direct]
  · rw [if_neg opened, if_neg opened]
    exact copy

/-- What comes of an archive in which, behind some blocks, the header of an entry stands
that cannot be named. -/
theorem made_ne_of_bad {bad : Source} {pathPrefix rest : Bytes}
    (plain : ∀ block ∈ blocks, Extractable decPath block.item.name)
    (refused : ¬ (bad.name.length ≤ 198 ∧ Extractable decPath bad.name))
    (content : blocks.flatMap bytes ++ (bad.entry pathPrefix).header.getBytes ++ rest =
    tar.content) (node : Node) (others : List Item) :
    (decompressToLocal fs tar decPath disk).2.made ≠
    blocks.map item ++ ⟨bad.name, node⟩ :: others := by
  rw [append_assoc] at content
  obtain ⟨turns, enough⟩ := exists_turns content.symm
  intro same
  rcases decompressToLocal_cases fs tar decPath disk with none | ⟨start, none, inFile, runs⟩
  · rw [none] at same
    exact absurd same.symm (by simp)
  · obtain ⟨after, copied, done, stopped⟩ := @decompressFrom_blocks σ fs start decPath _
      blocks plain (inFile.trans content.symm) (turns + 1)
    have notes := @copyItems_made σ fs decPath (blocks.map item) start.copy
    dsimp only at notes
    rw [← congrArg Copy.made copied] at notes
    have unmade : start.copy.made = [] := none
    rw [unmade] at notes
    rw [runs, enough] at same
    cases direct : (copyItems fs decPath (blocks.map item) start.copy).1 with
    | false =>
      obtain ⟨_, made, _⟩ := notes.2 direct
      rw [stopped direct] at same
      have length := congrArg List.length (made.symm.trans same)
      simp only [nil_append, length_append] at length
      omega
    | true =>
      obtain ⟨left, goesOn⟩ := done direct
      have made : after.made = blocks.map item := notes.1 direct
      rw [goesOn, decompressFrom_header left] at same
      obtain ⟨noted, passed⟩ := takeEntry_notes fs decPath
        (bad.entry pathPrefix).header.getBytes { after with inFile := rest }
      have read : (Entry.ofData (bad.entry pathPrefix).header.getBytes).getName =
          recorded bad.name := (getName_ofData_getBytes _).trans (bad.entry_name pathPrefix)
      rw [read] at noted passed
      generalize { after with inFile := rest }.takeEntry fs decPath
        (bad.entry pathPrefix).header.getBytes = taken at same noted passed
      rcases noted with ⟨failed, kept⟩ | ⟨ok, _, grown⟩
      · rw [if_neg (Bool.eq_false_iff.mp failed)] at same
        have length := congrArg List.length (same.symm.trans (kept.trans made))
        simp at length
      · -- what was noted first is the name in the header, so that would be the name
        rw [if_pos ok] at same
        have begins := made_isPrefix_decompressFrom fs decPath turns taken.2
        rw [same, grown, made, prefix_append_right_inj, cons_prefix_cons] at begins
        have named : recorded bad.name = bad.name := congrArg Item.name begins.1
        rw [named] at passed
        exact refused ⟨(recorded_eq_iff _).mp named, passed ok⟩

end Decompress

/-! ### There and back -/

/-- A source whose name fits a header and may be taken out. -/
def Nameable (decPath : Bytes) (source : Source) : Prop :=
  source.name.length ≤ 198 ∧ Extractable decPath source.name

instance (decPath : Bytes) (source : Source) : Decidable (Nameable decPath source) :=
  inferInstanceAs (Decidable (_ ∧ _))

/-- The archive begins with the blocks of the sources up to the first one that cannot be
named, and goes on with the header of that one. -/
theorem archive_begins {pathPrefix decPath : Bytes}
    {goods rest : List Source} {bad : Source} (nameable : ∀ source ∈ goods, Nameable decPath source)
    (sound : ∀ source ∈ goods, source.Sound found pathPrefix) :
    ∃ (blocks : List Block) (junk : Bytes),
    blocks.map item = goods.map (Source.archivedItem found pathPrefix) ∧
    blocks.flatMap bytes ++ (bad.entry pathPrefix).header.getBytes ++ junk =
    (Compress.writeEntrys found
    ((goods ++ bad :: rest).map (Source.entry pathPrefix)) {}).written := by
  obtain ⟨blocks, items, written⟩ := @Compress.writeEntrys_blocks found pathPrefix goods
    (fun source mem => (nameable source mem).1) sound {} rfl
  have split := Compress.writeEntrys_split found pathPrefix goods rest bad {}
  rw [written] at split
  obtain ⟨junk, whole⟩ := (@Source.writeToTar_header found pathPrefix bad
    ⟨[] ++ blocks.flatMap bytes, false⟩ rfl).trans
      (Compress.isPrefix_writeEntrys found (rest.map (Source.entry pathPrefix)) _)
  exact ⟨_, _, items, whole.trans (congrArg OutStream.written split.symm)⟩

theorem extractable_of_items {pathPrefix decPath : Bytes}
    {blocks : List Block} {sources : List Source}
    (items : blocks.map item = sources.map (Source.archivedItem found pathPrefix))
    (nameable : ∀ source ∈ sources, Nameable decPath source) :
    ∀ block ∈ blocks, Extractable decPath block.item.name := by
  intro block mem
  have inItems : block.item ∈ sources.map (Source.archivedItem found pathPrefix) := by
    rw [← items]
    exact mem_map_of_mem mem
  obtain ⟨source, inSources, same⟩ := mem_map.mp inItems
  rw [← same]
  exact (nameable _ inSources).2

/-- Saving an archive and taking it out recreates the sources exactly where copying them
directly does, and every name has at most 198 bytes and does not go up. -/
theorem roundTrip_iff {σ : Type} (fs : FileSystem σ) (disk : σ) (decPath pathPrefix localPath : Bytes)
    (maxcount : Nat) {sources : List Source} {found : Bytes → Option Bytes}
    {target : Bytes → Compress.Target} {c : Compress} {archive : Bytes} {mode : UInt32}
    (added : Compress.addAll ⟨[], pathPrefix, maxcount⟩ sources = some c)
    (unchanged : ∀ source ∈ sources, source.Unchanged found pathPrefix)
    (saved : c.saveToFile localPath target found = (true, some archive))
    (regular : mode &&& sIfmt = sIfreg) :
    Recreates fs decPath (sources.map (Source.item found pathPrefix))
        (decompressToLocal fs ⟨some ⟨mode, archive.length⟩, archive⟩ decPath disk).2.copy ↔
      (∀ source ∈ sources, Nameable decPath source) ∧
        Recreates fs decPath (sources.map (Source.item found pathPrefix))
          (copyToLocal fs decPath (sources.map (Source.item found pathPrefix)) disk).2 := by
  have written : archive = (Compress.writeEntrys found
      (sources.map (Source.entry pathPrefix)) {}).written := by
    rw [Compress.saveToFile_archive saved, Compress.addAll_entrys added, nil_append]
  have fileBit : mode &&& sIfreg ≠ 0 := by
    rw [bit_of_kind regular rfl]
    decide
  have same : ∀ part : List Source, (∀ source ∈ part, source ∈ sources) →
      part.map (Source.archivedItem found pathPrefix) =
        part.map (Source.item found pathPrefix) := fun part within =>
    map_congr_left fun source mem =>
      Source.archivedItem_of_unchanged (unchanged source (within source mem))
  by_cases nameable : ∀ source ∈ sources, Nameable decPath source
  · rw [and_iff_right nameable]
    obtain ⟨blocks, items, blocksWritten⟩ := @Compress.writeEntrys_blocks found pathPrefix sources
      (fun source mem => (nameable source mem).1) (fun source mem => .inr (unchanged source mem))
      {} rfl
    rw [blocksWritten, nil_append] at written
    subst written
    by_cases none : blocks = []
    · -- nothing was added, and nothing is to be recreated
      subst none
      obtain rfl : sources = [] := map_eq_nil_iff.mp items.symm
      have refused : ¬ (some (Stat.mk mode 0)).any validateTarFile = true := by
        simp [validateTarFile]
      refine iff_of_true ⟨?_, fun _ mem => absurd mem not_mem_nil⟩
        ⟨?_, fun _ mem => absurd mem not_mem_nil⟩
      · exact decompressToLocal_refused _ refused
      · rw [copyToLocal]
        split <;> rfl
    · have plain := extractable_of_items items nameable
      rw [decompress_blocks fs none plain fileBit, items, same sources fun _ mem => mem]
  · rw [iff_false_right fun both => nameable both.1]
    obtain ⟨goods, bad, rest, rfl, before, refused⟩ := exists_first_not nameable
    obtain ⟨blocks, _, items, content⟩ := @archive_begins found pathPrefix decPath goods rest bad
      before fun source mem => .inr (unchanged source (mem_append_left _ mem))
    have plain := extractable_of_items items before
    rintro ⟨made, -⟩
    rw [map_append, map_cons, ← same goods fun _ mem => mem_append_left _ mem,
      ← items] at made
    exact @made_ne_of_bad σ _ ⟨some ⟨_, archive.length⟩, _⟩ _ _ _ _ _ _
      plain refused (content.trans written.symm) _ _ made

/-! ### Examples -/

def directory (name : Bytes) (free : 0 ∉ name) : Source where
  name := name
  stat := ⟨0o040755, 4096⟩
  free := free
  kind := .inl (by decide)
  small := fun regular => absurd regular (by decide)

/-- The archive of some sources below `p`, where the file `p/d/f` holds three bytes. -/
def pack (sources : List Source) : Compress :=
  (Compress.addAll ⟨[], str "p", 0⟩ sources).getD ⟨[], str "p", 0⟩

def threeBytes (path : Bytes) : Option Bytes := if path = str "p/d/f" then some [1, 2, 3] else none

def packed (sources : List Source) : Bytes :=
  (Compress.writeEntrys threeBytes (pack sources).entrys {}).written

def directoryAndFile : List Source :=
  [directory (str "d") (by decide),
    ⟨str "d/f", ⟨0o100644, 3⟩, by decide, .inr (by decide), fun _ => by decide⟩]

theorem roundTrip_directoryAndFile :
    Recreates table (str "x/") [⟨str "d", .dir⟩, ⟨str "d/f", .file [1, 2, 3]⟩]
      (decompressToLocal table
        ⟨some ⟨0o100644, (packed directoryAndFile).length⟩, packed directoryAndFile⟩
        (str "x/") []).2.copy := by
  have unchanged : ∀ source ∈ directoryAndFile, source.Unchanged threeBytes (str "p") := by
    intro source mem kind
    rcases mem_cons.mp mem with rfl | mem
    · cases kind
    · obtain rfl := mem_singleton.mp mem
      exact ⟨[1, 2, 3], by decide, rfl⟩
  have copied : Recreates table (str "x/")
      (directoryAndFile.map (Source.item threeBytes (str "p")))
      (copyToLocal table (str "x/")
        (directoryAndFile.map (Source.item threeBytes (str "p"))) []).2 :=
    ⟨by decide +kernel, by decide +kernel⟩
  have added : Compress.addAll ⟨[], str "p", 0⟩ directoryAndFile = some (pack directoryAndFile) := by
    decide +kernel
  have saved : (pack directoryAndFile).saveToFile (str "p.tar") (fun _ => ⟨none, true⟩) threeBytes =
      (true, some (packed directoryAndFile)) := rfl
  exact (roundTrip_iff table [] (str "x/") (str "p") (str "p.tar") 0 added unchanged
    saved (by decide)).mpr ⟨by decide, copied⟩

/-- A directory with a name of 199 bytes. -/
def longDirectory : Source :=
  directory (List.replicate 199 97) fun mem => absurd (eq_of_mem_replicate mem) (by decide)

/-- It comes out under a name of 198 bytes. -/
theorem longDirectory_renamed :
    (Compress.addAll ⟨[], str "p", 0⟩ [longDirectory]).isSome = true ∧
    (decompressToLocal table
      ⟨some ⟨0o100644, (packed [longDirectory]).length⟩, packed [longDirectory]⟩
      (str "x/") []).2.made = [⟨List.replicate 198 97, .dir⟩] ∧
    ¬ Recreates table (str "x/") [⟨List.replicate 199 97, .dir⟩]
      (decompressToLocal table
        ⟨some ⟨0o100644, (packed [longDirectory]).length⟩, packed [longDirectory]⟩
        (str "x/") []).2.copy := by
  refine ⟨by decide +kernel, by decide +kernel, fun recreated => ?_⟩
  have made := recreated.1
  revert made
  decide +kernel

end Hdc.Tar
