import Hdc.Tar.Archive
import Hdc.Transfer.Containment

/-!
What taking out an archive can touch.

The destination ends in a separator, so a name is put behind it as it is, and a name
that goes up is refused. Whatever the archive holds, every path that is created or opened
is the destination or continues it by names that do not go up; and a payload is taken
from what the archive holds.

* `decompressToLocal_confined`: the whole of it.
-/

namespace Hdc.Tar

open Transfer LexicalPath List

/-- `path` is the destination, continued by whole names that do not go up. -/
def Inside (destination path : Bytes) : Prop :=
  ∃ layers, destination <+: path ∧ names 47 path = names 47 destination ++ layers ∧
    str ".." ∉ layers

theorem inside_refl (destination : Bytes) : Inside destination destination :=
  ⟨[], prefix_refl _, (append_nil _).symm, not_mem_nil⟩

/-- By their letters, paths inside lead to the place of the destination or below it. -/
theorem Inside.atOrBelow {destination path : Bytes} (inside : Inside destination path) :
    AtOrBelow destination path := by
  obtain ⟨_, -, named, plain⟩ := inside
  rw [AtOrBelow, place, place, named, follow_append]
  exact follow_isPrefix plain _

theorem Header.name_free (header : Header) : 0 ∉ header.name := by
  rw [Header.name_eq, mem_append, not_or]
  exact ⟨cStr_free _, cStr_free _⟩

/-- A name that passes the check, behind the destination. -/
theorem inside_append {destination name : Bytes} (ends : destination.getLast? = some 47)
    (plain : checkPathTraversal name = true) (free : 0 ∉ name) :
    Inside (cStr destination) (cStr (destination ++ name)) := by
  rw [cStr_append]
  split
  case isTrue => exact inside_refl _
  case isFalse nonzero =>
    rw [cStr_of_free nonzero, cStr_of_free free]
    exact ⟨names 47 _, prefix_append _ _, names_append_of_getLast? ends _,
      up_notMem_names (.inl rfl) plain⟩

namespace Extraction

variable {σ : Type} (fs : FileSystem σ)

/-- What is touched is inside, what is consumed was in the archive, and what was written
to the open file was consumed. -/
structure Confined (destination : Bytes) (x after : Extraction σ) : Prop where
  touched : ∀ path ∈ after.touched, path ∈ x.touched ∨ Inside destination path
  taken : after.consumed + after.inFile.length = x.consumed + x.inFile.length
  written : after.written.length + x.consumed ≤ after.consumed + x.written.length
  payloads : after.payloads = x.payloads

variable {destination : Bytes} {x middle after : Extraction σ}

theorem Confined.refl (x : Extraction σ) : Confined destination x x where
  touched := fun _ mem => .inl mem
  taken := rfl
  written := Nat.add_comm .. |>.le
  payloads := rfl

theorem Confined.trans (first : Confined destination x middle)
    (second : Confined destination middle after) : Confined destination x after where
  touched := by
    intro path mem
    rcases second.touched path mem with earlier | inside
    · exact first.touched _ earlier
    · exact .inr inside
  taken := second.taken.trans first.taken
  written := by
    have := first.written
    have := second.written
    omega
  payloads := second.payloads.trans first.payloads

variable (saveFile : Bytes)

theorem readAndWriteData_confined (readSize writeSize : Nat) (x : Extraction σ) :
    Confined destination x (x.readAndWriteData fs saveFile readSize writeSize).2 := by
  have whole : (x.inFile.take readSize).length + (x.inFile.drop readSize).length =
      x.inFile.length := by
    rw [← length_append, take_append_drop]
  have short : ((x.inFile.take readSize).take writeSize).length ≤
      (x.inFile.take readSize).length := (take_sublist ..).length_le
  rw [readAndWriteData]
  split
  case isTrue =>
    refine ⟨fun _ mem => .inl mem, ?_, ?_, rfl⟩
    · dsimp only
      omega
    · dsimp only
      omega
  case isFalse =>
    refine ⟨fun _ mem => .inl mem, ?_, ?_, rfl⟩
    · dsimp only
      omega
    · dsimp only
      rw [length_append]
      omega

theorem copyBuffers_confined (turns : Nat) (x : Extraction σ) :
    Confined destination x (x.copyBuffers fs saveFile turns).2 := by
  induction turns generalizing x with
  | zero => exact .refl x
  | succ turns ih =>
    have once : Confined destination x
        (x.readAndWriteData fs saveFile entryFileBufsize entryFileBufsize).2 :=
      readAndWriteData_confined fs saveFile _ _ x
    rw [copyBuffers]
    split
    · exact once.trans (ih _)
    · exact once

theorem copyLast_confined (needSize : Nat) (x : Extraction σ) :
    Confined destination x (x.copyLast fs saveFile needSize).2 := by
  rw [copyLast]
  split
  · exact readAndWriteData_confined _ _ _ _ x
  · exact .refl x

theorem tryCreateDirectory_confined {path : Bytes} (inside : Inside destination (cStr path))
    (x : Extraction σ) : Confined destination x (x.tryCreateDirectory fs path).2 := by
  rw [tryCreateDirectory]
  split
  · refine ⟨fun other mem => ?_, rfl, (Nat.add_comm ..).le, rfl⟩
    rcases mem_append.mp mem with earlier | here
    · exact .inl earlier
    · obtain rfl := mem_singleton.mp here
      exact .inr inside
  · exact .refl x

theorem copyContent_confined (needSize : Nat) (x : Extraction σ) :
    Confined destination x (x.copyContent fs saveFile needSize).2 := by
  have buffers : Confined destination x
      (x.copyBuffers fs saveFile (needSize / entryFileBufsize)).2 :=
    copyBuffers_confined fs saveFile _ x
  rw [copyContent]
  split
  · exact buffers.trans (copyLast_confined _ _ _ _)
  · exact buffers

theorem Confined.noting {out : Bool × Extraction σ} (confined : Confined destination x out.2)
    (name : Bytes) (node : Extraction σ → Node) :
    Confined destination x (noting name node out).2 := by
  rw [Extraction.noting]
  split
  · exact { confined with }
  · exact confined

theorem payloadToFile_confined {prefixPath : Bytes} {entry : Entry}
    (inside : Inside destination (cStr (prefixPath ++ entry.getName))) (x : Extraction σ) :
    Confined destination x (x.payloadToFile fs prefixPath entry).2 := by
  rw [payloadToFile]
  dsimp only
  split
  case isTrue => exact .refl x
  case isFalse =>
    have opened : ∀ disk, Confined destination x { x with
        disk := disk
        touched := x.touched ++ [cStr (prefixPath ++ entry.getName)]
        written := [] } := by
      intro disk
      refine ⟨fun other mem => ?_, rfl, Nat.add_le_add_left (Nat.zero_le _) _ |>.trans' ?_, rfl⟩
      · rcases mem_append.mp mem with earlier | here
        · exact .inl earlier
        · obtain rfl := mem_singleton.mp here
          exact .inr inside
      · exact (Nat.zero_add x.consumed).le
    split
    case isTrue => exact opened _
    case isFalse => exact ((opened _).trans (copyContent_confined _ _ _ _)).noting _ _

theorem payloadToDir_confined {prefixPath : Bytes} {entry : Entry}
    (inside : Inside destination (cStr (prefixPath ++ entry.getName))) (x : Extraction σ) :
    Confined destination x (x.payloadToDir fs prefixPath entry).2 := by
  rw [payloadToDir]
  split
  · exact .refl x
  · exact (tryCreateDirectory_confined _ inside x).noting _ _

section Loop

variable {decPath : Bytes} (ends : decPath.getLast? = some 47)

include ends

/-- Every entry, whatever its header says. -/
theorem copyPayload_confined (data : Bytes) (x : Extraction σ) :
    Confined (cStr decPath) x (x.copyPayload fs decPath (.ofData data)).2 := by
  rw [copyPayload]
  split
  case isTrue => exact .refl x
  case isFalse plain =>
    have inside : Inside (cStr decPath) (cStr (decPath ++ (Entry.ofData data).getName)) :=
      inside_append ends (Bool.not_eq_false _ ▸ plain) (Header.name_free _)
    split
    · exact payloadToFile_confined _ inside x
    · exact payloadToDir_confined _ inside x
    · exact .refl x

end Loop

/-- Everything touched is inside, no payload took more than was there, and all headers and
payloads together come out of the archive. -/
structure Contained (destination : Bytes) (size : Nat) (x : Extraction σ) : Prop where
  touched : ∀ path ∈ x.touched, Inside destination path
  payloads : ∀ payload ∈ x.payloads, payload.taken ≤ payload.held
  total : (x.payloads.map fun payload => headerLen + payload.taken).sum + x.inFile.length ≤ size

section Loop

variable {decPath : Bytes} (ends : decPath.getLast? = some 47) {size : Nat} {x : Extraction σ}

include ends

theorem takeEntry_contained {buff : Bytes} (header : buff.length = headerLen)
    (contained : Contained (cStr decPath) size { x with inFile := buff ++ x.inFile }) :
    Contained (cStr decPath) size (x.takeEntry fs decPath buff).2 := by
  have confined := copyPayload_confined fs ends buff { x with consumed := 0 }
  have taken := confined.taken
  have total := contained.total
  rw [takeEntry]
  refine ⟨fun path mem => ?_, ?_, ?_⟩
  · rcases confined.touched path mem with earlier | inside
    · exact contained.touched _ earlier
    · exact inside
  · rw [confined.payloads]
    refine forall_mem_append.mpr ⟨contained.payloads, forall_mem_singleton.mpr ?_⟩
    dsimp only at taken ⊢
    omega
  · rw [map_append, sum_append, map_singleton, sum_singleton,
      confined.payloads]
    rw [length_append] at total
    dsimp only at taken total ⊢
    omega

/-- The loop keeps it, turn by turn. -/
theorem decompressFrom_contained (turns : Nat) (contained : Contained (cStr decPath) size x) :
    Contained (cStr decPath) size (x.decompressFrom fs decPath turns).2 := by
  induction turns generalizing x with
  | zero => exact contained
  | succ turns ih =>
    have rest : Contained (cStr decPath) size { x with inFile := x.inFile.drop headerLen } := by
      refine ⟨contained.touched, contained.payloads, (Nat.add_le_add_left ?_ _).trans contained.total⟩
      exact (drop_sublist ..).length_le
    rw [decompressFrom]
    dsimp only
    split
    case isTrue => exact rest
    case isFalse =>
      split
      case isTrue => exact rest
      case isFalse whole =>
        have before : Contained (cStr decPath) size { x with
            inFile := x.inFile.take headerLen ++ x.inFile.drop headerLen } := by
          rw [take_append_drop]
          exact contained
        have after : Contained (cStr decPath) size ({ x with
            inFile := x.inFile.drop headerLen }.takeEntry fs decPath (x.inFile.take headerLen)).2 :=
          takeEntry_contained fs ends (not_not.mp whole) before
        split
        · exact ih after
        · exact after

end Loop

end Extraction

/-- `CheckPath` creates the destination at most. -/
theorem Extraction.checkPath_contained {σ : Type} (fs : FileSystem σ) (tar : TarFile)
    (decPath : Bytes) {size : Nat} {x : Extraction σ}
    (contained : Contained (cStr decPath) size x) :
    Contained (cStr decPath) size (x.checkPath fs tar decPath).2 := by
  rw [checkPath, checkDestination, tryCreateDirectory]
  split
  case isFalse => exact contained
  case isTrue =>
    split
    case h_1 => exact contained
    case h_2 absent =>
      rw [absent]
      refine ⟨?_, contained.payloads, contained.total⟩
      exact forall_mem_append.mpr ⟨contained.touched, forall_mem_singleton.mpr (inside_refl _)⟩

/-- Whatever the archive is, and whatever the file system answers, every path that is
created or opened is inside the destination, and no payload takes more than is there. -/
theorem decompressToLocal_contained {σ : Type} (fs : FileSystem σ) (tar : TarFile)
    {decPath : Bytes} (ends : decPath.getLast? = some 47) (disk : σ) :
    let x := (decompressToLocal fs tar decPath disk).2
    (∀ path ∈ x.touched, Inside (cStr decPath) path ∧ AtOrBelow (cStr decPath) path) ∧
      (∀ payload ∈ x.payloads, payload.taken ≤ payload.held) ∧
      (x.payloads.map fun payload => headerLen + payload.taken).sum ≤ tar.content.length := by
  have start : Extraction.Contained (cStr decPath) tar.content.length
      ({ disk := disk, inFile := tar.content } : Extraction σ) :=
    ⟨fun _ mem => absurd mem not_mem_nil, fun _ mem => absurd mem not_mem_nil,
      (Nat.zero_add _).le⟩
  have checked := Extraction.checkPath_contained fs tar decPath start
  have contained : Extraction.Contained (cStr decPath) tar.content.length
      (decompressToLocal fs tar decPath disk).2 := by
    rw [decompressToLocal]
    split
    · exact Extraction.decompressFrom_contained _ ends _ checked
    · exact checked
  refine ⟨fun path mem => ?_, contained.payloads, (Nat.le_add_right ..).trans contained.total⟩
  have inside := contained.touched path mem
  exact ⟨inside, inside.atOrBelow⟩

/-- An archive of one directory, `a`. -/
def oneDirectory : TarFile :=
  let header := ((Header.new.updataFileType .directory).updataName (str "a")).2
  ⟨some ⟨sIfreg, headerLen⟩, header.getBytes⟩

theorem decompressToLocal_contained_oneDirectory :
    let x := (decompressToLocal FileSystem.table oneDirectory (str "d/") []).2
    x.touched = [str "d/", str "d/a"] ∧ ∀ path ∈ x.touched, Inside (str "d/") path := by
  refine ⟨by decide +kernel, fun path mem => ?_⟩
  exact ((decompressToLocal_contained FileSystem.table oneDirectory (by decide) []).1 _ mem).1

end Hdc.Tar
