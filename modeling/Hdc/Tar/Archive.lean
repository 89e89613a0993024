import Hdc.Tar.Entry

/-!
Whole archives: `Compress`, `Decompress`, and `Tar2Dir`.

`Compress` collects entries and writes them one behind the other; `Decompress` reads a
header, takes the entry out, and goes on behind it, until the archive ends or an entry
cannot be taken out.
-/

namespace Hdc.Tar

open Transfer (sIfmt sIfdir sIfreg)

/-! ### Compress -/

/-- `maxcount` is not set by the constructor. -/
structure Compress where
  entrys : List Entry := []
  pathPrefix : Bytes := []
  maxcount : Nat
deriving DecidableEq, Repr

namespace Compress

/-- `AddEntry`, with what `lstat` says of the path. -/
def addEntry (c : Compress) (path : Bytes) (stat : Option Stat) : Bool × Compress :=
  if 0 < c.maxcount ∧ c.maxcount < c.entrys.length then (false, c)
  else if 0 < c.pathPrefix.length ∧ path = c.pathPrefix then (true, c)
  else (true, { c with entrys := c.entrys ++ [.new c.pathPrefix path stat] })

/-- The entries as they are written; what `WriteToTar` returns is not looked at. -/
def writeEntrys (found : Bytes → Option Bytes) (entrys : List Entry) (file : OutStream) :
    OutStream :=
  entrys.foldl (fun file entry => (entry.writeToTar found file).2) file

/-- Where the archive is to go: the mode of what is there, and whether it can be opened. -/
structure Target where
  mode : Option UInt32
  opens : Bool
deriving DecidableEq, Repr

/-- `SaveToFile`: what it returns, and the archive where one is written. -/
def saveToFile (c : Compress) (localPath : Bytes) (target : Bytes → Target)
    (found : Bytes → Option Bytes) : Bool × Option Bytes :=
  let localPath := if localPath.length = 0 then str "tmp.tar" else localPath
  if ((target (cStr localPath)).mode.any fun mode => mode &&& sIfdir ≠ 0) then (false, none)
  else if (target (cStr localPath)).opens = false then (false, none)
  else (true, some (writeEntrys found c.entrys {}).written)

end Compress

/-! ### Decompress -/

def sIflnk : UInt32 := 0o120000

/-- The archive that is taken out: what `lstat` says of it, and what is read from it. -/
structure TarFile where
  stat : Option Stat
  content : Bytes
deriving DecidableEq, Repr

/-- `ValidateTarFile`. -/
def validateTarFile (stat : Stat) : Bool :=
  if stat.mode &&& sIfreg = 0 then false
  else if stat.size = 0 ∨ stat.size % headerLen ≠ 0 then false
  else true

/-- `ValidateDecompressPath`. -/
def validateDecompressPath (mode : UInt32) : Bool :=
  if mode &&& sIflnk ≠ 0 then false
  else if mode &&& sIfreg ≠ 0 then false
  else true

namespace Extraction

variable {σ : Type} (fs : FileSystem σ)

/-- The part of `CheckPath` that is about the destination. -/
def checkDestination (decPath : Bytes) (x : Extraction σ) : Bool × Extraction σ :=
  match fs.lstat x.disk (cStr decPath) with
  | some mode => (validateDecompressPath mode, x)
  | none => x.tryCreateDirectory fs decPath

/-- `CheckPath`. -/
def checkPath (tar : TarFile) (decPath : Bytes) (x : Extraction σ) : Bool × Extraction σ :=
  if tar.stat.any validateTarFile then x.checkDestination fs decPath else (false, x)

/-- One turn of `DecompressToLocal` behind the header in `buff`. -/
def takeEntry (decPath buff : Bytes) (x : Extraction σ) : Bool × Extraction σ :=
  let copied := { x with consumed := 0 }.copyPayload fs decPath (.ofData buff)
  (copied.1, { copied.2 with
    payloads := copied.2.payloads ++ [⟨x.inFile.length, copied.2.consumed⟩] })

/-- The loop of `DecompressToLocal`, that many times round at most. -/
def decompressFrom (decPath : Bytes) : Nat → Extraction σ → Bool × Extraction σ
  | 0, x => (false, x)
  | turns + 1, x =>
    let buff := x.inFile.take headerLen
    let x := { x with inFile := x.inFile.drop headerLen }
    if buff.length = 0 then (true, x)
    else if buff.length ≠ headerLen then (true, x)
    else
      let copied := x.takeEntry fs decPath buff
      if copied.1 then copied.2.decompressFrom decPath turns else (false, copied.2)

end Extraction

/-- `DecompressToLocal`. -/
def decompressToLocal {σ : Type} (fs : FileSystem σ) (tar : TarFile) (decPath : Bytes) (disk : σ) :
    Bool × Extraction σ :=
  let checked := ({ disk := disk, inFile := tar.content } : Extraction σ).checkPath fs tar decPath
  if checked.1 then checked.2.decompressFrom fs decPath (tar.content.length / headerLen + 1)
  else (false, checked.2)

/-- Where the last `.tar` of a text begins. -/
def rfindTar (text : Bytes) : Option Nat :=
  ((List.range text.length).filter fun i => (str ".tar").isPrefixOf (text.drop i)).getLast?

/-- `Tar2Dir`: the directory, and what was done. What `DecompressToLocal` returns is not
looked at. -/
def tar2Dir {σ : Type} (fs : FileSystem σ) (tar : TarFile) (path : Bytes) (disk : σ) :
    Bytes × σ :=
  match rfindTar (cStr path) with
  | none => ([], disk)
  | some rindex =>
    let dir := (cStr path).take rindex ++ [47]
    (dir, (decompressToLocal fs tar dir disk).2.disk)

/-! ### A file system -/

/-- A table of paths, in which everything works; a path is never another one's. -/
def FileSystem.table : FileSystem (List (Bytes × Node)) where
  lstat disk path := (disk.lookup path).map fun node =>
    match node with
    | .dir => sIfdir
    | .file _ => sIfreg
  mkdir disk path := (true, disk ++ [(path, .dir)])
  openAppend disk path :=
    match disk.lookup path with
    | none => (true, disk ++ [(path, .file [])])
    | some .dir => (false, disk)
    | some (.file _) => (true, disk)
  append disk path data := (true, disk.map fun entry =>
    match entry with
    | (other, .file content) => if other = path then (path, .file (content ++ data)) else entry
    | _ => entry)
  node disk path := disk.lookup path

end Hdc.Tar
