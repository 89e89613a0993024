import Hdc.Tar.Header
import Hdc.Transfer.File

/-!
One entry of an archive, `entry.cpp`: as it is written and as it is taken out.

The archive is written through an `std::ofstream` that stops for good once anything has failed, and
nobody looks at it. Inserting a file that could not be opened, or that is empty, is such a failure.

Taking out asks the file system, of which nothing is known: `FileSystem` is any state with any
answers. For the statements, `touched` are the paths that were created or opened, `written` what
went to the file that is open, `consumed` how much of the archive the payload of the entry has
taken, `made` the entries that were taken out, and `payloads` what each entry took.
-/

namespace Hdc.Tar

open Transfer (checkPathTraversal sIfmt sIfdir sIfreg)

def entryFileBufsize : Nat := 4 * 1024
def entryMaxFileSize : Nat := 4 * 1024 * 1024 * 1024

/-! ### The outside -/

/-- What `lstat` tells, as far as it is used. -/
structure Stat where
  mode : UInt32
  size : Nat
deriving DecidableEq, Repr

/-- What stands at a path. -/
inductive Node where
  | dir
  | file (content : Bytes)
deriving DecidableEq, Repr

/-- A name and what it stands for. -/
structure Item where
  name : Bytes
  node : Node
deriving DecidableEq, Repr

/-- Any file system; paths are C strings. The modes of `lstat` are asked for, whether
`mkdir`, opening to append, and appending work, and what stands at a path. -/
structure FileSystem (σ : Type) where
  lstat : σ → Bytes → Option UInt32
  mkdir : σ → Bytes → Bool × σ
  openAppend : σ → Bytes → Bool × σ
  append : σ → Bytes → Bytes → Bool × σ
  node : σ → Bytes → Option Node

/-- An `std::ofstream`: what went through, and the state bits. -/
structure OutStream where
  written : Bytes := []
  failed : Bool := false
deriving DecidableEq, Repr

namespace OutStream

def write (file : OutStream) (data : Bytes) : OutStream :=
  if file.failed then file else { file with written := file.written ++ data }

/-- `file << inFile.rdbuf()`: inserting nothing is a failure. -/
def insert (file : OutStream) (inFile : Option Bytes) : OutStream :=
  if file.failed then file
  else
    match inFile with
    | none => { file with failed := true }
    | some [] => { file with failed := true }
    | some content => { file with written := file.written ++ content }

end OutStream

/-! ### Entries -/

structure Entry where
  header : Header
  /-- Not set by the source for anything but a file, and not read then. -/
  needSize : Nat := 0
  pathPrefix : Bytes := []
deriving DecidableEq, Repr

/-- `StripPrefix`. -/
def stripPrefix (text front : Bytes) : Option Bytes :=
  if front.isPrefixOf text then some (text.drop front.length) else none

namespace Entry

/-- `UpdataName`. -/
def updataName (entry : Entry) (name : Bytes) : Bool × Entry :=
  let updated :=
    if entry.pathPrefix ≠ [] then
      match stripPrefix name entry.pathPrefix with
      | some path => entry.header.updataName path
      | none => entry.header.updataName name
    else entry.header.updataName name
  (updated.1, { entry with header := updated.2 })

/-- The header of a new entry, by what `lstat` says of its path. -/
def label : Option Stat → Header × Nat
  | none => (.new, 0)
  | some stat =>
    if stat.mode &&& sIfdir ≠ 0 then ((Header.new.updataFileType .directory).updataSize 0, 0)
    else if stat.mode &&& sIfreg ≠ 0 then
      if stat.size < entryMaxFileSize then
        ((Header.new.updataSize stat.size).updataFileType .ordinaryFile, stat.size)
      else (.new, 0)
    else (.new, 0)

/-- `Entry(prefix, path)`. Whether the name fits is not looked at. -/
def new (pathPrefix path : Bytes) (stat : Option Stat) : Entry :=
  let entry : Entry :=
    { header := (label stat).1, needSize := (label stat).2, pathPrefix := pathPrefix ++ [47] }
  (entry.updataName path).2

/-- `Entry(data, dataLen)`. -/
def ofData (data : Bytes) : Entry where
  header := .ofData data
  needSize := (Header.ofData data).size

/-- `GetName`. -/
def getName (entry : Entry) : Bytes :=
  let headerName := entry.header.name
  if entry.pathPrefix ≠ [] then
    let prefixPath :=
      if entry.pathPrefix.getLast? ≠ some 47 then entry.pathPrefix ++ [47] else entry.pathPrefix
    prefixPath ++ headerName
  else headerName

/-! ### Writing -/

/-- The zeros behind a payload. -/
def padding (needSize : Nat) : Bytes :=
  if headerLen - needSize % headerLen < headerLen then
    List.replicate (headerLen - needSize % headerLen) 0
  else []

/-- `WriteToTar`; `found` is what opening a path gives. -/
def writeToTar (entry : Entry) (found : Bytes → Option Bytes) (file : OutStream) :
    Bool × OutStream :=
  match entry.header.fileType with
  | .ordinaryFile =>
    let file := file.write entry.header.getBytes
    if entry.header.size = 0 then (true, file)
    else
      let file := file.insert (found (cStr entry.getName))
      (true, file.write (padding entry.needSize))
  | .directory => (true, file.write entry.header.getBytes)
  | _ => (false, file)

end Entry

/-! ### Taking out -/

/-- How much the archive held behind a header, and how much of it the payload took. -/
structure Payload where
  held : Nat
  taken : Nat
deriving DecidableEq, Repr

structure Extraction (σ : Type) where
  disk : σ
  inFile : Bytes
  touched : List Bytes := []
  written : Bytes := []
  consumed : Nat := 0
  made : List Item := []
  payloads : List Payload := []

namespace Extraction

variable {σ : Type} (fs : FileSystem σ)

/-- `TryCreateDirectory`. -/
def tryCreateDirectory (path : Bytes) (x : Extraction σ) : Bool × Extraction σ :=
  match fs.lstat x.disk (cStr path) with
  | none =>
    let made := fs.mkdir x.disk (cStr path)
    (made.1, { x with disk := made.2, touched := x.touched ++ [cStr path] })
  | some mode => (mode &&& sIfmt = sIfdir, x)

/-- `ReadAndWriteData`: what is read has to be there as a whole. -/
def readAndWriteData (saveFile : Bytes) (readSize writeSize : Nat) (x : Extraction σ) :
    Bool × Extraction σ :=
  let buffAppend := x.inFile.take readSize
  let x := { x with
    inFile := x.inFile.drop readSize, consumed := x.consumed + buffAppend.length }
  if buffAppend.length ≠ readSize then (false, x)
  else
    let data := buffAppend.take writeSize
    let wrote := fs.append x.disk (cStr saveFile) data
    (wrote.1, { x with disk := wrote.2, written := x.written ++ data })

/-- The loop of `PayloadToFile`, that many times round. -/
def copyBuffers (saveFile : Bytes) : Nat → Extraction σ → Bool × Extraction σ
  | 0, x => (true, x)
  | turns + 1, x =>
    let copied := x.readAndWriteData fs saveFile entryFileBufsize entryFileBufsize
    if copied.1 then copied.2.copyBuffers saveFile turns else copied

/-- The last piece of a payload, with the zeros behind it. -/
def copyLast (saveFile : Bytes) (needSize : Nat) (x : Extraction σ) : Bool × Extraction σ :=
  if 0 < needSize then
    let paddingSize := headerLen - needSize % headerLen
    let lastBufSize := if paddingSize = headerLen then needSize else needSize + paddingSize
    x.readAndWriteData fs saveFile lastBufSize needSize
  else (true, x)

/-- The payload of an entry, from the archive to the open file. -/
def copyContent (saveFile : Bytes) (needSize : Nat) (x : Extraction σ) : Bool × Extraction σ :=
  let copied := x.copyBuffers fs saveFile (needSize / entryFileBufsize)
  if copied.1 then copied.2.copyLast fs saveFile (needSize % entryFileBufsize) else copied

/-- What was taken out is noted. -/
def noting (name : Bytes) (node : Extraction σ → Node) (out : Bool × Extraction σ) :
    Bool × Extraction σ :=
  (out.1, if out.1 then { out.2 with made := out.2.made ++ [⟨name, node out.2⟩] } else out.2)

/-- `PayloadToFile`. -/
def payloadToFile (prefixPath : Bytes) (entry : Entry) (x : Extraction σ) : Bool × Extraction σ :=
  let saveFile := prefixPath ++ entry.getName
  if checkPathTraversal saveFile = false then (false, x)
  else
    let opened := fs.openAppend x.disk (cStr saveFile)
    let x := { x with disk := opened.2, touched := x.touched ++ [cStr saveFile], written := [] }
    if opened.1 = false then (false, x)
    else noting entry.getName (fun x => .file x.written) (x.copyContent fs saveFile entry.needSize)

/-- `PayloadToDir`. -/
def payloadToDir (prefixPath : Bytes) (entry : Entry) (x : Extraction σ) : Bool × Extraction σ :=
  let dirPath := prefixPath ++ entry.getName
  if checkPathTraversal dirPath = false then (false, x)
  else noting entry.getName (fun _ => .dir) (x.tryCreateDirectory fs dirPath)

/-- `CopyPayload`. -/
def copyPayload (prefixPath : Bytes) (entry : Entry) (x : Extraction σ) : Bool × Extraction σ :=
  if checkPathTraversal entry.getName = false then (false, x)
  else
    match entry.header.fileType with
    | .ordinaryFile => x.payloadToFile fs prefixPath entry
    | .directory => x.payloadToDir fs prefixPath entry
    | _ => (false, x)

end Extraction

end Hdc.Tar
