import Hdc.Transfer.Config
import Hdc.Transfer.Path
import Hdc.Lib.Interaction

/-!
What a file transfer asks of the outside: the file system, the peer, and the message
it shows to the user.

The functions of `transfer.cpp` and `file.cpp` mix text handling with calls of the
file system, and between two calls other processes may change it. They are programs
over `Call`, so that a statement about all their runs is one about every state of the
file system and every change of it. The file system is given the C string of a path,
and names in a directory are names: that is all that is known of it.

`touched` says which paths an event creates, opens or changes.
-/

namespace Hdc.Transfer

open Interaction LexicalPath List Prog

/-! ### Calls and answers -/

/-- A name that a directory can hold. -/
structure FileName where
  bytes : Bytes
  named : IsName 47 bytes
  ended : 0 ∉ bytes

/-- What `stat` tells of a file, as far as it is used. -/
structure Stat where
  size : UInt64
  mode : UInt32
  uid : UInt32
  gid : UInt32
  atimeSec : UInt64
  atimeNsec : UInt64
  mtimeSec : UInt64
  mtimeNsec : UInt64
deriving DecidableEq, Repr

/-- The entries of a directory, in the order of `uv_fs_scandir_next`, each with its
type, and with what a scan of it as a directory gives: nothing where that fails, or the
result of `stat` on it and the entries below it. -/
inductive Entries where
  | nil
  | cons (name : FileName) (type : UInt32) (scan : Option (Option Stat)) (below rest : Entries)

/-- The modes of `access`. -/
inductive AccessMode where
  | exists
  | readable
  | writable
deriving DecidableEq, Repr

inductive Call where
  | lstat (path : Bytes)
  | stat (path : Bytes)
  | access (path : Bytes) (mode : AccessMode)
  | realpath (path : Bytes)
  | scandir (path : Bytes)
  | mkdir (path : Bytes)
  | chmod (path : Bytes) (perm : UInt64)
  | chown (path : Bytes) (uId gId : UInt64)
  /-- `uv_fs_open` to create or truncate; the result arrives later. -/
  | openWrite (path : Bytes)
  /-- `uv_fs_open` with `O_RDONLY`. -/
  | openRead (path : Bytes)
  /-- `LogMsg` with `MSG_FAIL`. -/
  | logMsg (text : Bytes)
  | sendToAnother (command : UInt16) (payload : Bytes)
  /-- The process ends: an exception that nothing catches, or undefined behaviour. -/
  | terminate
deriving DecidableEq, Repr

/-- What a call is answered with. A failed `mkdir` says why; `realpath` gives the empty
text where it fails, as `CanonicalizeSpecPath` does. -/
def Call.Answer : Call → Type
  | .lstat _ => Option UInt32
  | .stat _ => Option Stat
  | .access _ _ => Bool
  | .realpath _ => Bytes
  | .scandir _ => Option (Option Stat × Entries)
  | .mkdir _ => Option Bytes
  | .terminate => Empty
  | _ => Unit

abbrev Program (α : Type) := Prog Call Call.Answer α

abbrev Event := Interaction.Event Call Call.Answer

/-! ### Calls by C string -/

def lstat (path : Bytes) : Program (Option UInt32) := call (Call.lstat (cStr path))
def stat (path : Bytes) : Program (Option Stat) := call (Call.stat (cStr path))
def access (path : Bytes) (mode : AccessMode) : Program Bool :=
  call (Call.access (cStr path) mode)
def canonicalizeSpecPath (path : Bytes) : Program Bytes := call (Call.realpath (cStr path))
def scandir (path : Bytes) : Program (Option (Option Stat × Entries)) :=
  call (Call.scandir (cStr path))
def mkdir (path : Bytes) : Program (Option Bytes) := call (Call.mkdir (cStr path))
def chmod (path : Bytes) (perm : UInt64) : Program Unit := call (Call.chmod (cStr path) perm)
def chown (path : Bytes) (uId gId : UInt64) : Program Unit :=
  call (Call.chown (cStr path) uId gId)
def openWrite (path : Bytes) : Program Unit := call (Call.openWrite (cStr path))
def openRead (path : Bytes) : Program Unit := call (Call.openRead (cStr path))
def logMsg (text : Bytes) : Program Unit := call (Call.logMsg (cStr text))
def sendToAnother (command : HdcCommand) (payload : Bytes) : Program Unit :=
  call (Call.sendToAnother command.code payload)
def terminate {α : Type} : Program α := .ask .terminate nofun

/-! ### Paths that are touched -/

inductive Touch where
  | created
  | changed
  | written
  | read
deriving DecidableEq, Repr

/-- The path that an event touches, and how. A directory is created where `mkdir`
succeeds; the other calls count whatever comes of them. -/
def touched : Event → Option (Touch × Bytes)
  | ⟨.mkdir path, none⟩ => some (.created, path)
  | ⟨.chmod path _, _⟩ => some (.changed, path)
  | ⟨.chown path _ _, _⟩ => some (.changed, path)
  | ⟨.openWrite path, _⟩ => some (.written, path)
  | ⟨.openRead path, _⟩ => some (.read, path)
  | _ => none

/-- Everything a run touches. -/
def touches (trace : List Event) : List (Touch × Bytes) := trace.filterMap touched

/-! ### Rules for calls -/

/-- What is asked of the paths that are touched, as a condition on events. -/
def OnTouch (T : Touch × Bytes → Prop) (event : Event) : Prop :=
  ∀ touch, touched event = some touch → T touch

variable {path : Bytes}

section Rules

variable {α β : Type} {T : Touch × Bytes → Prop} {Q : α → Prop}

theorem onTouch_of_none {event : Event} (quiet : touched event = none) : OnTouch T event := by
  intro touch same
  rw [quiet] at same
  cases same

/-- A call that touches nothing, whatever its answer. -/
theorem always_quiet_bind {c : Call} {f : c.Answer → Program α}
    (quiet : ∀ answer, touched ⟨c, answer⟩ = none) :
    Always (OnTouch T) Q (call c >>= f) ↔ ∀ answer, Always (OnTouch T) Q (f answer) := by
  exact forall_congr' fun answer => and_iff_right (onTouch_of_none (quiet _))

variable (path : Bytes)

@[simp] theorem always_lstat_bind (f : Option UInt32 → Program α) :
    Always (OnTouch T) Q (lstat path >>= f) ↔ ∀ answer, Always (OnTouch T) Q (f answer) :=
  always_quiet_bind fun _ => rfl

@[simp] theorem always_stat_bind (f : Option Stat → Program α) :
    Always (OnTouch T) Q (stat path >>= f) ↔ ∀ answer, Always (OnTouch T) Q (f answer) :=
  always_quiet_bind fun _ => rfl

@[simp] theorem always_access_bind (mode : AccessMode) (f : Bool → Program α) :
    Always (OnTouch T) Q (access path mode >>= f) ↔ ∀ answer, Always (OnTouch T) Q (f answer) :=
  always_quiet_bind fun _ => rfl

@[simp] theorem always_realpath_bind (f : Bytes → Program α) :
    Always (OnTouch T) Q (canonicalizeSpecPath path >>= f) ↔
    ∀ answer, Always (OnTouch T) Q (f answer) :=
  always_quiet_bind fun _ => rfl

@[simp] theorem always_scandir_bind
    (f : Option (Option Stat × Entries) → Program α) :
    Always (OnTouch T) Q (scandir path >>= f) ↔ ∀ answer, Always (OnTouch T) Q (f answer) :=
  always_quiet_bind fun _ => rfl

@[simp] theorem always_logMsg_bind (text : Bytes) (f : Unit → Program α) :
    Always (OnTouch T) Q (logMsg text >>= f) ↔ Always (OnTouch T) Q (f ()) :=
  (always_quiet_bind fun _ => rfl).trans ⟨fun all => all (), fun holds _ => holds⟩

@[simp] theorem always_sendToAnother_bind (command : HdcCommand) (payload : Bytes)
    (f : Unit → Program α) :
    Always (OnTouch T) Q (sendToAnother command payload >>= f) ↔ Always (OnTouch T) Q (f ()) :=
  (always_quiet_bind fun _ => rfl).trans ⟨fun all => all (), fun holds _ => holds⟩

@[simp] theorem always_terminate : Always (OnTouch T) Q terminate ↔ True :=
  iff_true_intro nofun

/-- A call that touches its path. -/
theorem always_touch_bind {c : Call} {touch : Touch × Bytes} {f : c.Answer → Program α}
    (touching : ∀ answer, touched ⟨c, answer⟩ = some touch) (allowed : T touch)
    (after : ∀ answer, Always (OnTouch T) Q (f answer)) :
    Always (OnTouch T) Q (call c >>= f) := by
  intro answer
  refine ⟨fun other same => ?_, after _⟩
  obtain rfl := Option.some.inj ((touching answer).symm.trans same)
  exact allowed

variable {path}

/-- A directory counts as created where the call succeeds. -/
theorem always_mkdir_bind {f : Option Bytes → Program α}
    (allowed : T (.created, cStr path)) (after : ∀ answer, Always (OnTouch T) Q (f answer)) :
    Always (OnTouch T) Q (mkdir path >>= f) := by
  intro answer
  refine ⟨?_, after _⟩
  cases answer with
  | none =>
    intro touch same
    obtain rfl := Option.some.inj same
    exact allowed
  | some reason => exact onTouch_of_none rfl

end Rules

/-- Along a run that keeps to a condition, so does everything it touches. -/
theorem touches_of_always {α : Type} {T : Touch × Bytes → Prop} {Q : α → Prop} {p : Program α}
    {trace : List Event} {result : Option α} (spec : Always (OnTouch T) Q p)
    (run : Runs p trace result) : ∀ touch ∈ touches trace, T touch := by
  intro touch mem
  obtain ⟨_, inTrace, touching⟩ := mem_filterMap.mp mem
  exact (spec.of_runs run).1 _ inTrace _ touching

theorem touches_append (before after : List Event) :
    touches (before ++ after) = touches before ++ touches after := filterMap_append

/-! ### Runs that exist -/

/-- Some run ends with `value` and touches all of `some`. -/
def Reaches {α : Type} (p : Program α) (value : α) (some : List (Touch × Bytes)) : Prop :=
  ∃ trace, Runs p trace (.some value) ∧ some ⊆ touches trace

section Reaches

variable {α β : Type} {value : α} {result : β} {first rest : List (Touch × Bytes)}

theorem reaches_pure (value : α) : Reaches (pure value) value [] :=
  ⟨[], .done _, nil_subset _⟩

theorem Reaches.bind {p : Program α} {f : α → Program β} (before : Reaches p value first)
    (after : Reaches (f value) result rest) : Reaches (p >>= f) result (first ++ rest) := by
  obtain ⟨trace, run, has⟩ := before
  obtain ⟨later, laterRun, laterHas⟩ := after
  refine ⟨trace ++ later, run.bind laterRun, ?_⟩
  rw [touches_append]
  exact append_subset.mpr ⟨subset_append_of_subset_left _ has,
    subset_append_of_subset_right _ laterHas⟩

theorem Reaches.andThen {α : Type} {value result : α} {p : Program (Bool × α)}
    {f : α → Program (Bool × α)} (before : Reaches p (true, value) first)
    (after : Reaches (f value) (true, result) rest) :
    Reaches (p.andThen f) (true, result) (first ++ rest) :=
  Reaches.bind before after

/-- Where the first part fails, the second one does not run. -/
theorem Reaches.andThen_stop {α : Type} {value : α} {p : Program (Bool × α)}
    (f : α → Program (Bool × α)) (before : Reaches p (false, value) first) :
    Reaches (p.andThen f) (false, value) first := by
  have stopped : Reaches (p.andThen f) (false, value) (first ++ []) :=
    Reaches.bind before (reaches_pure _)
  rwa [append_nil] at stopped

theorem Reaches.mono {p : Program α} (reaches : Reaches p value rest) (fewer : first ⊆ rest) :
    Reaches p value first := by
  obtain ⟨trace, run, has⟩ := reaches
  exact ⟨trace, run, List.Subset.trans fewer has⟩

/-- A call may be answered by anything. -/
theorem reaches_call_bind (c : Call) {f : c.Answer → Program α} (answer : c.Answer)
    (after : Reaches (f answer) value rest) :
    Reaches (call c >>= f) value ((touched ⟨c, answer⟩).toList ++ rest) := by
  obtain ⟨trace, run, has⟩ := after
  refine ⟨⟨c, _⟩ :: trace, .ask _ run, ?_⟩
  rw [touches, filterMap_cons]
  cases touched ⟨c, answer⟩ with
  | none => exact has
  | some touch => exact cons_subset_cons _ has

theorem reaches_lstat_bind {f : Option UInt32 → Program α} (answer : Option UInt32)
    (after : Reaches (f answer) value rest) : Reaches (lstat path >>= f) value rest :=
  reaches_call_bind (.lstat _) _ after

theorem reaches_access (path : Bytes) (mode : AccessMode) (answer : Bool) :
    Reaches (access path mode) answer [] :=
  ⟨_, @Runs.call Call Call.Answer (.access (cStr _) _) _, nil_subset _⟩

theorem reaches_chown (path : Bytes) (uId gId : UInt64) : Reaches (chown path uId gId) () [] :=
  ⟨_, @Runs.call Call Call.Answer (.chown (cStr _) _ _) (), nil_subset _⟩

theorem reaches_realpath_bind {f : Bytes → Program α} (answer : Bytes)
    (after : Reaches (f answer) value rest) :
    Reaches (canonicalizeSpecPath path >>= f) value rest :=
  reaches_call_bind (.realpath _) _ after

theorem reaches_scandir_bind {f : Option (Option Stat × Entries) → Program α}
    (answer : Option (Option Stat × Entries)) (after : Reaches (f answer) value rest) :
    Reaches (scandir path >>= f) value rest :=
  reaches_call_bind (.scandir _) _ after

variable {f : Unit → Program α}

theorem reaches_logMsg_bind {text : Bytes}
    (after : Reaches (f ()) value rest) : Reaches (logMsg text >>= f) value rest :=
  reaches_call_bind (.logMsg _) () after

theorem reaches_mkdir_bind {f : Option Bytes → Program α} (after : Reaches (f none) value rest) :
    Reaches (mkdir path >>= f) value ((.created, cStr path) :: rest) :=
  reaches_call_bind (.mkdir _) none after

theorem reaches_openWrite_bind (after : Reaches (f ()) value rest) :
    Reaches (openWrite path >>= f) value ((.written, cStr path) :: rest) :=
  reaches_call_bind (.openWrite _) () after

theorem reaches_openRead_bind (after : Reaches (f ()) value rest) :
    Reaches (openRead path >>= f) value ((.read, cStr path) :: rest) :=
  reaches_call_bind (.openRead _) () after

end Reaches

end Hdc.Transfer
