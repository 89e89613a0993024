import Hdc.Daemon.Auth

/-!
The keys that the user has allowed for good (`daemon.cpp`).

They are the lines of one file. A key is looked up as a piece of the file's text, and only if it
has the length of a usual key. The handshake delivers any text as a key: a shorter one is written
and never found, and one with a line break in it may be found though it was never written.

* `known_exact`: keys of the usual length, with no line break or with a first line of their own, are
  found exactly if they were added.
-/

namespace Hdc.Daemon.KnownHosts

open List

/-- What `ClearKnownHosts` asks for: the daemon's settings, and a parameter that may be missing. -/
structure ClearAnswer where
  authEnable : Bool
  bypass : Bool
  authCancel : Option Bytes
deriving DecidableEq, Repr

/-- The clear gets as far as the file. -/
def ClearAnswer.effective (answer : ClearAnswer) : Bool :=
  answer.authEnable && !answer.bypass && decide (answer.authCancel = some (str "true"))

inductive Call where
  | update (key : Bytes)
  | clear (answer : ClearAnswer)
deriving DecidableEq, Repr

def clearKnownHosts (keyfile : Bytes) (answer : ClearAnswer) : Bytes :=
  if answer.effective then [] else keyfile

def updateKnownHosts (keyfile key : Bytes) : Bytes := keyfile ++ (key ++ str "\n")

def keyLength : Nat := 625

def alreadyInKnownHosts (keyfile key : Bytes) : Bool :=
  decide (key.length = keyLength) && decide (key <:+: keyfile)

def step (keyfile : Bytes) : Call → Bytes
  | .update key => updateKnownHosts keyfile key
  | .clear answer => clearKnownHosts keyfile answer

/-- The file after some calls, from an empty one. -/
def run (calls : List Call) : Bytes := calls.foldl step []

/-- The keys that were added after the last effective clear. -/
def added (calls : List Call) : List Bytes :=
  calls.foldl (fun keys call => match call with
    | .update key => keys ++ [key]
    | .clear answer => if answer.effective then [] else keys) []

/-- The file has a line for each key. -/
theorem file_run (calls : List Call) : run calls = (added calls).flatMap (· ++ str "\n") := by
  induction calls using reverseRecOn with
  | nil => rfl
  | append_singleton calls call ih =>
    simp only [run, added, foldl_append, foldl_cons] at ih ⊢
    rw [ih]
    cases call with
    | update key => simp [step, updateKnownHosts]
    | clear answer =>
      simp only [step, clearKnownHosts]
      split_ifs <;> rfl

variable {α : Type}

theorem prefix_of_append_cons {mark first later : List α} {separator : α} (free : separator ∉ mark)
    (whole : mark <+: first ++ separator :: later) : mark <+: first := by
  obtain ⟨rest, whole⟩ := whole
  rcases append_eq_append_iff.mp whole with ⟨gap, rfl, -⟩ | ⟨past, rfl, right⟩
  · exact prefix_append ..
  · cases past with
    | nil => simp
    | cons head past =>
      obtain ⟨rfl, -⟩ := cons.inj right
      simp at free

/-- A piece without the separator lies on one side of it. -/
theorem isInfix_append_cons {piece first later : List α} {separator : α}
    (free : separator ∉ piece) :
    piece <:+: first ++ separator :: later ↔ piece <:+: first ∨ piece <:+: later := by
  constructor
  · rintro ⟨before, after, whole⟩
    rcases append_eq_append_iff.mp whole with ⟨gap, rfl, -⟩ | ⟨past, left, right⟩
    · exact .inl ⟨before, gap, rfl⟩
    cases past with
    | nil => exact .inl ⟨before, [], by simpa using left⟩
    | cons head past =>
      obtain ⟨rfl, rfl⟩ := cons.inj right
      rcases append_eq_append_iff.mp left with ⟨gap, -, inside⟩ | ⟨gap, rfl, inside⟩
      · exact absurd (by simp [inside]) free
      cases gap with
      | nil => exact absurd (by simp [← show _ = piece from inside]) free
      | cons _ gap =>
        obtain ⟨-, rfl⟩ := cons.inj inside
        exact .inr ⟨gap, after, rfl⟩
  · rintro (left | right)
    · exact left.trans (prefix_append _ _).isInfix
    · exact right.trans (suffix_append_of_suffix (suffix_cons _ _)).isInfix

/-- The line that a PEM text begins with. -/
def pemMark : Bytes := str "-----BEGIN PUBLIC KEY-----"

/-- A key of the usual length: a single line, or a text that begins with the mark, as those that the
hosts make begin with `pemMark`; and the mark is nowhere else in it. -/
def Usual (mark key : Bytes) : Prop :=
  key.length = keyLength ∧ ((10 : UInt8) ∉ key ∨ mark <+: key) ∧
    ∀ i < keyLength, mark <+: key.drop i → i = 0

theorem Usual.mark_ne_nil {mark key : Bytes} (usual : Usual mark key) : mark ≠ [] := by
  rintro rfl
  cases usual.2.2 1 (by decide) List.nil_prefix

/-- A text that begins with the mark is found where a key begins. -/
theorem isInfix_append_of_mark {mark key first later : Bytes} (line : (10 : UInt8) ∉ mark)
    (begins : mark <+: key) (usual : Usual mark key) (other : Usual mark first) :
    key <:+: first ++ 10 :: later ↔ key = first ∨ key <:+: later := by
  constructor
  · rintro ⟨before, after, whole⟩
    rw [append_assoc] at whole
    rcases append_eq_append_iff.mp whole with ⟨gap, rfl, rest⟩ | ⟨past, rfl, rest⟩
    · have here : mark <+: gap :=
        prefix_of_append_cons line (begins.trans ⟨after, rest⟩)
      have length := other.1
      rw [length_append] at length
      by_cases inside : before.length < keyLength
      · have start := other.2.2 before.length inside (by rwa [drop_left])
        obtain rfl := eq_nil_of_length_eq_zero start
        exact .inl (append_inj_left rest (usual.1.trans other.1.symm))
      · obtain rfl : gap = [] := eq_nil_of_length_eq_zero (by omega)
        exact absurd (prefix_nil.mp here) usual.mark_ne_nil
    · cases past with
      | nil =>
        have here : mark <+: [] :=
          prefix_of_append_cons line (begins.trans ⟨after, rest.symm⟩)
        exact absurd (prefix_nil.mp here) usual.mark_ne_nil
      | cons head past =>
        obtain ⟨-, rfl⟩ := cons.inj rest
        exact .inr ⟨past, after, append_assoc ..⟩
  · rintro (rfl | right)
    · exact (prefix_append ..).isInfix
    · exact right.trans (suffix_append_of_suffix (suffix_cons _ _)).isInfix

theorem isInfix_lines_iff {mark key : Bytes} (line : (10 : UInt8) ∉ mark) (usual : Usual mark key)
    {keys : List Bytes} (all : ∀ other ∈ keys, Usual mark other) :
    key <:+: keys.flatMap (· ++ str "\n") ↔ key ∈ keys := by
  induction keys with
  | nil =>
    have some_byte : key ≠ [] := ne_nil_of_length_pos (by simp [usual.1, keyLength])
    simp [some_byte]
  | cons first keys ih =>
    rw [forall_mem_cons] at all
    have lines : (first :: keys).flatMap (· ++ str "\n") =
        first ++ (10 : UInt8) :: keys.flatMap (· ++ str "\n") := by
      simp [str]
    rw [lines, mem_cons]
    rcases usual.2.1 with single | begins
    · rw [isInfix_append_cons single, ih all.2]
      refine or_congr_left ⟨fun inside => inside.eq_of_length (usual.1.trans all.1.1.symm), ?_⟩
      rintro rfl
      exact infix_rfl
    · rw [isInfix_append_of_mark line begins usual all.1, ih all.2]

/-- Usual keys are found exactly if they were added since the file was cleared. The mark is any line;
keys without a line break are usual for every mark that is longer. -/
theorem known_exact {mark : Bytes} (line : (10 : UInt8) ∉ mark) (calls : List Call)
    (all : ∀ other ∈ added calls, Usual mark other) {key : Bytes} (usual : Usual mark key) :
    alreadyInKnownHosts (run calls) key = true ↔ key ∈ added calls := by
  simp [alreadyInKnownHosts, usual.1, file_run, isInfix_lines_iff line usual all]

/-- A key without a line break, and one with its lines. -/
def someKey : Bytes := replicate 625 65

def pemKey : Bytes := pemMark ++ 10 :: replicate 598 65

theorem usual_someKey : Usual pemMark someKey := by
  refine ⟨length_replicate, .inl fun inside => ?_, fun i _ here => ?_⟩
  · cases (mem_replicate.mp inside).2
  · have dash : (45 : UInt8) ∈ someKey := mem_of_mem_drop (here.subset (by decide))
    cases (mem_replicate.mp dash).2

/-- The eighth byte of the mark is nowhere else in the key. -/
theorem usual_pemKey : Usual pemMark pemKey := by
  refine ⟨by simp only [pemKey, length_append, length_cons, length_replicate]; rfl,
    .inr (prefix_append ..), fun i _ here => ?_⟩
  obtain ⟨rest, same⟩ := here
  have byte : pemKey[i + 7]? = some 71 := by
    rw [← getElem?_drop, ← same]
    rfl
  by_cases front : i < 19
  · have once : ∀ i < 19, pemMark[i + 7]? = some 71 → i = 0 := by decide
    rw [pemKey, getElem?_append_left (by rw [show pemMark.length = 26 from rfl]; omega)] at byte
    exact once i front byte
  · rw [pemKey, getElem?_append_right (by rw [show pemMark.length = 26 from rfl]; omega)] at byte
    rcases mem_cons.mp (mem_of_getElem? byte) with newline | letter
    · cases newline
    · cases (mem_replicate.mp letter).2

theorem known_after_update :
    (alreadyInKnownHosts (run [.update someKey]) someKey = true ↔ someKey ∈ [someKey]) ∧
      (alreadyInKnownHosts (run [.update someKey]) pemKey = true ↔ pemKey ∈ [someKey]) := by
  have line : (10 : UInt8) ∉ pemMark := by decide
  have all : ∀ other ∈ [someKey], Usual pemMark other := forall_mem_singleton.mpr usual_someKey
  exact ⟨known_exact line [.update someKey] all usual_someKey,
    known_exact line [.update someKey] all usual_pemKey⟩

/-- With one key in the file, its end together with the line break is a known key, too. -/
theorem piece_is_known :
    getHostPubkeyInfo (str "host" ++ [12] ++ (replicate 624 65 ++ [10])) =
        some (str "host", replicate 624 65 ++ [10]) ∧
      alreadyInKnownHosts (run [.update someKey]) (replicate 624 65 ++ [10]) = true ∧
      replicate 624 65 ++ [10] ∉ added [.update someKey] := by
  refine ⟨rfl, ?_, ?_⟩
  · refine Bool.and_eq_true_iff.mpr ⟨decide_eq_true ?_, decide_eq_true ?_⟩
    · rw [length_append, length_replicate]
      rfl
    · change _ <:+: someKey ++ [10]
      exact (suffix_cons _ _).isInfix
  · intro inside
    have same : replicate 624 65 ++ [10] = someKey := mem_singleton.mp inside
    have newline : (10 : UInt8) ∈ someKey := same ▸ mem_append_right _ (mem_singleton_self _)
    cases (mem_replicate.mp newline).2

end Hdc.Daemon.KnownHosts
