import Hdc.Lib.ExactRuns

/-!
The two key files of the host (`auth.cpp`).

`TryLoadPublicKey` generates a pair where it does not find the private key: first the public file
is written, then the private one. `CheckPrivateKeyFile` comes with builds that encrypt the private
key. Where it finds one that is not encrypted it generates a new key and writes the private file
alone, so the public file keeps the half of the old key.

Nobody looks at the result of `fclose`, so a file whose last buffer does not reach the disk counts
as written.

* `Matched.tryLoadPublicKey`: generating keeps the files matched, whatever else fails in between;
* `matched_run`: the files stay matched as long as no plain private key is re-encrypted, none is
  overlooked and the public file of a new key is closed without an error.
-/

namespace Hdc.Host

/-- The private key file. A file that was opened and not written to its end is broken, and may have
the first line of a plain key; an encrypted one opens only with the password that stands beside
it. -/
inductive PrivateFile (Key : Type) where
  | absent
  | broken (plainLine : Bool)
  | plain (key : Key)
  | encrypted (key : Key) (opens : Bool)
deriving DecidableEq, Repr

/-- The public key file holds the public half of a key. -/
inductive PublicFile (Key : Type) where
  | absent
  | broken
  | holds (key : Key)
deriving DecidableEq, Repr

structure KeyFiles (Key : Type) where
  prikey : PrivateFile Key
  pubkey : PublicFile Key
deriving DecidableEq, Repr

variable {Key : Type}

/-- `IsEncryptedPEM` compares the first line only. -/
def PrivateFile.plainLine : PrivateFile Key → Bool
  | .plain _ => true
  | .broken plainLine => plainLine
  | .absent | .encrypted _ _ => false

namespace KeyFiles

/-- The private key, where the file exists and can be read. -/
def privateKey (files : KeyFiles Key) : Option Key :=
  match files.prikey with
  | .plain key => some key
  | .encrypted key true => some key
  | _ => none

/-- The public file belongs to the private one. -/
def Matched (files : KeyFiles Key) : Prop :=
  ∀ key, files.privateKey = some key → files.pubkey = .holds key

end KeyFiles

/-- What comes of the calls that an operation makes. -/
structure KeyCalls (Key : Type) where
  /-- `stat` finds a private file that is there. -/
  stat : Bool
  generateNewKey : Option Key
  openPublic : Bool
  writePublic : Bool
  closePublic : Bool
  encryptPwd : Bool
  openPrivate : Bool
  writePrivate : Bool
  closePrivate : Bool
  /-- A private file that breaks off has its first line. -/
  firstLine : Bool
  writePwd : Bool
  /-- The password file is then the one of the new key. -/
  pwdOpens : Bool
  /-- `fopen` and `fgets` of `IsEncryptedPEM`. -/
  readPrivate : Bool
deriving DecidableEq, Repr

/-- `WritePublicFile`. -/
def writePublicFile (calls : KeyCalls Key) (key : Key) (files : KeyFiles Key) :
    Bool × KeyFiles Key :=
  if !calls.openPublic then (false, files)
  else if !calls.writePublic then (false, { files with pubkey := .broken })
  -- `(void)fclose(fp)`
  else (true, { files with pubkey := if calls.closePublic then .holds key else .broken })

/-- What is in the private file after `PEM_write_PrivateKey` and `fclose`. -/
def KeyCalls.prikey (encrypt : Bool) (calls : KeyCalls Key) (key : Key) : PrivateFile Key :=
  if !(calls.writePrivate && calls.closePrivate) then .broken (!encrypt && calls.firstLine)
  else if encrypt then .encrypted key calls.pwdOpens
  else .plain key

/-- `WritePrivateFile`; `encrypt` stands for `HDC_SUPPORT_ENCRYPT_PRIVATE_KEY`. -/
def writePrivateFile (encrypt : Bool) (calls : KeyCalls Key) (key : Key) (files : KeyFiles Key) :
    Bool × KeyFiles Key :=
  if encrypt && !calls.encryptPwd then (false, files)
  else if !calls.openPrivate then (false, files)
  else
    (calls.writePrivate && (!encrypt || calls.writePwd),
      { files with prikey := calls.prikey encrypt key })

/-- `GenerateKeyPair`. -/
def generateKeyPair (encrypt : Bool) (calls : KeyCalls Key) (files : KeyFiles Key) :
    Bool × KeyFiles Key :=
  match calls.generateNewKey with
  | none => (false, files)
  | some key =>
    match writePublicFile calls key files with
    | (false, files) => (false, files)
    | (true, files) => writePrivateFile encrypt calls key files

/-- `TryLoadPublicKey`, as far as it changes the files. -/
def tryLoadPublicKey (encrypt : Bool) (calls : KeyCalls Key) (files : KeyFiles Key) :
    KeyFiles Key :=
  match files.prikey, calls.stat with
  | .absent, _ | _, false => (generateKeyPair encrypt calls files).2
  | _, true => files

/-- `CheckPrivateKeyFile`, in the builds that have it. -/
def checkPrivateKeyFile (encrypt : Bool) (calls : KeyCalls Key) (files : KeyFiles Key) :
    KeyFiles Key :=
  if !encrypt then files
  else
    match files.prikey.plainLine, calls.readPrivate, calls.generateNewKey with
    | true, true, some key => (writePrivateFile encrypt calls key files).2
    | _, _, _ => files

/-- The operations of the host on its keys. -/
inductive KeyOp (Key : Type) where
  | tryLoadPublicKey (calls : KeyCalls Key)
  | checkPrivateKeyFile (calls : KeyCalls Key)
deriving DecidableEq, Repr

def keyStep (encrypt : Bool) (files : KeyFiles Key) : KeyOp Key → KeyFiles Key
  | .tryLoadPublicKey calls => tryLoadPublicKey encrypt calls files
  | .checkPrivateKeyFile calls => checkPrivateKeyFile encrypt calls files

/-! ### Matched files -/

variable {files : KeyFiles Key}

namespace KeyFiles

theorem matched_of_none (unread : files.privateKey = none) :
    files.Matched := by
  intro key readable
  rw [unread] at readable
  cases readable

/-- Where the public file has the new key, the private one gets it or is none at all. -/
theorem matched_writePrivateFile (encrypt : Bool) (calls : KeyCalls Key) {key : Key}
    (unread : files.privateKey = none) (written : files.pubkey = .holds key) :
    (writePrivateFile encrypt calls key files).2.Matched := by
  unfold writePrivateFile
  split
  · exact matched_of_none unread
  split
  · exact matched_of_none unread
  · intro other readable
    obtain rfl : key = other := by
      unfold privateKey KeyCalls.prikey at readable
      grind
    exact written

/-- Without a private key to read, a pair is generated that matches, or no key that can be read. -/
theorem matched_generateKeyPair (encrypt : Bool) {calls : KeyCalls Key}
    (unread : files.privateKey = none) (closed : calls.closePublic = true) :
    (generateKeyPair encrypt calls files).2.Matched := by
  unfold generateKeyPair writePublicFile
  cases calls.generateNewKey with
  | none => exact matched_of_none unread
  | some key =>
    cases calls.openPublic with
    | false => exact matched_of_none unread
    | true =>
      cases calls.writePublic with
      | false => exact matched_of_none unread
      | true => exact matched_writePrivateFile _ _ unread (by rw [closed]; rfl)

theorem Matched.tryLoadPublicKey (matched : files.Matched) (encrypt : Bool)
    {calls : KeyCalls Key} (found : files.privateKey.isSome → calls.stat = true)
    (closed : files.prikey = .absent ∨ calls.stat = false → calls.closePublic = true) :
    (Host.tryLoadPublicKey encrypt calls files).Matched := by
  unfold Host.tryLoadPublicKey
  split
  case h_1 absent =>
    exact matched_generateKeyPair _ (by rw [privateKey, absent]) (closed (.inl absent))
  case h_2 missed _ =>
    have unread : files.privateKey = none := Option.not_isSome_iff_eq_none.mp fun readable => by
      rw [found readable] at missed
      cases missed
    exact matched_generateKeyPair _ unread (closed (.inr missed))
  case h_3 => exact matched

end KeyFiles

/-! ### Runs -/

/-- A readable private key is found when it is looked for, the public file of a new key is closed
without an error, and there is no plain private key where the build re-encrypts it. -/
def KeyOp.Fine (encrypt : Bool) (files : KeyFiles Key) : KeyOp Key → Prop
  | .tryLoadPublicKey calls =>
    (files.privateKey.isSome → calls.stat = true) ∧
      (files.prikey = .absent ∨ calls.stat = false → calls.closePublic = true)
  | .checkPrivateKeyFile _ => encrypt = true → files.prikey.plainLine = false

theorem KeyFiles.Matched.keyStep {encrypt : Bool} (matched : files.Matched)
    {op : KeyOp Key} (fine : op.Fine encrypt files) : (Host.keyStep encrypt files op).Matched := by
  cases op with
  | tryLoadPublicKey calls => exact matched.tryLoadPublicKey _ fine.1 fine.2
  | checkPrivateKeyFile calls =>
    change (checkPrivateKeyFile encrypt calls files).Matched
    unfold checkPrivateKeyFile
    split
    · exact matched
    case isFalse enabled =>
      split
      case h_1 plain _ _ =>
        rw [fine (by simpa using enabled)] at plain
        cases plain
      case h_2 => exact matched

/-- The files stay matched over every run of operations, as long as no plain private key is
re-encrypted, no private key is overlooked and each new public file is closed without an error. -/
theorem matched_run (encrypt : Bool) {start : KeyFiles Key} (matched : start.Matched)
    {ops : List (KeyOp Key)}
    (fine : ExactRuns.AllFine (keyStep encrypt) (fun files op => op.Fine encrypt files) start ops)
    (k : Nat) : ((ops.take k).foldl (keyStep encrypt) start).Matched :=
  ExactRuns.inv_run KeyFiles.Matched matched (fun before fine => before.keyStep fine)
    fun j _ _ here => fine j _ here

/-- All calls succeed, and key 1 is generated. -/
def goodCalls : KeyCalls Nat :=
  { stat := true, generateNewKey := some 1, openPublic := true, writePublic := true
    closePublic := true, encryptPwd := true, openPrivate := true, writePrivate := true
    closePrivate := true, firstLine := true, writePwd := true, pwdOpens := true
    readPrivate := true }

/-- The first start: a pair is generated, checked, and loaded again. -/
theorem matched_first_start :
    (([.tryLoadPublicKey goodCalls, .checkPrivateKeyFile goodCalls,
      .tryLoadPublicKey goodCalls].take 3).foldl (keyStep true)
        (⟨.absent, .absent⟩ : KeyFiles Nat)).Matched := by
  refine matched_run true (KeyFiles.matched_of_none rfl) ?_ 3
  refine .cons ⟨fun _ => rfl, fun _ => rfl⟩ (.cons (fun _ => rfl)
    (.cons ⟨fun _ => rfl, fun _ => rfl⟩ ?_))
  exact ExactRuns.allFine_nil

/-- The files of an older build: the private key is not encrypted. A first start whose public file
is not closed without an error leaves no public key beside the private one. -/
theorem reencrypted_unmatched :
    ((⟨.plain 0, .holds 0⟩ : KeyFiles Nat).Matched ∧
      ¬ (([.checkPrivateKeyFile goodCalls].foldl (keyStep true)
        (⟨.plain 0, .holds 0⟩ : KeyFiles Nat)).Matched)) ∧
      ¬ (([.tryLoadPublicKey { goodCalls with closePublic := false }].foldl (keyStep false)
        (⟨.absent, .absent⟩ : KeyFiles Nat)).Matched) := by
  refine ⟨⟨fun key readable => ?_, fun matched => ?_⟩, fun matched => ?_⟩
  · cases readable
    rfl
  · exact absurd (matched 1 rfl) (by decide)
  · exact absurd (matched 1 rfl) (by decide)

end Hdc.Host
