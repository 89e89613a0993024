import Hdc.CredentialMessage

/-!
The credential service (`credential/main.cpp`) and those who ask it.

A request is read into a `CredentialMessage`, the same object is given the result as its body, and
what it constructs is the reply. An empty result is not set, so the reply to a request that failed
has the body of the request. The clients take any body for a result.

* `loud_iff`: the service fails loudly only where nothing fails;
* `encryptGetPwdValue_failed`: a password that cannot be encrypted comes back as it is, with what
  stands behind it in memory.
-/

namespace Hdc.Credential

open Base CredentialMessage List

def passwordLength : Nat := 10
def methodReport : Int := 2
def methodAuthVerify : Int := 3
def methodEncrypt : Int := 1
def methodDecrypt : Int := 2
def methodCommandEventReport : Int := 1
def getPubkey : Int := 0
def getSignature : Int := 1
def getPubkeySuccessed : Int := 0
def getPubkeyFailed : Int := 1
def getPrivkeyFailed : Int := 2
def mismatchPubkeyPrivkey : Int := 3
def getPrivateSuccessed : Int := 4

/-! ### Messages in use -/

/-- `GetMessageBody`, none for the null pointer. -/
def CredentialMessage.getMessageBody (message : CredentialMessage) : Option Bytes :=
  match message.messageBody with
  | none => none
  | some buffer =>
    if message.messageBodyLen = 0 then none else some (buffer.take message.messageBodyLen.toNat)

/-- `SplicMessageStr`. -/
def splicMessageStr (body : Bytes) (methodType methodVersion : Nat) : Bytes :=
  let messageMethodTypeStr := intToStringWithPadding methodType messageMethodLen
  let messageBodyLen := intToStringWithPadding body.length messageLengthLen
  if body = [] then []
  else if messageMethodTypeStr.length ≠ messageMethodLen then []
  else if messageBodyLen = [] ∨ messageLengthLen < messageBodyLen.length then []
  else digitChar methodVersion :: messageMethodTypeStr ++ messageBodyLen ++ body

variable {body : Bytes}

theorem splicMessageStr_eq {version method : Nat}
    (fields : Fields version method body) :
    splicMessageStr body method version = text version method body := by
  have bound := fields.body
  rw [messageStrMaxLen] at bound
  have methodSmall : method < 10 ^ 3 := Nat.lt_succ_of_le fields.method
  have lengthSmall : body.length < 10 ^ 4 := by omega
  have lengthLength : (padded 4 body.length).length = 4 := length_padded lengthSmall (by decide)
  have lengthSome : padded 4 body.length ≠ [] :=
    ne_nil_of_length_pos (by rw [lengthLength]; decide)
  rw [splicMessageStr, show messageMethodLen = 3 from rfl, show messageLengthLen = 4 from rfl,
    intToStringWithPadding_eq methodSmall (by decide),
    intToStringWithPadding_eq lengthSmall (by decide),
    if_neg (ne_nil_of_length_pos fields.some_body),
    if_neg (not_not.mpr (length_padded methodSmall (by decide))),
    if_neg (not_or.mpr ⟨lengthSome, by omega⟩)]
  rfl

/-- A request with a body was read whole. -/
theorem init_new {messageStr : Bytes}
    (given : (CredentialMessage.new.init true messageStr).getMessageBody = some body) :
    CredentialMessage.new.init true messageStr =
    ⟨versionOf messageStr, methodOf messageStr, body.length, some body⟩ ∧
    0 < body.length ∧ body.length ≤ messageStrMaxLen := by
  by_cases unread : Unread messageStr
  · rw [init_unread true .new unread] at given
    cases given
  by_cases bad : BadLength messageStr
  · rw [init_badLength true .new unread bad] at given
    cases given
  obtain ⟨-, some_body, bound⟩ := length_bodyOf bad
  rw [init_accepted true .new unread bad,
    allocateAndCopy_of_room some_body bound (.inr rfl)] at given ⊢
  have room : (CredentialMessage.new.headed messageStr).messageBodyCapacity = 0 := rfl
  rw [room, Nat.zero_sub, replicate_zero, append_nil] at given ⊢
  have same : bodyOf messageStr = body := by
    rw [getMessageBody] at given
    dsimp only at given
    rw [if_neg (by omega), Int.toNat_natCast, take_length] at given
    exact Option.some.inj given
  rw [same] at some_body bound ⊢
  exact ⟨rfl, some_body, bound⟩

/-! ### The key store -/

/-- What comes of the key store and of the key files in one request. -/
structure KeyStore where
  resetHuksKey : Bool
  aesGcmEncrypt : Option Bytes
  aesGcmDecrypt : Option Bytes
  pubkeyExists : Bool
  privkeyExists : Bool
  keysMatch : Bool
  loadPublicKeyInfo : Bool
  publicKeyInfo : Bytes
  loadPrivateKeyInfo : Bool
  privKey : Bool
  /-- The private key as `PEM_write_bio_PrivateKey` and `BIO_read_ex` give it. -/
  exported : Option Bytes

/-- `EncryptPwd`; nothing stands for the null pointer. -/
def encryptPwd (store : KeyStore) (data : Bytes) : Bytes :=
  if !store.resetHuksKey then []
  else if data.length ≠ passwordLength then []
  else store.aesGcmEncrypt.getD []

/-- `DecryptPwd`. -/
def decryptPwd (store : KeyStore) : Bytes :=
  match store.aesGcmDecrypt with
  | none => []
  | some pwd => if pwd.length ≠ passwordLength then [] else pwd

/-- `TryLoadPublicKeyInfo`. -/
def tryLoadPublicKeyInfo (store : KeyStore) : Int :=
  if !store.pubkeyExists then getPubkeyFailed
  else if !store.privkeyExists then getPrivkeyFailed
  else if !store.keysMatch then mismatchPubkeyPrivkey
  else if !store.loadPublicKeyInfo then getPubkeyFailed
  else getPubkeySuccessed

/-- `HandleGetPubkeyMessage`, with `processMessageValue`. -/
def handleGetPubkeyMessage (store : KeyStore) : Int × Bytes :=
  let ret := tryLoadPublicKeyInfo store
  if ret ≠ getPubkeySuccessed then (ret, []) else (getPubkeySuccessed, store.publicKeyInfo)

/-- `HandleGetSignatureMessage`. A failed load returns `false`, a failed export success. -/
def handleGetSignatureMessage (store : KeyStore) : Int × Bytes :=
  if !store.privkeyExists then (getPrivkeyFailed, [])
  else if !store.loadPrivateKeyInfo then (0, [])
  else if !store.privKey then (getPrivkeyFailed, [])
  else (getPrivateSuccessed, store.exported.getD [])

/-! ### The service -/

/-- `HandleCryptoKeyMessage`; none where it leaves the reply empty. -/
def handleCryptoKeyMessage (store : KeyStore) (message : CredentialMessage) (body : Bytes) :
    Option CredentialMessage :=
  if message.messageMethodType = methodEncrypt then
    some (message.setMessageBody true (encryptPwd store body))
  else if message.messageMethodType = methodDecrypt then
    some (message.setMessageBody true (decryptPwd store))
  else none

/-- `HandleAuthVerifyMessage`. -/
def handleAuthVerifyMessage (store : KeyStore) (message : CredentialMessage) :
    Option CredentialMessage :=
  let answer := fun (ret, value) => (message.setMessageMethodType ret).setMessageBody true value
  if message.messageMethodType = getPubkey then some (answer (handleGetPubkeyMessage store))
  else if message.messageMethodType = getSignature then
    some (answer (handleGetSignatureMessage store))
  else none

/-- `HandleCommandReportMessage`; `reported` is what `HandleCommandEventMessage` answers. -/
def handleCommandReportMessage (reported : Bytes) (message : CredentialMessage) :
    Option CredentialMessage :=
  if message.messageMethodType = methodCommandEventReport then
    some (message.setMessageBody true reported)
  else none

/-- `HandleMessage`. -/
def handleMessage (store : KeyStore) (report : Bytes → Bytes) (messageStr : Bytes) :
    Option CredentialMessage :=
  let message := CredentialMessage.new.init true messageStr
  match message.getMessageBody with
  | none => none
  | some body =>
    if message.messageVersion = methodCryptoKey then handleCryptoKeyMessage store message body
    else if message.messageVersion = methodReport then
      handleCommandReportMessage (report body) message
    else if message.messageVersion = methodAuthVerify then handleAuthVerifyMessage store message
    else none

/-- What the service reads of a message: the buffer keeps one byte for a terminator. -/
def serverRead (sent : Bytes) : Bytes := sent.take (messageStrMaxLen - 1)

/-- The reply of the service. -/
def reply (store : KeyStore) (report : Bytes → Bytes) (messageStr : Bytes) : Option Bytes :=
  (handleMessage store report (serverRead messageStr)).bind construct

/-- What `GetCredential` and the clients behind it make of a reply: `EncryptGetPwdValue`,
`DecryptGetPwdValue`, `GetPubKeyHash` and `GetPrivateKeyInfo` all return the body of it. -/
def received (replied : Bytes) : Option Bytes :=
  if messageStrMaxLen - 1 ≤ replied.length then none
  else (CredentialMessage.new.init true replied).getMessageBody

/-! ### Failures -/

/-- What the operation of a request gives: nothing where it fails, and none for a request of
another kind. -/
def operation (store : KeyStore) (message : CredentialMessage) (body : Bytes) : Option Bytes :=
  if message.messageVersion = methodCryptoKey then
    if message.messageMethodType = methodEncrypt then some (encryptPwd store body)
    else if message.messageMethodType = methodDecrypt then some (decryptPwd store)
    else none
  else if message.messageVersion = methodAuthVerify then
    if message.messageMethodType = getPubkey then some (handleGetPubkeyMessage store).2
    else if message.messageMethodType = getSignature then some (handleGetSignatureMessage store).2
    else none
  else none

/-- The operation of a request fails. -/
def Fails (store : KeyStore) (messageStr : Bytes) : Prop :=
  ∃ body, (CredentialMessage.new.init true (serverRead messageStr)).getMessageBody = some body ∧
    operation store (CredentialMessage.new.init true (serverRead messageStr)) body = some []

/-- A request that fails is not answered by its own body, and its client notices. -/
def Loud (store : KeyStore) (report : Bytes → Bytes) (messageStr : Bytes) : Prop :=
  Fails store messageStr → ∀ replied, reply store report messageStr = some replied →
    (CredentialMessage.new.init true replied).getMessageBody ≠
        (CredentialMessage.new.init true (serverRead messageStr)).getMessageBody ∧
      received replied = none

theorem setMessageBody_nil (message : CredentialMessage) :
    message.setMessageBody true [] = message := rfl

/-- The method of an answer is a code of up to four. -/
theorem codes_small (store : KeyStore) :
    (∃ code ≤ 4, (handleGetPubkeyMessage store).1 = (code : Nat)) ∧
    ∃ code ≤ 4, (handleGetSignatureMessage store).1 = (code : Nat) := by
  constructor
  · have same : (handleGetPubkeyMessage store).1 = tryLoadPublicKeyInfo store := by
      unfold handleGetPubkeyMessage
      dsimp only
      split
      · rfl
      case isFalse success => exact (not_not.mp success).symm
    rw [same, tryLoadPublicKeyInfo]
    split_ifs
    exacts [⟨1, by decide, rfl⟩, ⟨2, by decide, rfl⟩, ⟨3, by decide, rfl⟩, ⟨1, by decide, rfl⟩,
      ⟨0, by decide, rfl⟩]
  · unfold handleGetSignatureMessage
    split_ifs
    exacts [⟨2, by decide, rfl⟩, ⟨0, by decide, rfl⟩, ⟨2, by decide, rfl⟩, ⟨4, by decide, rfl⟩]

/-- A request that fails is answered, by its own body. -/
theorem Fails.reply {store : KeyStore} {messageStr : Bytes} (fails : Fails store messageStr)
    (report : Bytes → Bytes) : ∃ version method body, 1 ≤ version ∧ Fields version method body ∧
    (CredentialMessage.new.init true (serverRead messageStr)).getMessageBody = some body ∧
    Credential.reply store report messageStr = some (text version method body) := by
  obtain ⟨body, given, failed⟩ := fails
  obtain ⟨whole, some_body, bound⟩ := init_new given
  obtain ⟨⟨pubkeyCode, pubkeySmall, pubkeySame⟩, ⟨privkeyCode, privkeySmall, privkeySame⟩⟩ :=
    codes_small store
  rw [Credential.reply, handleMessage, given]
  rw [whole] at failed ⊢
  rw [operation] at failed
  dsimp only at failed ⊢
  -- in every branch the result is nothing, and the message keeps its body
  have answered : ∀ version method : Nat, 1 ≤ version → version ≤ 9 → method ≤ 4 →
      ∃ v m b, 1 ≤ v ∧ Fields v m b ∧ some body = some b ∧
        (some (⟨version, method, body.length, some body⟩ : CredentialMessage)).bind construct =
          some (text v m b) := by
    intro version method some_version small few
    have fields : Fields version method body := ⟨small, few.trans (by decide), some_body, bound⟩
    refine ⟨_, _, _, some_version, fields, rfl, ?_⟩
    exact Carries.construct ⟨rfl, rfl, rfl, [], by rw [append_nil]⟩ fields
  split_ifs at failed with crypto encrypt decrypt auth pubkey signature
  · rw [if_pos crypto, handleCryptoKeyMessage, if_pos encrypt, Option.some.inj failed,
      setMessageBody_nil, crypto, encrypt]
    exact answered 1 1 (by decide) (by decide) (by decide)
  · rw [if_pos crypto, handleCryptoKeyMessage, if_neg encrypt, if_pos decrypt,
      Option.some.inj failed, setMessageBody_nil, crypto, decrypt]
    exact answered 1 2 (by decide) (by decide) (by decide)
  · rw [handleAuthVerifyMessage]
    dsimp only
    rw [if_pos pubkey, Option.some.inj failed, pubkeySame, auth]
    exact answered 3 pubkeyCode (by decide) (by decide) pubkeySmall
  · rw [handleAuthVerifyMessage]
    dsimp only
    rw [if_neg pubkey, if_pos signature, Option.some.inj failed, setMessageBody_nil, privkeySame,
      auth]
    exact answered 3 privkeyCode (by decide) (by decide) privkeySmall

/-- A text of the format is read back. -/
theorem getMessageBody_text {version method : Nat}
    (fields : Fields version method body) (some_version : 1 ≤ version) :
    (CredentialMessage.new.init true (text version method body)).getMessageBody = some body := by
  obtain ⟨-, -, length, _, stored⟩ :=
    (carries_init_iff true .new fields).mpr (.inl ⟨some_version, .inr rfl⟩)
  have some_body := fields.some_body
  rw [getMessageBody, stored]
  dsimp only
  rw [length, if_neg (by omega), Int.toNat_natCast, take_left]

/-- The service fails loudly exactly where the operation of the request does not fail. -/
theorem loud_iff (store : KeyStore) (report : Bytes → Bytes) (messageStr : Bytes) :
    Loud store report messageStr ↔ ¬ Fails store messageStr := by
  constructor
  · intro loud fails
    obtain ⟨_, _, _, some_version, fields, given, answered⟩ := fails.reply report
    refine (loud fails _ answered).1 ?_
    rw [given, getMessageBody_text fields some_version]
  · exact fun fine fails => absurd fails fine

/-! ### The password -/

/-- `EncryptGetPwdValue`, with the service that answers. `pwd` has no terminator: the string that is
sent goes on in the memory behind it, up to a byte that is zero. -/
def encryptGetPwdValue (store : KeyStore) (report : Bytes → Bytes) (memory : Bytes) :
    Option Bytes :=
  let sendStr := splicMessageStr (memory.takeWhile (· ≠ 0)) 1 1
  if sendStr = [] then none else (reply store report sendStr).bind received

/-- What fits into a message is read whole. -/
theorem serverRead_text {version method : Nat} (fields : Fields version method body)
    (short : body.length < messageStrMaxLen - messageBodyPos) :
    serverRead (text version method body) = text version method body := by
  rw [serverRead, take_of_length_le]
  rw [fields.reads.length]
  omega

/-- A string that cannot be encrypted is taken for its own encryption. -/
theorem encryptGetPwdValue_eq {store : KeyStore} {memory : Bytes}
    (string : memory.takeWhile (· ≠ 0) = body) (some_body : 0 < body.length)
    (short : body.length < messageStrMaxLen - messageBodyPos - 1)
    (failed : encryptPwd store body = []) (report : Bytes → Bytes) :
    encryptGetPwdValue store report memory = some body := by
  have fields : Fields 1 1 body := ⟨by decide, by decide, some_body, by omega⟩
  have whole := serverRead_text fields (by omega)
  have given := getMessageBody_text fields le_rfl
  have fails : Fails store (text 1 1 body) := by
    refine ⟨body, by rw [whole, given], ?_⟩
    obtain ⟨read, -⟩ := init_new given
    rw [whole, read, fields.reads.method]
    exact congrArg some failed
  obtain ⟨version, method, _, some_version, formed, same, answered⟩ := fails.reply report
  rw [whole] at same
  obtain rfl := Option.some.inj (given.symm.trans same)
  have sent : text 1 1 body ≠ [] := ne_nil_of_length_pos (by rw [fields.reads.length]; omega)
  have room : ¬ messageStrMaxLen - 1 ≤ (text version method body).length := by
    rw [formed.reads.length]
    omega
  rw [encryptGetPwdValue, string, splicMessageStr_eq fields, if_neg sent, answered,
    Option.bind_some, received, if_neg room, getMessageBody_text formed some_version]

/-- The password and what stands behind it in memory come back as they are where the key store
cannot encrypt the password, and wherever the byte behind the password is not zero. -/
theorem encryptGetPwdValue_failed {store : KeyStore} {password behind : Bytes}
    (length : password.length = passwordLength) (nonzero : 0 ∉ password)
    (short : passwordLength + (behind.takeWhile (· ≠ 0)).length <
      messageStrMaxLen - messageBodyPos - 1)
    (failed : (behind.takeWhile (· ≠ 0)) = [] → encryptPwd store password = [])
    (report : Bytes → Bytes) :
    encryptGetPwdValue store report (password ++ behind) =
      some (password ++ behind.takeWhile (· ≠ 0)) := by
  have positive : 0 < passwordLength := by decide
  apply encryptGetPwdValue_eq
  · refine takeWhile_append_of_pos fun byte mem => ?_
    exact decide_eq_true fun zero => nonzero (zero ▸ mem)
  · rw [length_append]
    omega
  · rw [length_append]
    omega
  · by_cases ends : behind.takeWhile (· ≠ 0) = []
    · rw [ends, append_nil, failed ends]
    · -- the service takes a password of the exact length only
      have longer : (password ++ behind.takeWhile (· ≠ 0)).length ≠ passwordLength := by
        have some := length_pos_of_ne_nil ends
        rw [length_append]
        omega
      rw [encryptPwd, if_pos longer, ite_self]

/-- A key store that can be reset but does not encrypt. -/
def noEncryption : KeyStore where
  resetHuksKey := true
  aesGcmEncrypt := none
  aesGcmDecrypt := none
  pubkeyExists := false
  privkeyExists := false
  keysMatch := false
  loadPublicKeyInfo := false
  publicKeyInfo := []
  loadPrivateKeyInfo := false
  privKey := false
  exported := none

/-- The byte behind the password is zero, and the key store does not encrypt. -/
theorem encryptGetPwdValue_failed_ten :
    encryptGetPwdValue noEncryption id (str "0123456789" ++ [0]) = some (str "0123456789" ++ []) :=
  encryptGetPwdValue_failed (by decide) (by decide) (by decide) (fun _ => rfl) id

theorem plain_password_stored :
    encryptGetPwdValue noEncryption (fun _ => []) (str "~a12345678" ++ [0]) =
        some (str "~a12345678") ∧
      ¬ Loud noEncryption (fun _ => []) (splicMessageStr (str "~a12345678") 1 1) := by
  refine ⟨by decide +kernel, ?_⟩
  intro loud
  have answered : reply noEncryption (fun _ => []) (splicMessageStr (str "~a12345678") 1 1) =
      some (splicMessageStr (str "~a12345678") 1 1) := by
    decide +kernel
  exact (loud ⟨str "~a12345678", by decide +kernel, by decide +kernel⟩ _ answered).1 rfl

end Hdc.Credential
