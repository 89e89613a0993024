import Hdc.Daemon.Auth
import Hdc.Lib.ExactRuns

/-!
The notification thread of the daemon's handshake (`daemon.cpp`).

While the user is asked about a public key that is not known, a detached thread tells the host to
wait: it calls `HandleAuthFailed` with a reference to the handshake object of the frame. The thread
that handles the frame goes on with the same object, asks for the signature with it and returns,
which ends the object's life; the next frame then brings the signature. Both threads write the
object and the session's entry of `mapAuthStatus`.

The threads are programs of atomic steps: a write of a member, a serialisation, a message, or an
update of the map under its mutex.

* `authorised_iff_fine`: the session ends authorised, with the replies as they should be, exactly if
  all steps are fine;
* `notification_overtaken`: a late notification takes the authorisation back.
-/

namespace Hdc.Daemon.Notification

open List Handling HdcDaemon

/-! ### The frames, and what their steps send -/

/-- The setting: the session, its entry when the thread is started, the frame with the
public key, the frame with the signature, and what is outside while each is handled. -/
structure Scene where
  out : Outside
  later : Outside
  hSession : HSession
  channelId : UInt32
  info : HdcDaemonAuthInfo
  handshake : SessionHandShake
  hostname : Bytes
  pubkey : Bytes
  signature : SessionHandShake

/-- The buffer that `SendAuthOkMsg` makes. -/
def authOkBuf (out : Outside) (hSession : HSession) (version msg daemonAuthResult : Bytes) :
    Bytes :=
  if lowVersion version then
    if msg = [] then out.hostname else msg
  else
    let emgmsg := Base.tlvAppend (Base.tlvAppend (Base.tlvAppend [] (str "emgmsg") msg)
      (str "devname") out.hostname) (str "daemonauthstatus") daemonAuthResult
    if !out.connectValidation || hSession.supportConnValidation then addFeatureTagToEmgmsg emgmsg
    else emgmsg

namespace Scene

variable (scene : Scene)

/-- The buffer of the notification. -/
def noticeBuf : Bytes :=
  authOkBuf scene.out scene.hSession scene.handshake.version confirmText (str "DAEMON_UNAUTH")

/-- `SendAuthMsg` asks for a TLS handshake rather than for a signature. -/
def encrypted : Bool := decide (scene.hSession.connType = .tcp) && scene.hSession.supportEncrypt

/-- The type that `SendAuthMsg` gives its reply. -/
def keyAuthType : UInt8 :=
  if scene.encrypted then AuthType.sslTlsPsk.code else AuthType.signature.code

/-- The buffer that `SendAuthMsg` gives its reply; without one it sends none. -/
def keyBuf : Option Bytes :=
  if scene.encrypted then
    if !scene.hSession.classSSL && !scene.out.newSSL then none
    else scene.out.pskEncrypt scene.pubkey
  else
    some scene.hSession.tokenRSA

/-- The buffer of the reply to the signature. -/
def okBuf : Bytes :=
  authOkBuf scene.later scene.hSession scene.signature.version [] (str "SUCCESS")

end Scene

/-- The steps of the handshake that send something. -/
inductive Sender where
  | notice
  | key
  | signature
deriving DecidableEq, Repr

/-- What a step sends when no other thread comes between. -/
def Scene.replies (scene : Scene) : Sender → List Reply
  | .notice =>
    [.handshake { scene.handshake with authType := AuthType.ok.code, buf := scene.noticeBuf },
      .channelClose 1, .log .fail confirmText]
  | .key =>
    match scene.keyBuf with
    | none => []
    | some buf => [.handshake { scene.handshake with authType := scene.keyAuthType, buf }]
  | .signature =>
    [.handshake { scene.signature with authType := AuthType.ok.code, buf := scene.okBuf },
      .channelClose 1]

/-! ### The two threads -/

/-- What the notification thread does next. -/
inductive NoticePc where
  | buf
  | authType
  | serialize
  | send
  | close
  | log
  | status
  | done
deriving DecidableEq, Repr

/-- What the handshake thread does next. After `leave` the frame's object is gone, and the
frame with the signature is handled. -/
inductive HandshakePc where
  | confirm
  | keyStatus
  | keyType
  | keyBuf
  | keySerialize
  | keySend
  | leave
  | readOk
  | readKey
  | verify
  | okStatus
  | okSend
  | okClose
  | done
  | refused
deriving DecidableEq, Repr

/-- The threads and what they share: the entry of the session and the handshake object of
the frame with the key, of which only `authType` and `buf` are written. A serialised string
is what was read of the object, `none` if it was gone. What is sent is kept by the step of
the handshake that sends it. -/
structure Threads where
  info : HdcDaemonAuthInfo
  alive : Bool
  authType : UInt8
  buf : Bytes
  notice : NoticePc
  noticeString : Option SessionHandShake
  handshaker : HandshakePc
  keyString : Option SessionHandShake
  byNotice : List (Option Reply)
  byKey : List (Option Reply)
  bySignature : List (Option Reply)
deriving DecidableEq, Repr

/-- What a step of the handshake has sent. -/
@[simp]
def Threads.sentBy (s : Threads) : Sender → List (Option Reply)
  | .notice => s.byNotice
  | .key => s.byKey
  | .signature => s.bySignature

section

variable (scene : Scene)

/-- The threads when the notification thread has been started. -/
def start : Threads :=
  ⟨scene.info, true, scene.handshake.authType, scene.handshake.buf, .buf, none, .confirm, none,
    [], [], []⟩

/-- What is read of the object. -/
def serialize (s : Threads) : Option SessionHandShake :=
  if s.alive then some { scene.handshake with authType := s.authType, buf := s.buf } else none

/-- A step of the notification thread, in `SendAuthOkMsg` until `close`. -/
def noticeStep (s : Threads) : Threads :=
  match s.notice with
  | .buf => { s with buf := scene.noticeBuf, notice := .authType }
  | .authType => { s with authType := AuthType.ok.code, notice := .serialize }
  | .serialize => { s with noticeString := serialize scene s, notice := .send }
  | .send => { s with byNotice := s.byNotice ++ [s.noticeString.map .handshake], notice := .close }
  | .close => { s with byNotice := s.byNotice ++ [some (.channelClose 1)], notice := .log }
  | .log => { s with byNotice := s.byNotice ++ [some (.log .fail confirmText)], notice := .status }
  | .status =>
    { s with info := { s.info with authtype := .fail, authmsg := confirmText }, notice := .done }
  | .done => s

/-- A step of the handshake thread: `SendAuthMsg` from `keyStatus` to `keySend`,
`HandDaemonAuth` for the signature from `readOk` on. The signature's frame is one that is past the
checks before that, which read neither the object nor the entry: the daemon authorises at all, the
frame's version is not too low, and a validation that is asked for is supported. -/
def handshakeStep (s : Threads) : Threads :=
  match s.handshaker with
  | .confirm =>
    let permit := scene.out.postUIConfirm scene.hostname scene.pubkey
    { s with handshaker := if permit = .refuse then .refused else .keyStatus }
  | .keyStatus =>
    { s with
      info := { s.info with authtype := .publicKey, pubkey := scene.pubkey }
      handshaker := .keyType }
  | .keyType => { s with authType := scene.keyAuthType, handshaker := .keyBuf }
  | .keyBuf =>
    match scene.keyBuf with
    | none => { s with handshaker := .leave }
    | some buf => { s with buf, handshaker := .keySerialize }
  | .keySerialize => { s with keyString := serialize scene s, handshaker := .keySend }
  | .keySend => { s with byKey := s.byKey ++ [s.keyString.map .handshake], handshaker := .leave }
  | .leave => { s with alive := false, handshaker := .readOk }
  | .readOk => { s with handshaker := if s.info.authtype = .ok then .done else .readKey }
  | .readKey =>
    -- the frame's type is that of a signature, so no other branch can be taken
    { s with handshaker := if s.info.authtype = .publicKey then .verify else .refused }
  | .verify =>
    let verified := scene.later.authVerify scene.hSession.rsa3072Sha512 scene.signature.buf
      s.info.token s.info.pubkey
    { s with handshaker := if verified then .okStatus else .refused }
  | .okStatus =>
    { s with
      info := { s.info with authtype := .ok, token := [], pubkey := [] }, handshaker := .okSend }
  | .okSend =>
    -- the signature's frame has an object of its own, which no other thread knows
    let handshake :=
      { scene.signature with authType := AuthType.ok.code, buf := scene.okBuf }
    { s with bySignature := s.bySignature ++ [some (.handshake handshake)], handshaker := .okClose }
  | .okClose =>
    { s with bySignature := s.bySignature ++ [some (.channelClose 1)], handshaker := .done }
  | .done => s
  | .refused => s

inductive Thread where
  | notice
  | handshake
deriving DecidableEq, Repr

def step (s : Threads) : Thread → Threads
  | .notice => noticeStep scene s
  | .handshake => handshakeStep scene s

/-- The threads after a schedule. -/
def run (schedule : List Thread) : Threads := schedule.foldl (step scene) (start scene)

end

/-! ### Steps that leave the other thread alone -/

/-- The notification has written the buffer and not yet read the object. -/
def NoticePc.filling : NoticePc → Bool
  | .authType | .serialize => true
  | _ => false

/-- How much the notification has sent. -/
def NoticePc.sent : NoticePc → Nat
  | .close => 1
  | .log => 2
  | .status | .done => 3
  | _ => 0

namespace HandshakePc

/-- The handshake thread has written the type and is going to read the object. -/
def filling (scene : Scene) : HandshakePc → Bool
  | .keyBuf => scene.keyBuf.isSome
  | .keySerialize => true
  | _ => false

/-- The key has been accepted, and the signature is waited for. -/
def waiting : HandshakePc → Bool
  | .keyType | .keyBuf | .keySerialize | .keySend | .leave | .readOk | .readKey => true
  | _ => false

/-- The signature is being verified. -/
def verifying : HandshakePc → Bool
  | .verify | .okStatus => true
  | _ => false

/-- The signature has been accepted. -/
def accepted : HandshakePc → Bool
  | .okSend | .okClose | .done => true
  | _ => false

/-- How much of the reply to the key has been sent. -/
def keySent : HandshakePc → Nat
  | .confirm | .keyStatus | .keyType | .keyBuf | .keySerialize | .keySend => 0
  | _ => 1

/-- How much of the reply to the signature has been sent. -/
def okSent : HandshakePc → Nat
  | .okClose => 1
  | .done => 2
  | _ => 0

end HandshakePc

/-- A step is fine in the state it meets. The object is not written between another
thread's write of the same member and its serialisation, nor read when it is gone, and the
entry is not marked as failed while the signature is waited for or when it was accepted. -/
def Fine (scene : Scene) (s : Threads) : Thread → Prop
  | .notice =>
    match s.notice with
    | .buf => s.handshaker = .keySerialize → scene.keyBuf = some scene.noticeBuf
    | .authType => s.handshaker.filling scene = false
    | .serialize => s.alive
    | .status => s.handshaker.waiting = false ∧ s.handshaker.accepted = false
    | _ => True
  | .handshake =>
    match s.handshaker with
    | .keyType => s.notice ≠ .serialize
    | .keyBuf => s.notice.filling → scene.keyBuf = none ∨ scene.keyBuf = some scene.noticeBuf
    | _ => True

/-- The object holds what the thread that is about to serialise it has written. -/
structure Object (scene : Scene) (s : Threads) : Prop where
  alive : s.handshaker.keySent = 0 → s.alive
  noticeBuf : s.notice.filling → s.buf = scene.noticeBuf
  noticeType : s.notice = .serialize → s.authType = AuthType.ok.code
  keyType : s.handshaker.filling scene → s.authType = scene.keyAuthType
  keyBuf : s.handshaker = .keySerialize → scene.keyBuf = some s.buf

/-- What was read of the object and what has been sent is the step's own. -/
structure Replies (scene : Scene) (s : Threads) : Prop where
  noticeString : s.notice = .send → s.noticeString =
    some { scene.handshake with authType := AuthType.ok.code, buf := scene.noticeBuf }
  keyString : s.handshaker = .keySend →
    (scene.replies .key).map some = [s.keyString.map .handshake]
  notice : s.byNotice = ((scene.replies .notice).map some).take s.notice.sent
  key : s.byKey = ((scene.replies .key).map some).take s.handshaker.keySent
  signature : s.bySignature = ((scene.replies .signature).map some).take s.handshaker.okSent

/-- The session's entry is as the handshake thread left it when that thread looks. -/
structure Status (scene : Scene) (s : Threads) : Prop where
  notRefused : s.handshaker ≠ .refused
  key : s.handshaker.waiting → s.info.authtype = .publicKey
  ok : s.handshaker.accepted → s.info.authtype = .ok
  token : s.handshaker.accepted = false → s.info.token = scene.info.token
  pubkey : (s.handshaker.waiting || s.handshaker.verifying) = true → s.info.pubkey = scene.pubkey

section

variable {scene : Scene} {s : Threads}

theorem Object.noticeStep (kept : Object scene s) (fine : Fine scene s .notice) :
    Object scene (noticeStep scene s) := by
  obtain ⟨alive, noticeBuf, noticeType, keyType, keyBuf⟩ := kept
  cases next : s.notice <;> simp only [Fine, next] at fine <;>
    simp only [Notification.noticeStep, next]
  case buf => exact ⟨alive, fun _ => rfl, nofun, keyType, fine⟩
  case authType =>
    refine ⟨alive, fun _ => noticeBuf (by rw [next]; rfl), fun _ => rfl, fun filling => ?_, keyBuf⟩
    exact absurd (fine.symm.trans filling) (by decide)
  case done => exact ⟨alive, noticeBuf, noticeType, keyType, keyBuf⟩
  all_goals exact ⟨alive, nofun, nofun, keyType, keyBuf⟩

theorem Object.handshakeStep (kept : Object scene s) (fine : Fine scene s .handshake) :
    Object scene (handshakeStep scene s) := by
  obtain ⟨alive, noticeBuf, noticeType, keyType, keyBuf⟩ := kept
  cases next : s.handshaker <;> simp only [Fine, next] at fine <;> rw [next] at alive keyType <;>
    simp only [Notification.handshakeStep, next]
  case confirm =>
    split
    · exact ⟨nofun, noticeBuf, noticeType, nofun, nofun⟩
    · exact ⟨alive, noticeBuf, noticeType, nofun, nofun⟩
  case keyType =>
    exact ⟨alive, noticeBuf, fun writes => absurd writes fine, fun _ => rfl, nofun⟩
  case keyBuf =>
    cases made : scene.keyBuf with
    | none => exact ⟨nofun, noticeBuf, noticeType, nofun, nofun⟩
    | some buf =>
      refine ⟨alive, fun filling => ?_, noticeType, fun _ => keyType ?_, fun _ => made⟩
      · exact Option.some.inj (made.symm.trans ((fine filling).resolve_left (by simp [made])))
      · simp [HandshakePc.filling, made]
  case keyStatus | keySerialize => exact ⟨alive, noticeBuf, noticeType, nofun, nofun⟩
  case readOk | readKey | verify => split <;> exact ⟨nofun, noticeBuf, noticeType, nofun, nofun⟩
  case done | refused => exact ⟨by rwa [next], noticeBuf, noticeType, by rwa [next], keyBuf⟩
  all_goals exact ⟨nofun, noticeBuf, noticeType, nofun, nofun⟩

theorem Status.noticeStep (kept : Status scene s) (fine : Fine scene s .notice) :
    Status scene (noticeStep scene s) := by
  obtain ⟨notRefused, key, ok, token, pubkey⟩ := kept
  cases next : s.notice <;> simp only [Fine, next] at fine <;>
    simp only [Notification.noticeStep, next]
  case status =>
    obtain ⟨notWaiting, notAccepted⟩ := fine
    refine ⟨notRefused, fun waiting => ?_, fun accepted => ?_, token, pubkey⟩
    · exact absurd (notWaiting.symm.trans waiting) (by decide)
    · exact absurd (notAccepted.symm.trans accepted) (by decide)
  all_goals exact ⟨notRefused, key, ok, token, pubkey⟩

theorem Status.handshakeStep (kept : Status scene s)
    (allowed : scene.out.postUIConfirm scene.hostname scene.pubkey ≠ .refuse)
    (verifies : scene.later.authVerify scene.hSession.rsa3072Sha512 scene.signature.buf
    scene.info.token scene.pubkey) : Status scene (handshakeStep scene s) := by
  obtain ⟨notRefused, key, ok, token, pubkey⟩ := kept
  cases next : s.handshaker <;> rw [next] at notRefused key ok token pubkey <;>
    simp only [Notification.handshakeStep, next]
  case confirm =>
    rw [if_neg allowed]
    exact ⟨nofun, nofun, nofun, token, nofun⟩
  case keyStatus => exact ⟨nofun, fun _ => rfl, nofun, token, fun _ => rfl⟩
  case keyBuf => cases scene.keyBuf <;> exact ⟨nofun, key, nofun, token, pubkey⟩
  case readOk =>
    rw [if_neg (by rw [key rfl]; decide)]
    exact ⟨nofun, key, nofun, token, pubkey⟩
  case readKey =>
    rw [if_pos (key rfl)]
    exact ⟨nofun, nofun, nofun, token, pubkey⟩
  case verify =>
    rw [token rfl, pubkey rfl, if_pos verifies]
    exact ⟨nofun, nofun, nofun, token, pubkey⟩
  case okStatus => exact ⟨nofun, nofun, fun _ => rfl, nofun, nofun⟩
  case okSend | okClose => exact ⟨nofun, nofun, ok, nofun, nofun⟩
  case done => exact ⟨by simp [next], by rwa [next], by rwa [next], by rwa [next], by rwa [next]⟩
  case refused => exact absurd rfl notRefused
  all_goals exact ⟨nofun, key, nofun, token, pubkey⟩

theorem Replies.noticeStep (kept : Replies scene s) (object : Object scene s)
    (fine : Fine scene s .notice) : Replies scene (noticeStep scene s) := by
  obtain ⟨noticeString, keyString, notice, key, signature⟩ := kept
  cases next : s.notice <;> simp only [Fine, next] at fine <;> rw [next] at notice <;>
    simp only [Notification.noticeStep, next]
  case serialize =>
    refine ⟨fun _ => ?_, keyString, notice, key, signature⟩
    rw [serialize, if_pos fine, object.noticeBuf (by rw [next]; rfl), object.noticeType next]
  case send =>
    refine ⟨nofun, keyString, ?_, key, signature⟩
    rw [notice, noticeString next]
    rfl
  case close | log =>
    refine ⟨nofun, keyString, ?_, key, signature⟩
    rw [notice]
    rfl
  case done => exact ⟨noticeString, keyString, by rwa [next], key, signature⟩
  all_goals exact ⟨nofun, keyString, notice, key, signature⟩

theorem Replies.handshakeStep (kept : Replies scene s) (object : Object scene s)
    (status : Status scene s)
    (allowed : scene.out.postUIConfirm scene.hostname scene.pubkey ≠ .refuse) 
    (verifies : scene.later.authVerify scene.hSession.rsa3072Sha512 scene.signature.buf
    scene.info.token scene.pubkey) : Replies scene (handshakeStep scene s) := by
  obtain ⟨noticeString, keyString, notice, key, signature⟩ := kept
  cases next : s.handshaker <;> rw [next] at key signature <;>
    simp only [Notification.handshakeStep, next]
  case confirm =>
    rw [if_neg allowed]
    exact ⟨noticeString, nofun, notice, key, signature⟩
  case keyBuf =>
    cases made : scene.keyBuf with
    | none => 
      refine ⟨noticeString, nofun, notice, ?_, signature⟩
      rw [key, Scene.replies, made]
      rfl
    | some buf => exact ⟨noticeString, nofun, notice, key, signature⟩
  case keySerialize =>
    refine ⟨noticeString, fun _ => ?_, notice, key, signature⟩
    have alive := object.alive (by rw [next]; rfl)
    have authType := object.keyType (by rw [next]; rfl)
    simp [serialize, Scene.replies, alive, object.keyBuf next, authType]
  case keySend =>
    refine ⟨noticeString, nofun, notice, ?_, signature⟩
    rw [key, keyString next]
    rfl
  case readOk =>
    rw [if_neg (by rw [status.key (by rw [next]; rfl)]; decide)]
    exact ⟨noticeString, nofun, notice, key, signature⟩
  case readKey =>
    rw [if_pos (status.key (by rw [next]; rfl))]
    exact ⟨noticeString, nofun, notice, key, signature⟩
  case verify =>
    rw [status.token (by rw [next]; rfl), status.pubkey (by rw [next]; rfl), if_pos verifies]
    exact ⟨noticeString, nofun, notice, key, signature⟩
  case okSend | okClose =>
    refine ⟨noticeString, nofun, notice, key, ?_⟩
    rw [signature]
    rfl
  case done | refused => exact ⟨noticeString, keyString, notice, by rwa [next], by rwa [next]⟩
  all_goals exact ⟨noticeString, nofun, notice, key, signature⟩

end

/-! ### What stays spoiled -/

/-- The notification has not read the object yet. -/
def NoticePc.unread : NoticePc → Bool
  | .buf | .authType | .serialize => true
  | _ => false

/-- The handshake thread has written the object's type. -/
def HandshakePc.typed : HandshakePc → Bool
  | .confirm | .keyStatus | .keyType => false
  | _ => true

/-- The handshake thread has left the object's buffer behind. -/
def HandshakePc.filled : HandshakePc → Bool
  | .confirm | .keyStatus | .keyType | .keyBuf => false
  | _ => true

/-- A reply that is not its step's own is sent or is going to be, or the session is not
authorised and is not going to be. -/
inductive Spoiled (scene : Scene) (s : Threads) : Prop
  | keyBuf (next : s.handshaker = .keySerialize) (begun : s.notice ≠ .buf)
      (wrong : scene.keyBuf ≠ some s.buf)
  | keyType (filling : s.handshaker.filling scene) (begun : s.notice.unread → s.notice = .serialize)
      (wrong : s.authType ≠ scene.keyAuthType)
  | keyString (next : s.handshaker = .keySend)
      (wrong : s.keyString.map .handshake ∉ (scene.replies .key).map some)
  | noticeBuf (filling : s.notice.filling) (filled : s.handshaker.filled)
      (wrong : s.buf ≠ scene.noticeBuf)
  | noticeType (next : s.notice = .serialize) (typed : s.handshaker.typed)
      (wrong : s.authType ≠ AuthType.ok.code)
  | gone (unread : s.notice.unread) (dead : s.alive = false)
  | noticeString (next : s.notice = .send)
      (wrong : s.noticeString.map .handshake ∉ (scene.replies .notice).map some)
  | sent (sender : Sender) (reply : Option Reply) (here : reply ∈ s.sentBy sender)
      (wrong : reply ∉ (scene.replies sender).map some)
  | late (marked : s.notice = .done) (waiting : s.handshaker.waiting)
      (failed : s.info.authtype = .fail) (unsent : s.bySignature = [])
  | refused (past : s.handshaker = .refused) (unsent : s.bySignature = [])
  | revoked (marked : s.notice = .done) (accepted : s.handshaker.accepted)
      (failed : s.info.authtype = .fail)

section

variable (scene : Scene) {s : Threads}

/-- The notification leaves the handshake thread and what is its own alone. -/
theorem noticeStep_frame :
    (noticeStep scene s).handshaker = s.handshaker ∧ (noticeStep scene s).alive = s.alive ∧
    (noticeStep scene s).keyString = s.keyString ∧
    (noticeStep scene s).bySignature = s.bySignature := by
  unfold noticeStep
  split <;> exact ⟨rfl, rfl, rfl, rfl⟩

/-- The handshake thread leaves the notification and what is its own alone. -/
theorem handshakeStep_frame : (handshakeStep scene s).notice = s.notice ∧
    (handshakeStep scene s).noticeString = s.noticeString := by
  unfold handshakeStep
  split
  case h_4 => split <;> exact ⟨rfl, rfl⟩
  all_goals exact ⟨rfl, rfl⟩

/-- The notification writes the buffer once. -/
theorem noticeStep_buf (begun : s.notice ≠ .buf) :
    (noticeStep scene s).notice ≠ .buf ∧ (noticeStep scene s).buf = s.buf := by
  unfold noticeStep
  split <;> simp_all

/-- The notification writes the type once. -/
theorem noticeStep_authType (begun : s.notice.unread → s.notice = .serialize) :
    ((noticeStep scene s).notice.unread → (noticeStep scene s).notice = .serialize) ∧
    (noticeStep scene s).authType = s.authType := by
  unfold noticeStep
  split <;> simp_all [NoticePc.unread]

/-- The handshake thread writes the buffer once. -/
theorem handshakeStep_buf (filled : s.handshaker.filled) :
    (handshakeStep scene s).handshaker.filled ∧ (handshakeStep scene s).buf = s.buf := by
  cases next : s.handshaker <;> rw [next] at filled <;> simp only [handshakeStep, next]
  case confirm | keyStatus | keyType | keyBuf => exact absurd filled nofun
  case readOk | readKey | verify => split <;> exact ⟨rfl, trivial⟩
  all_goals exact ⟨rfl, trivial⟩

/-- The handshake thread writes the type once. -/
theorem handshakeStep_authType (typed : s.handshaker.typed) :
    (handshakeStep scene s).handshaker.typed ∧ (handshakeStep scene s).authType = s.authType := by
  cases next : s.handshaker <;> rw [next] at typed <;> simp only [handshakeStep, next]
  case confirm | keyStatus | keyType => exact absurd typed nofun
  case keyBuf => split <;> exact ⟨rfl, rfl⟩
  case readOk | readKey | verify => split <;> exact ⟨rfl, trivial⟩
  all_goals exact ⟨rfl, trivial⟩

/-- An object that is gone does not come back. -/
theorem handshakeStep_dead (dead : s.alive = false) : (handshakeStep scene s).alive = false := by
  unfold handshakeStep
  split
  case h_4 => split <;> exact dead
  case h_7 => rfl
  all_goals exact dead

/-- What has been sent stays sent. -/
theorem mem_sentBy_step (thread : Thread) {sender : Sender} {reply : Option Reply}
    (here : reply ∈ s.sentBy sender) : reply ∈ (step scene s thread).sentBy sender := by
  cases thread with
  | notice =>
    simp only [step, noticeStep]
    split <;> cases sender <;> first | exact here | exact mem_append_left _ here
  | handshake =>
    simp only [step, handshakeStep]
    split
    case h_4 => split <;> cases sender <;> exact here
    all_goals cases sender <;> first | exact here | exact mem_append_left _ here

variable {scene}

/-- Only what the object holds can be read of it. -/
theorem notOwn_of_serialize {authType : UInt8} {buf : Bytes}
    (wrong : s.authType ≠ authType ∨ s.buf ≠ buf) :
    (serialize scene s).map .handshake ≠
      some (Reply.handshake { scene.handshake with authType, buf }) := by
  intro same
  unfold serialize at same
  split at same
  · simp only [Option.map_some, Option.some.injEq, Reply.handshake.injEq,
      SessionHandShake.mk.injEq] at same
    exact wrong.elim (fun other => other same.2.1) fun other => other same.2.2.2.2.1
  · exact absurd same nofun

theorem notOwn_notice (wrong : s.authType ≠ AuthType.ok.code ∨ s.buf ≠ scene.noticeBuf) :
    (serialize scene s).map .handshake ∉ (scene.replies .notice).map some := by
  intro here
  simp only [Scene.replies, map_cons, map_nil, mem_cons, not_mem_nil,
    or_false] at here
  rcases here with own | other | other
  · exact notOwn_of_serialize wrong own
  · cases read : serialize scene s <;> simp [read] at other
  · cases read : serialize scene s <;> simp [read] at other

theorem notOwn_key (wrong : s.authType ≠ scene.keyAuthType ∨ scene.keyBuf ≠ some s.buf) :
    (serialize scene s).map .handshake ∉ (scene.replies .key).map some := by
  intro here
  rw [Scene.replies] at here
  cases made : scene.keyBuf with
  | none => simp [made] at here
  | some buf =>
    simp only [made, map_cons, map_nil, mem_singleton] at here
    refine notOwn_of_serialize (wrong.imp_right fun other same => other ?_) here
    rw [made, same]

theorem Spoiled.noticeStep (spoiled : Spoiled scene s) : Spoiled scene (noticeStep scene s) := by
  obtain ⟨sameHandshaker, _, sameString, sameSignature⟩ := noticeStep_frame (s := s) scene
  cases spoiled with
  | keyBuf next begun wrong =>
    obtain ⟨stillBegun, sameBuf⟩ := noticeStep_buf scene begun
    exact .keyBuf (sameHandshaker.trans next) stillBegun (by rwa [sameBuf])
  | keyType filling begun wrong =>
    obtain ⟨stillBegun, sameType⟩ := noticeStep_authType scene begun
    exact .keyType (by rwa [sameHandshaker]) stillBegun (by rwa [sameType])
  | keyString next wrong =>
    exact .keyString (sameHandshaker.trans next) (by rwa [sameString])
  | noticeBuf filling filled wrong =>
    cases next : s.notice <;> rw [next] at filling <;> simp only [Notification.noticeStep, next]
    case authType => exact .noticeBuf rfl filled wrong
    case serialize => exact .noticeString rfl (notOwn_notice (.inr wrong))
    all_goals exact absurd filling nofun
  | noticeType next typed wrong =>
    simp only [Notification.noticeStep, next]
    exact .noticeString rfl (notOwn_notice (.inl wrong))
  | gone unread dead =>
    cases next : s.notice <;> rw [next] at unread <;> simp only [Notification.noticeStep, next]
    case buf | authType => exact .gone rfl dead
    case serialize => exact .noticeString rfl (by simp [serialize, dead])
    all_goals exact absurd unread nofun
  | noticeString next wrong =>
    simp only [Notification.noticeStep, next]
    exact .sent .notice _ (mem_append_right _ (mem_singleton_self _)) wrong
  | sent sender reply here wrong =>
    exact .sent _ _ (mem_sentBy_step _ .notice here) wrong
  | late marked waiting failed unsent =>
    simp only [Notification.noticeStep, marked]
    exact .late marked waiting failed unsent
  | refused past unsent =>
    exact .refused (sameHandshaker.trans past) (sameSignature.trans unsent)
  | revoked marked accepted failed =>
    simp only [Notification.noticeStep, marked]
    exact .revoked marked accepted failed

theorem Spoiled.handshakeStep (spoiled : Spoiled scene s) :
    Spoiled scene (handshakeStep scene s) := by
  obtain ⟨sameNotice, sameString⟩ := handshakeStep_frame (s := s) scene
  cases spoiled with
  | keyBuf next begun wrong =>
    simp only [Notification.handshakeStep, next]
    exact .keyString rfl (notOwn_key (.inr wrong))
  | keyType filling begun wrong =>
    cases next : s.handshaker <;> rw [next] at filling <;>
      simp only [Notification.handshakeStep, next]
    case keyBuf =>
      obtain ⟨_, made⟩ := Option.isSome_iff_exists.mp filling
      rw [made]
      exact .keyType rfl begun wrong
    case keySerialize => exact .keyString rfl (notOwn_key (.inl wrong))
    all_goals exact absurd filling nofun
  | keyString next wrong =>
    simp only [Notification.handshakeStep, next]
    exact .sent .key _ (mem_append_right _ (mem_singleton_self _)) wrong
  | noticeBuf filling filled wrong =>
    obtain ⟨stillFilled, sameBuf⟩ := handshakeStep_buf scene filled
    exact .noticeBuf (by rwa [sameNotice]) stillFilled (by rwa [sameBuf])
  | noticeType next typed wrong =>
    obtain ⟨stillTyped, sameType⟩ := handshakeStep_authType scene typed
    exact .noticeType (sameNotice.trans next) stillTyped (by rwa [sameType])
  | gone unread dead => exact .gone (by rwa [sameNotice]) (handshakeStep_dead _ dead)
  | noticeString next wrong =>
    exact .noticeString (sameNotice.trans next) (by rwa [sameString])
  | sent sender reply here wrong =>
    exact .sent _ _ (mem_sentBy_step _ .handshake here) wrong
  | late marked waiting failed unsent =>
    cases next : s.handshaker <;> rw [next] at waiting <;>
      simp only [Notification.handshakeStep, next]
    case keyBuf => split <;> exact .late marked rfl failed unsent
    case readOk =>
      rw [if_neg (by rw [failed]; decide)]
      exact .late marked rfl failed unsent
    case readKey =>
      rw [if_neg (by rw [failed]; decide)]
      exact .refused rfl unsent
    case keyType | keySerialize | keySend | leave => exact .late marked rfl failed unsent
    all_goals exact absurd waiting nofun
  | refused past unsent =>
    simp only [Notification.handshakeStep, past]
    exact .refused past unsent
  | revoked marked accepted failed =>
    cases next : s.handshaker <;> rw [next] at accepted <;>
      simp only [Notification.handshakeStep, next]
    case okSend | okClose => exact .revoked marked rfl failed
    case done => exact .revoked marked (by rw [next]; rfl) failed
    all_goals exact absurd accepted nofun

theorem keyAuthType_ne_ok : scene.keyAuthType ≠ AuthType.ok.code := by
  unfold Scene.keyAuthType
  split <;> decide

theorem okSent_of_waiting {pc : HandshakePc} (waiting : pc.waiting) : pc.okSent = 0 := by
  cases pc <;> first | rfl | exact absurd waiting nofun

/-- A step that is not fine spoils what the other thread has done. -/
theorem spoiled_of_not_fine (replies : Replies scene s) {thread : Thread}
    (bad : ¬ Fine scene s thread) : Spoiled scene (step scene s thread) := by
  cases thread with
  | notice =>
    cases next : s.notice <;> simp only [Fine, next] at bad <;> simp only [step, noticeStep, next]
    case buf =>
      obtain ⟨serializing, other⟩ := Classical.not_imp.mp bad
      exact .keyBuf serializing nofun other
    case authType =>
      exact .keyType (Bool.eq_true_of_not_eq_false bad) (fun _ => rfl) keyAuthType_ne_ok.symm
    case serialize => exact .noticeString rfl (by simp [serialize, bad])
    case status =>
      cases waiting : s.handshaker.waiting with
      | true =>
        refine .late rfl waiting rfl ?_
        rw [replies.signature, okSent_of_waiting waiting, take_zero]
      | false =>
        cases accepted : s.handshaker.accepted with
        | true => exact .revoked rfl accepted rfl
        | false => exact absurd ⟨waiting, accepted⟩ bad
    all_goals exact absurd trivial bad
  | handshake =>
    cases next : s.handshaker <;> simp only [Fine, next] at bad <;>
      simp only [step, handshakeStep, next]
    case keyType => exact .noticeType (not_not.mp bad) rfl keyAuthType_ne_ok
    case keyBuf =>
      obtain ⟨filling, other⟩ := Classical.not_imp.mp bad
      cases made : scene.keyBuf with
      | none => exact absurd (.inl made) other
      | some buf =>
        exact .noticeBuf filling rfl fun same => other (.inr (by rw [made, ← same]))
    all_goals exact absurd trivial bad

end

/-! ### Whole schedules -/

/-- How many turns the notification still needs. -/
def NoticePc.left : NoticePc → Nat
  | .buf => 7
  | .authType => 6
  | .serialize => 5
  | .send => 4
  | .close => 3
  | .log => 2
  | .status => 1
  | .done => 0

/-- How many turns the handshake thread needs at most. -/
def HandshakePc.left : HandshakePc → Nat
  | .confirm => 13
  | .keyStatus => 12
  | .keyType => 11
  | .keyBuf => 10
  | .keySerialize => 9
  | .keySend => 8
  | .leave => 7
  | .readOk => 6
  | .readKey => 5
  | .verify => 4
  | .okStatus => 3
  | .okSend => 2
  | .okClose => 1
  | .done | .refused => 0

section

variable {scene : Scene} {s : Threads}

theorem noticeStep_left : (noticeStep scene s).notice.left = s.notice.left - 1 := by
  cases next : s.notice <;> simp [noticeStep, next, NoticePc.left]

theorem handshakeStep_left : (handshakeStep scene s).handshaker.left ≤ s.handshaker.left - 1 := by
  cases next : s.handshaker <;> simp only [handshakeStep, next]
  case confirm | readOk | readKey | verify => split <;> decide
  case keyBuf => split <;> dsimp only <;> decide
  all_goals decide

/-- Every turn of a thread brings it nearer to its end. -/
theorem left_foldl (schedule : List Thread) (s : Threads) :
    (schedule.foldl (step scene) s).notice.left ≤ s.notice.left - schedule.count .notice ∧
    (schedule.foldl (step scene) s).handshaker.left ≤
    s.handshaker.left - schedule.count .handshake := by
  induction schedule generalizing s with
  | nil => simp
  | cons thread schedule ih =>
    obtain ⟨notice, handshaker⟩ := ih (step scene s thread)
    rw [foldl_cons]
    cases thread with
    | notice =>
      have fewer : (step scene s .notice).notice.left = s.notice.left - 1 := noticeStep_left
      have same : (step scene s .notice).handshaker = s.handshaker := (noticeStep_frame scene).1
      rw [same] at handshaker
      simp only [count_cons_self, count_cons_of_ne (by decide : Thread.notice ≠ .handshake)]
      omega
    | handshake =>
      have fewer : (step scene s .handshake).handshaker.left ≤ s.handshaker.left - 1 :=
        handshakeStep_left
      have same : (step scene s .handshake).notice = s.notice := (handshakeStep_frame scene).1
      rw [same] at notice
      simp only [count_cons_self, count_cons_of_ne (by decide : Thread.handshake ≠ .notice)]
      omega

/-- With its turns the notification comes to its end, and the handshake thread to one of
its ends. -/
theorem ended_run {schedule : List Thread} (noticeTurns : 7 ≤ schedule.count .notice)
    (handshakeTurns : 13 ≤ schedule.count .handshake) :
    (run scene schedule).notice = .done ∧ ((run scene schedule).handshaker = .done ∨
    (run scene schedule).handshaker = .refused) := by
  obtain ⟨notice, handshaker⟩ := left_foldl schedule (start scene)
  have noticeLeft : (run scene schedule).notice.left = 0 :=
    Nat.le_zero.mp (notice.trans (Nat.sub_eq_zero_of_le noticeTurns).le)
  have handshakeLeft : (run scene schedule).handshaker.left = 0 :=
    Nat.le_zero.mp (handshaker.trans (Nat.sub_eq_zero_of_le handshakeTurns).le)
  constructor
  · cases last : (run scene schedule).notice <;> rw [last] at noticeLeft
    all_goals exact absurd noticeLeft nofun
  · cases last : (run scene schedule).handshaker <;> rw [last] at handshakeLeft
    case done => exact .inl rfl
    case refused => exact .inr rfl
    all_goals exact absurd handshakeLeft nofun

/-- The session is authorised, and every step has sent what is its own. -/
def Authorised (scene : Scene) (s : Threads) : Prop :=
  s.info.authtype = .ok ∧ ∀ sender, s.sentBy sender = (scene.replies sender).map some

/-- What is spoiled when both threads are at their end stays lost. -/
theorem Spoiled.not_authorised (spoiled : Spoiled scene s) (noticeEnd : s.notice = .done)
    (handshakeEnd : s.handshaker = .done ∨ s.handshaker = .refused) : ¬ Authorised scene s := by
  rintro ⟨authtype, own⟩
  cases spoiled with
  | keyBuf next => rw [next] at handshakeEnd; exact handshakeEnd.elim nofun nofun
  | keyType filling =>
    rcases handshakeEnd with last | last <;> rw [last] at filling <;> exact absurd filling nofun
  | keyString next => rw [next] at handshakeEnd; exact handshakeEnd.elim nofun nofun
  | noticeBuf filling => rw [noticeEnd] at filling; exact absurd filling nofun
  | noticeType next => rw [next] at noticeEnd; exact absurd noticeEnd nofun
  | gone unread => rw [noticeEnd] at unread; exact absurd unread nofun
  | noticeString next => rw [next] at noticeEnd; exact absurd noticeEnd nofun
  | sent sender reply here wrong => exact wrong (own sender ▸ here)
  | late _ _ failed => exact absurd (failed.symm.trans authtype) (by decide)
  | refused _ unsent => exact absurd ((own .signature).symm.trans unsent) nofun
  | revoked _ _ failed => exact absurd (failed.symm.trans authtype) (by decide)

/-- The threads have not come in each other's way. -/
structure Kept (scene : Scene) (s : Threads) : Prop where
  object : Object scene s
  replies : Replies scene s
  status : Status scene s

theorem Kept.start : Kept scene (start scene) :=
  ⟨⟨fun _ => rfl, nofun, nofun, nofun, nofun⟩, ⟨nofun, nofun, rfl, rfl, rfl⟩,
    ⟨nofun, nofun, nofun, fun _ => rfl, nofun⟩⟩

/-- Threads that end without having come in each other's way have done all they should. -/
theorem Kept.authorised (kept : Kept scene s) (noticeEnd : s.notice = .done)
    (handshakeEnd : s.handshaker = .done ∨ s.handshaker = .refused) : Authorised scene s := by
  obtain ⟨_, replies, status⟩ := kept
  have last : s.handshaker = .done := handshakeEnd.resolve_right status.notRefused
  refine ⟨status.ok (by rw [last]; rfl), fun sender => ?_⟩
  cases sender with
  | notice => rw [Threads.sentBy, replies.notice, noticeEnd]; rfl
  | key =>
    rw [Threads.sentBy, replies.key, last]
    rw [Scene.replies]
    split <;> simp [HandshakePc.keySent]
  | signature => rw [Threads.sentBy, replies.signature, last]; rfl

variable (allowed : scene.out.postUIConfirm scene.hostname scene.pubkey ≠ .refuse)
  (verifies : scene.later.authVerify scene.hSession.rsa3072Sha512 scene.signature.buf
    scene.info.token scene.pubkey)

include allowed verifies

/-- A fine step keeps the threads out of each other's way. -/
theorem Kept.step (kept : Kept scene s) {thread : Thread} (fine : Fine scene s thread) :
    Kept scene (step scene s thread) := by
  obtain ⟨object, replies, status⟩ := kept
  cases thread with
  | notice =>
    exact ⟨object.noticeStep fine, replies.noticeStep object fine, status.noticeStep fine⟩
  | handshake =>
    exact ⟨object.handshakeStep fine, replies.handshakeStep object status allowed verifies,
      status.handshakeStep allowed verifies⟩

/-- The session ends authorised, and the reply of each step of the handshake is its own,
exactly if every step of the schedule is fine for the other thread. -/
theorem authorised_iff_fine (schedule : List Thread)
    (noticeTurns : 7 ≤ schedule.count .notice) (handshakeTurns : 13 ≤ schedule.count .handshake) :
    ((run scene schedule).info.authtype = .ok ∧
        ∀ sender, (run scene schedule).sentBy sender = (scene.replies sender).map some) ↔
      ExactRuns.AllFine (Notification.step scene) (Fine scene) (Notification.start scene)
        schedule := by
  obtain ⟨noticeEnd, handshakeEnd⟩ := @ended_run scene schedule noticeTurns handshakeTurns
  exact ExactRuns.final_iff (Kept _) Kept.start
    (fun kept fine => kept.step allowed verifies fine)
    (fun kept bad => spoiled_of_not_fine kept.replies bad)
    (fun {s thread} spoiled => match thread with
      | .notice => spoiled.noticeStep
      | .handshake => spoiled.handshakeStep)
    (fun spoiled => spoiled.not_authorised noticeEnd handshakeEnd)
    (fun kept => kept.authorised noticeEnd handshakeEnd)

end

/-- When the notification is over, every step is fine. -/
theorem fine_of_notice_done {scene : Scene} {s : Threads} (past : s.notice = .done) (turns : Nat) :
    ExactRuns.AllFine (step scene) (Fine scene) s (List.replicate turns .handshake) := by
  induction turns generalizing s with
  | zero => exact ExactRuns.allFine_nil
  | succ turns ih =>
    refine .cons ?_ (ih ((handshakeStep_frame _).1.trans past))
    rw [Fine]
    split
    · rw [past]; nofun
    · rw [past]; nofun
    · trivial

/-- A notification that is over before the user answers is fine, whatever else happens. -/
theorem fine_of_notice_first (scene : Scene) (turns : Nat) :
    ExactRuns.AllFine (step scene) (Fine scene) (start scene)
    (List.replicate 7 .notice ++ List.replicate turns .handshake) :=
  .cons nofun (.cons rfl (.cons rfl (.cons trivial (.cons trivial (.cons trivial
    (.cons ⟨rfl, rfl⟩ (fine_of_notice_done rfl turns)))))))

/-! ### A late notification -/

/-- Nothing is known and everything is granted. -/
def granting : Outside where
  randomToken := []
  connectValidation := false
  checkAuthPubKeyIsValid _ := false
  alreadyInKnownHosts _ := false
  postUIConfirm _ _ := .allowOnce
  authVerify _ _ _ _ := true
  newSSL := false
  pskEncrypt _ := none
  tls := ⟨false, 0, [], false, false⟩
  isExpectedParam _ _ := true
  reportCommandEvent := false
  hostname := []

/-- A session over USB whose user allows the key. -/
def allowing : Scene where
  out := granting
  later := granting
  hSession := { HSession.new .usb 7 with tokenRSA := [1] }
  channelId := 1
  info := ⟨.none, [1], [], []⟩
  handshake := ⟨str "OHOS HDC", AuthType.publicKey.code, 0, [], [], str "Ver: 3.1.0a"⟩
  hostname := [65]
  pubkey := [66]
  signature := ⟨str "OHOS HDC", AuthType.signature.code, 0, [], [], str "Ver: 3.1.0a"⟩

theorem authorised_of_notice_first :
    (run allowing (List.replicate 7 .notice ++ List.replicate 13 .handshake)).info.authtype = .ok :=
  ((authorised_iff_fine (by decide) rfl
    (List.replicate 7 .notice ++ List.replicate 13 .handshake) (by decide) (by decide)).mpr
    (fine_of_notice_first allowing 13)).1

/-- The notification thread is late. If it marks the entry as failed when the signature has
been accepted, the session ends as failed. If it writes the type of the object before that
is serialised, the host is told that it is authorised instead of being asked for the
signature. -/
theorem notification_overtaken :
    allowing.out.postUIConfirm allowing.hostname allowing.pubkey ≠ .refuse ∧
      allowing.later.authVerify allowing.hSession.rsa3072Sha512 allowing.signature.buf
        allowing.info.token allowing.pubkey ∧
      (run allowing (List.replicate 6 .notice ++ List.replicate 13 .handshake ++
        [.notice])).info.authtype = .fail ∧
      (run allowing ([.notice] ++ List.replicate 4 .handshake ++ List.replicate 6 .notice ++
        List.replicate 9 .handshake)).byKey =
        [some (.handshake { allowing.handshake with authType := AuthType.ok.code, buf := [1] })] :=
  ⟨by decide, rfl, rfl, rfl⟩

end Hdc.Daemon.Notification
