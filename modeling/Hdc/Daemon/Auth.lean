import Hdc.Base
import Hdc.SerialStruct

/-!
The daemon's session handshake (`daemon.cpp`).

A connection proves who it is in three frames: a first one without
authentication, one with its public key and one with a signature over a token,
or a TLS handshake instead of the last. How far a connection is stands in
`mapAuthStatus` under its session id, and the session id of a USB or serial
connection is the one in its packets, that of a TCP connection the one in its
first handshake frame.

The state keeps two records beside the source's data: `accepted`, the steps of
the handshake that each connection has itself taken, and `dispatched`, every
command handed on, with the steps taken until then.

What is outside the daemon (the key store, the user, the cryptography, system
parameters) answers through `Outside`, anew for every frame.
-/

namespace Hdc.Daemon

open SerialStruct HdcCommand

/-! ### Data -/

/-- `AuthType`. -/
inductive AuthType where
  | none
  | token
  | signature
  | publicKey
  | ok
  | fail
  | sslTlsPsk
deriving DecidableEq, Repr

def AuthType.code : AuthType → UInt8
  | .none => 0
  | .token => 1
  | .signature => 2
  | .publicKey => 3
  | .ok => 4
  | .fail => 5
  | .sslTlsPsk => 6

/-- `SessionHandShake`. -/
structure SessionHandShake where
  banner : Bytes
  authType : UInt8
  sessionId : UInt32
  connectKey : Bytes
  buf : Bytes
  version : Bytes
deriving DecidableEq, Repr

/-- The descriptor of `SessionHandShake`. -/
def sessionHandShakeFields : List (FieldImpl SessionHandShake) :=
  [{ tag := 1, codec := stringSerializer, get := (·.banner),
     set := fun h value => { h with banner := value } },
   { tag := 2, codec := uint8Serializer, get := (·.authType),
     set := fun h value => { h with authType := value } },
   { tag := 3, codec := uint32Serializer, get := (·.sessionId),
     set := fun h value => { h with sessionId := value } },
   { tag := 4, codec := stringSerializer, get := (·.connectKey),
     set := fun h value => { h with connectKey := value } },
   { tag := 5, codec := stringSerializer, get := (·.buf),
     set := fun h value => { h with buf := value } },
   { tag := 6, codec := stringSerializer, get := (·.version),
     set := fun h value => { h with version := value } }]

/-- A handshake before it is parsed. The source leaves the two numbers
uninitialised; a peer that omits them could as well have sent any value. -/
def SessionHandShake.blank : SessionHandShake := ⟨[], 0, 0, [], [], []⟩

/-- `HdcDaemonAuthInfo`. -/
structure HdcDaemonAuthInfo where
  authtype : AuthType
  token : Bytes
  pubkey : Bytes
  authmsg : Bytes
deriving DecidableEq, Repr

/-- The entry that `mapAuthStatus[id]` makes. -/
def HdcDaemonAuthInfo.empty : HdcDaemonAuthInfo := ⟨.none, [], [], []⟩

/-- `ConnType`, of those that the daemon serves. -/
inductive ConnType where
  | usb
  | tcp
  | serial
deriving DecidableEq, Repr

/-- The session object of a connection. `classSSL` says that it has a TLS object,
`rsa3072Sha512` is `verifyType`. -/
structure HSession where
  sessionId : UInt32
  connType : ConnType
  connectKey : Bytes
  handshakeOK : Bool
  tokenRSA : Bytes
  rsa3072Sha512 : Bool
  supportEncrypt : Bool
  supportConnValidation : Bool
  classSSL : Bool
  sslHandshake : Bool
deriving DecidableEq, Repr

/-- `MallocSession`. -/
def HSession.new (connType : ConnType) (sessionId : UInt32) : HSession :=
  ⟨sessionId, connType, [], false, [], false, false, false, false, false⟩

/-- `UserPermit`. -/
inductive UserPermit where
  | refuse
  | allowOnce
  | allowForever
deriving DecidableEq, Repr

/-- What the TLS library answers to a handshake frame: the data could be written,
the code and the output of the handshake, whether it is finished, and whether
the key could be cleared. -/
structure TlsAnswer where
  written : Bool
  ret : Int
  out : Bytes
  finished : Bool
  cleared : Bool
deriving DecidableEq, Repr

/-- What is outside the daemon, while it handles one frame. -/
structure Outside where
  /-- `GetSecureRandomString` -/
  randomToken : Bytes
  /-- `GetConnectValidationParam` asks the daemon to validate connections -/
  connectValidation : Bool
  checkAuthPubKeyIsValid : Bytes → Bool
  alreadyInKnownHosts : Bytes → Bool
  postUIConfirm : Bytes → Bytes → UserPermit
  /-- `AuthVerify`: scheme, signature, token, public key -/
  authVerify : Bool → Bytes → Bytes → Bytes → Bool
  /-- a TLS object could be made, and a key for it encrypted -/
  newSSL : Bool
  pskEncrypt : Bytes → Option Bytes
  tls : TlsAnswer
  isExpectedParam : Bytes → Bytes → Bool
  reportCommandEvent : Bool
  hostname : Bytes

/-- `MessageLevel`. -/
inductive MessageLevel where
  | fail
  | info
  | ok
deriving DecidableEq, Repr

/-- What the daemon sends: a handshake frame, a log line, or the end of a
channel. -/
inductive Reply where
  | handshake (handshake : SessionHandShake)
  | log (level : MessageLevel) (msg : Bytes)
  | channelClose (count : UInt8)
deriving DecidableEq, Repr

/-- A step of the handshake that a connection has taken. -/
inductive AuthStep where
  | none
  | publicKey
  | signature
  | sslTlsPsk
deriving DecidableEq, Repr

/-- A command handed on for a connection, with the steps taken by then. -/
structure Dispatch where
  conn : Nat
  channelId : UInt32
  command : UInt16
  before : List (Nat × AuthStep)
deriving DecidableEq, Repr

/-- `HdcDaemon`. Connections are numbered as they come; `mapSession` finds them by
session id. `notices` are threads that have not run yet. -/
structure HdcDaemon where
  authEnable : Bool
  mapAuthStatus : UInt32 → Option HdcDaemonAuthInfo
  mapSession : UInt32 → Option Nat
  connections : List (Option HSession)
  notices : List (Nat × UInt32 × SessionHandShake × Bytes)
  sent : List (UInt32 × UInt32 × Reply)
  accepted : List (Nat × AuthStep)
  dispatched : List Dispatch

/-- The daemon before its first connection. -/
def HdcDaemon.start (authEnable : Bool) : HdcDaemon :=
  ⟨authEnable, fun _ => none, fun _ => none, [], [], [], [], []⟩

/-! ### The authentication map -/

namespace HdcDaemon

def getSessionAuthStatus (daemon : HdcDaemon) (sessionId : UInt32) : AuthType :=
  ((daemon.mapAuthStatus sessionId).getD .empty).authtype

def getSessionAuthToken (daemon : HdcDaemon) (sessionId : UInt32) : Bytes :=
  ((daemon.mapAuthStatus sessionId).getD .empty).token

def getSessionAuthPubkey (daemon : HdcDaemon) (sessionId : UInt32) : Bytes :=
  ((daemon.mapAuthStatus sessionId).getD .empty).pubkey

def getSessionAuthmsg (daemon : HdcDaemon) (sessionId : UInt32) : Bytes :=
  ((daemon.mapAuthStatus sessionId).getD .empty).authmsg

/-- An entry is replaced by what `change` makes of it, or of a new one. -/
def updateAuth (daemon : HdcDaemon) (sessionId : UInt32)
    (change : HdcDaemonAuthInfo → HdcDaemonAuthInfo) : HdcDaemon :=
  { daemon with
    mapAuthStatus := Function.update daemon.mapAuthStatus sessionId
      (some (change ((daemon.mapAuthStatus sessionId).getD .empty))) }

def initSessionAuthInfo (daemon : HdcDaemon) (sessionId : UInt32) (token : Bytes) : HdcDaemon :=
  daemon.updateAuth sessionId fun _ => ⟨.none, token, [], []⟩

def updateSessionAuthOk (daemon : HdcDaemon) (sessionId : UInt32) : HdcDaemon :=
  daemon.updateAuth sessionId fun info => { info with authtype := .ok, token := [], pubkey := [] }

def updateSessionAuthPubkey (daemon : HdcDaemon) (sessionId : UInt32) (pubkey : Bytes) : HdcDaemon :=
  daemon.updateAuth sessionId fun info => { info with authtype := .publicKey, pubkey }

def updateSessionAuthmsg (daemon : HdcDaemon) (sessionId : UInt32) (authmsg : Bytes) : HdcDaemon :=
  daemon.updateAuth sessionId fun info => { info with authtype := .fail, authmsg }

end HdcDaemon

/-! ### The handshake -/

/-- The daemon in the middle of a frame, with the session object it works on. -/
structure Handling where
  daemon : HdcDaemon
  conn : Nat
  hSession : HSession

namespace Handling

/-- `Send` to the session at hand. -/
def send (s : Handling) (channelId : UInt32) (reply : Reply) : Handling :=
  { s with daemon := { s.daemon with
      sent := s.daemon.sent ++ [(s.hSession.sessionId, channelId, reply)] } }

/-- The connection has taken a step of the handshake. -/
def accept (s : Handling) (step : AuthStep) : Handling :=
  { s with daemon := { s.daemon with accepted := s.daemon.accepted ++ [(s.conn, step)] } }

/-- A change of the authentication map. -/
def auth (s : Handling) (change : HdcDaemon → UInt32 → HdcDaemon) : Handling :=
  { s with daemon := change s.daemon s.hSession.sessionId }

/-- A thread is started that tells the host to wait. -/
def startNotice (s : Handling) (channelId : UInt32) (handshake : SessionHandShake) (msg : Bytes) :
    Handling :=
  { s with daemon := { s.daemon with
      notices := s.daemon.notices ++ [(s.conn, channelId, handshake, msg)] } }

/-- The status of the session at hand. -/
def status (s : Handling) : AuthType := s.daemon.getSessionAuthStatus s.hSession.sessionId

end Handling

/-- Versions before this one know no tagged replies. -/
def lowVersion (version : Bytes) : Bool := decide (version < str "Ver: 3.0.0b")

/-- `AddFeatureTagToEmgmsg`. -/
def addFeatureTagToEmgmsg (emgmsg : Bytes) : Bytes :=
  Base.tlvAppend (Base.tlvAppend emgmsg (str "1200") (str "enable")) (str "supportfeatures")
    (str "heartbeat,encrypt_tcp")

section

variable (out : Outside)

/-- `SendAuthOkMsg`. It also serves to say no, with `daemonAuthResult`. -/
def sendAuthOkMsg (s : Handling) (channelId : UInt32) (handshake : SessionHandShake)
    (msg daemonAuthResult : Bytes) : Handling :=
  let (buf, handshakeOK) :=
    if lowVersion handshake.version then
      (if msg = [] then out.hostname else msg, true)
    else
      let emgmsg := Base.tlvAppend (Base.tlvAppend (Base.tlvAppend [] (str "emgmsg") msg)
        (str "devname") out.hostname) (str "daemonauthstatus") daemonAuthResult
      if !out.connectValidation || s.hSession.supportConnValidation then
        (addFeatureTagToEmgmsg emgmsg, true)
      else
        (emgmsg, s.hSession.handshakeOK)
  let s := { s with hSession := { s.hSession with handshakeOK } }
  (s.send channelId (.handshake { handshake with authType := AuthType.ok.code, buf })).send
    channelId (.channelClose 1)

/-- `HandleAuthFailed`. -/
def handleAuthFailed (s : Handling) (channelId : UInt32) (handshake : SessionHandShake)
    (msg : Bytes) : Handling :=
  ((sendAuthOkMsg out s channelId handshake msg (str "DAEMON_UNAUTH")).send channelId
    (.log .fail msg)).auth fun daemon sessionId => daemon.updateSessionAuthmsg sessionId msg

/-- `HandDaemonAuthInit`. -/
def handDaemonAuthInit (s : Handling) (channelId : UInt32) (handshake : SessionHandShake) :
    Bool × Handling :=
  let s := { s with hSession := { s.hSession with tokenRSA := out.randomToken } }
  let buf :=
    if s.hSession.rsa3072Sha512 then
      let buf := Base.tlvAppend [] (str "authtype") (str "1")
      if s.hSession.connType = .tcp ∧ s.hSession.supportEncrypt then
        Base.tlvAppend buf (str "encrypttcp") (str "1")
      else
        buf
    else
      handshake.buf
  let s := s.send channelId
    (.handshake { handshake with authType := AuthType.publicKey.code, buf })
  (true, (s.auth fun daemon sessionId =>
    daemon.initSessionAuthInfo sessionId s.hSession.tokenRSA).accept .none)

/-- `GetHostPubkeyInfo`: the host's name and its key, around a form feed. -/
def getHostPubkeyInfo (buf : Bytes) : Option (Bytes × Bytes) :=
  let hostname := buf.takeWhile (· ≠ 12)
  match buf.drop hostname.length with
  | [] => none
  | _ :: pubkey => if hostname ≠ [] ∧ pubkey ≠ [] then some (hostname, pubkey) else none

/-- `SendAuthSignMsg`. -/
def sendAuthSignMsg (s : Handling) (channelId : UInt32) (handshake : SessionHandShake)
    (pubkey : Bytes) : Handling :=
  (s.auth fun daemon sessionId => daemon.updateSessionAuthPubkey sessionId pubkey).send channelId
    (.handshake { handshake with authType := AuthType.signature.code, buf := s.hSession.tokenRSA })

/-- `SendAuthEncryptPsk`. -/
def sendAuthEncryptPsk (s : Handling) (channelId : UInt32) (handshake : SessionHandShake)
    (pubkey : Bytes) : Handling :=
  let s := s.auth fun daemon sessionId => daemon.updateSessionAuthPubkey sessionId pubkey
  if !s.hSession.classSSL && !out.newSSL then s
  else
    let s := { s with hSession := { s.hSession with classSSL := true } }
    match out.pskEncrypt pubkey with
    | none => s
    | some psk =>
      s.send channelId (.handshake { handshake with authType := AuthType.sslTlsPsk.code, buf := psk })

/-- `SendAuthMsg`: the key is accepted and the last step asked for. -/
def sendAuthMsg (s : Handling) (channelId : UInt32) (handshake : SessionHandShake)
    (pubkey : Bytes) : Handling :=
  (if s.hSession.connType = .tcp ∧ s.hSession.supportEncrypt then
    sendAuthEncryptPsk out s channelId handshake pubkey
  else
    sendAuthSignMsg s channelId handshake pubkey).accept .publicKey

def authFailedText : Bytes := str "[E000010]:Auth failed, cannt login the device."

/-- `HandConnectValidationPubkey`. -/
def handConnectValidationPubkey (s : Handling) (channelId : UInt32) (handshake : SessionHandShake) :
    Bool × Handling :=
  match getHostPubkeyInfo handshake.buf with
  | none => (false, s)
  | some (_, pubkey) =>
    if out.checkAuthPubKeyIsValid pubkey then (true, sendAuthMsg out s channelId handshake pubkey)
    else
      (false, (handleAuthFailed out s channelId handshake authFailedText).send channelId
        (.log .info (str "Please remove public key and private key, then try again")))

def confirmText : Bytes :=
  str ("[E000002]:The device unauthorized.\r\n" ++ "This server's public key is not set.\r\n" ++
    "Please check for a confirmation dialog on your device.\r\n" ++
    "Otherwise try 'hdc kill' if that seems wrong.")

def deniedText : Bytes :=
  str ("[E000003]:The device unauthorized.\r\n" ++
    "The user denied the access for the device.\r\n" ++
    "Please execute 'hdc kill' and redo your command,\r\n" ++
    "then check for a confirmation dialog on your device.")

/-- `HandDaemonAuthPubkey`. For a key that is not known a thread tells the host to
wait, while the user is asked. -/
def handDaemonAuthPubkey (s : Handling) (channelId : UInt32) (handshake : SessionHandShake) :
    Bool × Handling :=
  if out.connectValidation then handConnectValidationPubkey out s channelId handshake
  else
    match getHostPubkeyInfo handshake.buf with
    | none => (true, handleAuthFailed out s channelId handshake deniedText)
    | some (hostname, pubkey) =>
      if out.alreadyInKnownHosts pubkey then (true, sendAuthMsg out s channelId handshake pubkey)
      else
        let s := s.startNotice channelId handshake confirmText
        if out.postUIConfirm hostname pubkey = .refuse then
          (true, handleAuthFailed out s channelId handshake deniedText)
        else
          (true, sendAuthMsg out s channelId handshake pubkey)

/-- `HandDaemonAuthSignature`. -/
def handDaemonAuthSignature (s : Handling) (channelId : UInt32) (handshake : SessionHandShake) :
    Bool × Handling :=
  let token := s.daemon.getSessionAuthToken s.hSession.sessionId
  let pubkey := s.daemon.getSessionAuthPubkey s.hSession.sessionId
  if out.authVerify s.hSession.rsa3072Sha512 handshake.buf token pubkey then
    (true, (sendAuthOkMsg out (s.auth HdcDaemon.updateSessionAuthOk) channelId handshake []
      (str "SUCCESS")).accept .signature)
  else
    (true, handleAuthFailed out s channelId handshake authFailedText)

/-- `DaemonSSLHandshake`. -/
def daemonSSLHandshake (s : Handling) (channelId : UInt32) (handshake : SessionHandShake) :
    Bool × Handling :=
  if !s.hSession.classSSL then (false, s)
  else if handshake.buf ≠ [] ∧ !out.tls.written then (false, s)
  else if out.tls.ret = 0 ∧ out.tls.out = [] then (false, s)
  else
    let handshake := if out.tls.ret = 0 then { handshake with buf := out.tls.out } else handshake
    let s := if out.tls.ret = 0 then s.send channelId (.handshake handshake) else s
    if out.tls.finished then
      let s := { s with hSession := { s.hSession with sslHandshake := true } }
      (out.tls.ret = 0 && out.tls.cleared,
        (sendAuthOkMsg out (s.auth HdcDaemon.updateSessionAuthOk) channelId handshake []
          (str "SUCCESS")).accept .sslTlsPsk)
    else
      (out.tls.ret = 0, s)

def lowClientText : Bytes :=
  str "[E000001]:The sdk hdc.exe version is too low, please upgrade to the latest version."

def noValidationText : Bytes :=
  str ("[E000006]:The current computer has not obtained the permission to debug the " ++
    "control device.")

/-- `HandDaemonAuth`. -/
def handDaemonAuth (s : Handling) (channelId : UInt32) (handshake : SessionHandShake) :
    Bool × Handling :=
  if !out.connectValidation && !s.daemon.authEnable then
    (true, sendAuthOkMsg out (s.auth HdcDaemon.updateSessionAuthOk) channelId handshake []
      (str "SUCCESS"))
  else if lowVersion handshake.version then
    (true, handleAuthFailed out s channelId handshake lowClientText)
  else if out.connectValidation && !s.hSession.supportConnValidation then
    (true, handleAuthFailed out s channelId handshake noValidationText)
  else if s.status = .ok then (true, s)
  else if handshake.authType = AuthType.none.code then handDaemonAuthInit out s channelId handshake
  else if s.status = .none ∧ s.daemon.getSessionAuthToken s.hSession.sessionId ≠ [] ∧
      handshake.authType = AuthType.publicKey.code then
    handDaemonAuthPubkey out s channelId handshake
  else if s.status = .publicKey ∧ handshake.authType = AuthType.signature.code then
    handDaemonAuthSignature out s channelId handshake
  else if s.status = .publicKey ∧ handshake.authType = AuthType.sslTlsPsk.code then
    daemonSSLHandshake out s channelId handshake
  else (false, s)

/-- `ParsePeerSupportFeatures`. -/
def parsePeerSupportFeatures (hSession : HSession) (tlvMap : List (Bytes × Bytes)) : HSession :=
  match tlvMap.find? fun entry => entry.1 = str "supportfeatures" with
  | none => hSession
  | some (_, value) =>
    let features := Base.splitString value 44
    { hSession with
      supportEncrypt := str "encrypt_tcp" ∈ features
      supportConnValidation :=
        if out.connectValidation then str "conn_validation" ∈ features
        else hSession.supportConnValidation }

/-- `GetServerCapability`. -/
def getServerCapability (hSession : HSession) (buf : Bytes) : HSession :=
  let hSession := { hSession with rsa3072Sha512 := false }
  match Base.tlvToStringMap buf [] with
  | (false, _) => hSession
  | (true, tlvMap) =>
    parsePeerSupportFeatures out
      { hSession with
        rsa3072Sha512 :=
          (tlvMap.find? fun entry => entry.1 = str "authtype").any fun entry =>
            entry.2 = str "1" } tlvMap

/-- `AdminSession` with `OP_UPDATE`. -/
def adminSessionUpdate (mapSession : UInt32 → Option Nat) (unOld sessionId : UInt32) (conn : Nat) :
    UInt32 → Option Nat :=
  Function.update (Function.update mapSession unOld none) sessionId (some conn)

/-- `DaemonSessionHandshakeInit`: the connection takes the session id of the frame. -/
def daemonSessionHandshakeInit (s : Handling) (handshake : SessionHandShake) : Handling :=
  { s with
    daemon := { s.daemon with
      mapSession := adminSessionUpdate s.daemon.mapSession s.hSession.sessionId handshake.sessionId
        s.conn }
    hSession := getServerCapability out
      { s.hSession with
        sessionId := handshake.sessionId, connectKey := handshake.connectKey, handshakeOK := false }
      handshake.buf }

/-- `HANDSHAKE_MESSAGE`. -/
def handshakeMessage : Bytes := str "OHOS HDC"

/-- The frame as a handshake. -/
def parseHandshake (payload : Bytes) : SessionHandShake :=
  parseFromString sessionHandShakeFields .blank payload

/-- `DaemonSessionHandshake`. -/
def daemonSessionHandshake (s : Handling) (channelId : UInt32) (payload : Bytes) :
    Bool × Handling :=
  let handshake := parseHandshake payload
  if handshake.banner ≠ handshakeMessage then (false, s)
  else if handshake.authType = AuthType.none.code then
    if s.daemon.getSessionAuthStatus handshake.sessionId ≠ .none then (false, s)
    else
      handDaemonAuth out (daemonSessionHandshakeInit out s handshake) channelId
        { handshake with sessionId := 0, connectKey := [] }
  else
    handDaemonAuth out s channelId handshake

/-! ### Commands -/

/-- `CheckControl`: the parameter that switches a family of commands off. -/
def checkControl (command : UInt16) : Bool :=
  match ofCode command with
  | some .unityExecute | some .unityExecuteEx | some .unityRemount | some .unityReboot
  | some .unityRunmode | some .unityHilog | some .unityRootrun | some .unityBugreportInit
  | some .jdwpList | some .jdwpTrack | some .shellInit | some .shellData =>
    out.isExpectedParam (str "persist.hdc.control.shell") (str "true")
  | some .fileCheck | some .fileData | some .fileFinish | some .fileInit | some .fileBegin
  | some .fileMode | some .dirMode | some .appCheck | some .appData | some .appUninstall =>
    out.isExpectedParam (str "persist.hdc.control.file") (str "true")
  | some .forwardInit | some .forwardCheck | some .forwardActiveMaster | some .forwardActiveSlave
  | some .forwardData | some .forwardFreeContext | some .forwardCheckResult =>
    out.isExpectedParam (str "persist.hdc.control.fport") (str "true")
  | _ => true

/-- The commands that need no authentication. -/
def exempt (command : UInt16) : Bool :=
  command = kernelHandshake.code || command = kernelChannelClose.code ||
    command = sslHandshake.code

/-- `CheckAuthStatus`. -/
def checkAuthStatus (s : Handling) (channelId : UInt32) (command : UInt16) : Bool × Handling :=
  if s.daemon.authEnable ∧ s.status ≠ .ok ∧ exempt command = false then
    let authmsg := s.daemon.getSessionAuthmsg s.hSession.sessionId
    let s := if authmsg = [] then s else s.send channelId (.log .fail authmsg)
    (false, s.send channelId (.channelClose 1))
  else
    (true, s)

/-- A command is handed on. -/
def Handling.dispatch (s : Handling) (channelId : UInt32) (command : UInt16) : Handling :=
  { s with daemon := { s.daemon with
      dispatched := s.daemon.dispatched ++ [⟨s.conn, channelId, command, s.daemon.accepted⟩] } }

/-- `FetchCommand`. Tasks are not part of this state; a heartbeat and everything
that reaches `DispatchTaskData` count as handed on. -/
def fetchCommand (s : Handling) (channelId : UInt32) (command : UInt16) (payload : Bytes) :
    Bool × Handling :=
  if !out.reportCommandEvent then
    (false, s.send channelId (.log .fail (str ("[E00C002]Execution intercepted due to " ++
      "inaccessibility of reporting command event."))))
  else
    match checkAuthStatus s channelId command with
    | (false, s) => (true, s)
    | (true, s) =>
      if command = kernelHandshake.code then daemonSessionHandshake out s channelId payload
      else if command = kernelChannelClose.code then
        match payload with
        | [] => (true, s)
        | count :: _ => (true, if count = 0 then s else s.send channelId (.channelClose (count - 1)))
      else if command = heartbeatMsg.code then (true, s.dispatch channelId command)
      else if checkControl out command then (true, s.dispatch channelId command)
      else
        (true, (s.send channelId (.log .fail (str "debugging is not allowed"))).send channelId
          (.channelClose 1))

end

/-! ### Connections -/

/-- What can happen to the daemon. A TCP connection gets a random id that no
session has; a USB or serial connection is made for the first packet with an id
that no session has. -/
inductive Event where
  | connect (connType : ConnType) (sessionId : UInt32)
  | frame (conn : Nat) (channelId : UInt32) (command : UInt16) (payload : Bytes) (out : Outside)
  | notice (i : Nat) (out : Outside)
  | free (conn : Nat)

namespace HdcDaemon

/-- The session object of a connection. -/
def hSession (daemon : HdcDaemon) (conn : Nat) : Option HSession :=
  (daemon.connections[conn]?).join

/-- A session object is put back when its frame is handled. -/
def store (s : Handling) : HdcDaemon :=
  { s.daemon with connections := s.daemon.connections.set s.conn (some s.hSession) }

def step (daemon : HdcDaemon) : Event → HdcDaemon
  | .connect connType sessionId =>
    match daemon.mapSession sessionId with
    | some _ => daemon
    | none =>
      { daemon with
        connections := daemon.connections ++ [some (.new connType sessionId)]
        mapSession :=
          Function.update daemon.mapSession sessionId (some daemon.connections.length) }
  | .frame conn channelId command payload out =>
    match daemon.hSession conn with
    | none => daemon
    | some hSession => store (fetchCommand out ⟨daemon, conn, hSession⟩ channelId command payload).2
  | .notice i out =>
    match daemon.notices[i]? with
    | none => daemon
    | some (conn, channelId, handshake, msg) =>
      let daemon := { daemon with notices := daemon.notices.eraseIdx i }
      match daemon.hSession conn with
      | none => daemon
      | some hSession => store (handleAuthFailed out ⟨daemon, conn, hSession⟩ channelId handshake msg)
  | .free conn =>
    match daemon.hSession conn with
    | none => daemon
    | some hSession =>
      { daemon with
        connections := daemon.connections.set conn none
        mapSession := Function.update daemon.mapSession hSession.sessionId none }

/-- A run of the daemon with authentication switched on. -/
def run (events : List Event) : HdcDaemon := events.foldl step (start true)

end HdcDaemon

end Hdc.Daemon
