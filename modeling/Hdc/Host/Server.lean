import Hdc.Channel.Stream
import Hdc.Host.Permit
import Hdc.Session.Task

/-!
The host's server between devices and clients (`server.cpp`, `server_for_client.cpp`,
`channel.cpp`).

A client has a channel, which is bound to the session of one device. A frame of a device names a
channel; the server finds it by that id alone, passes the frame through a gate, and then writes to
the client, closes the channel, notes a forward or hands the frame to the task of the channel.

What leaves the server is recorded: `written` to clients, `sent` to devices, `freeing` channels,
`detached` ones whose socket was closed.
-/

namespace Hdc.Host

open Session HdcCommand

/-- A device's session, with its tasks. -/
structure HSession where
  connectKey : Bytes
  isDead : Bool
  tasks : Tasks
deriving DecidableEq, Repr

/-- `HdcForwardInformation`. -/
structure HdcForwardInformation where
  taskString : Bytes
  forwardDirection : Bool
  sessionId : UInt32
  channelId : UInt32
  connectKey : Bytes
deriving DecidableEq, Repr

/-- `HdcServer`, with its `HdcServerForClient`. -/
structure HdcServer where
  mapSession : UInt32 → Option HSession
  mapChannel : UInt32 → Option HChannel
  hostReceivePermits : Permits
  mapForward : List HdcForwardInformation
  written : List (UInt32 × Option UInt16 × Bytes)
  sent : List (UInt32 × UInt32 × UInt16 × Bytes)
  freeing : List UInt32
  detached : List UInt32

/-- What is outside, while a frame is handled: what a task says to it, memory for a
forward, the handshake, the formatting of a message, the timers, and whether the client's
stream takes what is written to it. `emptyCopy` is whether `memcpy_s` of no bytes succeeds. -/
structure Outside where
  answer : Answer
  newForward : Bool
  serverSessionHandshake : Bool
  stringFormat : Bytes → Bytes
  timer : UInt32 → Bool
  writable : Bool
  emptyCopy : Bool

namespace HdcServer

/-! ### To clients and devices -/

/-- Whether `SendChannel` writes, with the command in front for `SendChannelWithCmd`. A socket
that is closing takes nothing. -/
def writes (server : HdcServer) (out : Outside) (channelId : UInt32) (commandFlag : Option UInt16)
    (bytes : Bytes) : Bool :=
  let command := (commandFlag.map fun flag => Endian.toLE 2 flag.toNat).getD []
  let writable := out.writable && !server.detached.contains channelId
  (Channel.sendChannel out.emptyCopy writable (command ++ bytes)).isSome

/-- `SendChannel` and `SendChannelWithCmd`. -/
def sendChannel (server : HdcServer) (out : Outside) (channelId : UInt32)
    (commandFlag : Option UInt16) (bytes : Bytes) : HdcServer :=
  { server with
    written := server.written ++
      if server.writes out channelId commandFlag bytes then [(channelId, commandFlag, bytes)]
      else [] }

/-- `Send` to a device. -/
def send (server : HdcServer) (sessionId channelId : UInt32) (command : UInt16) (bytes : Bytes) :
    HdcServer :=
  { server with sent := server.sent ++ [(sessionId, channelId, command, bytes)] }

/-- `EchoClientRaw`. -/
def echoClientRaw (server : HdcServer) (out : Outside) (channelId : UInt32) (payload : Bytes) :
    HdcServer :=
  server.sendChannel out channelId none payload

/-- What `EchoClient` makes of a message, which is used as a format. -/
def echoText (out : Outside) (level : UInt8) (msg : Bytes) : Bytes :=
  let logInfo := if level = 0 then str "[Fail]" else if level = 1 then str "[Info]" else []
  let log := logInfo ++ out.stringFormat (msg.takeWhile (· ≠ 0))
  if log.getLast? = some 10 then log else log ++ str "\r\n"

/-- `EchoClient`. -/
def echoClient (server : HdcServer) (out : Outside) (channelId : UInt32) (level : UInt8)
    (msg : Bytes) : HdcServer :=
  server.sendChannel out channelId none (echoText out level msg)

/-- `SendCommandToClient`. -/
def sendCommandToClient (server : HdcServer) (out : Outside) (channelId : UInt32)
    (command : UInt16) (payload : Bytes) : HdcServer :=
  server.sendChannel out channelId (some command) payload

/-- The tasks of a session change. -/
def putTasks (server : HdcServer) (sessionId : UInt32) (session : HSession) (tasks : Tasks) :
    HdcServer :=
  { server with mapSession :=
      Function.update server.mapSession sessionId (some { session with tasks }) }

/-! ### A frame of a device -/

/-- `CheckHostCommandPermission`. -/
def checkHostCommandPermission (server : HdcServer) (channelId : UInt32) (channel : HChannel)
    (sessionId : UInt32) (command : UInt16) (payload : Bytes) : Bool :=
  if command = fileInit.code then false
  else if command = fileCheck.code ∧
      !server.hostReceivePermits.checkHostReceivePermit channelId channel sessionId payload then
    false
  else if command = forwardActiveSlave.code ∧
      !server.hostReceivePermits.checkForwardEndpoint channelId channel sessionId payload then
    false
  else if command = unityBugreportInit.code then false
  else true

/-- `AdminForwardMap` notes a forward if there is none with the same text. -/
def notes (server : HdcServer) (out : Outside) (taskString : Bytes) : Prop :=
  out.newForward = true ∧ ∀ forward ∈ server.mapForward, forward.taskString ≠ taskString

instance (server : HdcServer) (out : Outside) (taskString : Bytes) :
    Decidable (server.notes out taskString) :=
  inferInstanceAs (Decidable (_ ∧ _))

/-- `HandleForwardSuccess`. The client is cut off, if it was not before. -/
def handleForwardSuccess (server : HdcServer) (out : Outside) (sessionId : UInt32)
    (session : HSession) (channelId : UInt32) (payload : Bytes) : HdcServer :=
  match payload.takeWhile (· ≠ 0) with
  | [] => server
  | direction :: rest =>
    let taskString := session.connectKey ++ str "|" ++ (direction :: rest)
    { server with
      mapForward := server.mapForward ++
        if server.notes out taskString then
          [⟨taskString, direction = 49, sessionId, channelId, session.connectKey⟩]
        else []
      detached := server.detached ++ if channelId ∈ server.detached then [] else [channelId] }

/-- `HandleKernelEcho`. -/
def handleKernelEcho (server : HdcServer) (out : Outside) (channelId : UInt32) (payload : Bytes) :
    HdcServer :=
  match payload with
  | [] => server
  | level :: msg => server.echoClient out channelId level msg

/-- `HandleChannelClose`: the tasks are those of the session that sent the frame. -/
def handleChannelClose (server : HdcServer) (out : Outside) (sessionId : UInt32)
    (session : HSession) (channelId : UInt32) (payload : Bytes) : HdcServer :=
  let server := server.putTasks sessionId session (session.tasks.clearOwnTasks out.timer channelId)
  let server := { server with freeing := server.freeing ++ [channelId] }
  match payload with
  | [] => server
  | count :: _ =>
    if count = 0 then server
    else server.send sessionId channelId kernelChannelClose.code [count - 1]

/-- `DispatchPassthroughTask`: the session is the one that the channel is bound to. -/
def dispatchPassthroughTask (server : HdcServer) (out : Outside) (channelId : UInt32)
    (channel : HChannel) (command : UInt16) : Bool × HdcServer :=
  match server.mapSession channel.targetSessionId with
  | none => (false, server)
  | some session =>
    let (ret, tasks) := session.tasks.dispatchTaskData .host out.answer channelId command
    (ret, server.putTasks channel.targetSessionId session tasks)

/-- The commands that go back to a client that does the transfer itself. -/
def clientTransfer (command : UInt16) : Bool :=
  match ofCode command with
  | some .fileInit | some .fileCheck | some .fileBegin | some .fileData | some .fileFinish
  | some .fileMode | some .dirMode | some .appInit | some .appCheck | some .appBegin
  | some .appData | some .appFinish => true
  | _ => false

/-- `DispatchChannelCommand`. -/
def dispatchChannelCommand (server : HdcServer) (out : Outside) (sessionId : UInt32)
    (session : HSession) (channelId : UInt32) (channel : HChannel) (command : UInt16)
    (payload : Bytes) : Bool × HdcServer :=
  if command = kernelEchoRaw.code then (true, server.echoClientRaw out channelId payload)
  else if command = kernelEcho.code then
    (true, server.handleKernelEcho out channelId payload)
  else if command = kernelChannelClose.code then
    (true, server.handleChannelClose out sessionId session channelId payload)
  else if command = forwardSuccess.code then
    (true, server.handleForwardSuccess out sessionId session channelId payload)
  else if clientTransfer command ∧ channel.fromClient then
    (true, server.sendCommandToClient out channelId command payload)
  else
    server.dispatchPassthroughTask out channelId channel command

/-- `FetchCommand`, for a session that is there. The handshake and the heartbeat work on
the session only. -/
def fetchCommand (server : HdcServer) (out : Outside) (sessionId channelId : UInt32)
    (command : UInt16) (payload : Bytes) : Bool × HdcServer :=
  match server.mapSession sessionId with
  | none => (false, server)
  | some session =>
    if command = kernelHandshake.code then (out.serverSessionHandshake, server)
    else if command = heartbeatMsg.code then (true, server)
    else
      match server.mapChannel channelId with
      | none => (true, server.send sessionId channelId kernelChannelClose.code [0])
      | some channel =>
        if channel.isDead then
          (true, server.send sessionId channelId kernelChannelClose.code [0])
        else if !server.checkHostCommandPermission channelId channel sessionId command payload then
          (true, server)
        else
          server.dispatchChannelCommand out sessionId session channelId channel command payload

/-! ### A command of a client -/

/-- The first `remote ` of a command line is taken out. -/
def eraseRemote : Bytes → Option Bytes
  | [] => none
  | byte :: text =>
    if str "remote " <+: byte :: text then some ((byte :: text).drop 7)
    else (eraseRemote text).map (byte :: ·)

/-- `HandleRemote`: a client with the argument `remote` does the transfer itself. -/
def handleRemote (channel : HChannel) (parameters : Bytes) : HChannel × Bytes :=
  let argv := (Base.splitCommandToArgs parameters).getD []
  let channel := { channel with fromClient := channel.fromClient || str "remote" ∈ argv }
  (channel, if channel.fromClient then (eraseRemote parameters).getD parameters else parameters)

/-- The words with which a command begins that is done on the host. -/
def localPrefix (cmdFlag : UInt16) : Bytes :=
  match ofCode cmdFlag with
  | some .fileInit => str "send "
  | some .forwardInit => str "fport "
  | some .appInit => str "install "
  | some .appUninstall => str "uninstall "
  | some .unityBugreportInit => str "bugreport "
  | some .appSideload => str "sideload "
  | some .flashdUpdateInit => str "update "
  | some .flashdFlashInit => str "flash "
  | _ => []

/-- `TaskCommand`. A device is reached through the session of the channel. -/
def taskCommand (server : HdcServer) (out : Outside) (channelId : UInt32) (channel : HChannel)
    (cmdFlag : UInt16) (parameters : Bytes) : Bool × HdcServer :=
  let (channel, parameters) :=
    if cmdFlag = fileInit.code ∨ cmdFlag = appInit.code then
      handleRemote channel parameters
    else (channel, parameters)
  let server := { server with
    mapChannel := Function.update server.mapChannel channelId (some channel)
    hostReceivePermits :=
      if cmdFlag = fileInit.code ∨ cmdFlag = forwardInit.code then
        (server.hostReceivePermits.registerHostPermit channelId channel parameters).2
      else server.hostReceivePermits }
  let rest := parameters.drop (localPrefix cmdFlag).length
  if localPrefix cmdFlag <+: parameters then
    match server.mapSession channel.targetSessionId with
    | none => (false, server)
    | some session =>
      if session.isDead then (false, server)
      else if (cmdFlag = fileInit.code ∨ cmdFlag = appInit.code) ∧
          channel.fromClient then
        (false, server.sendChannel out channelId (some cmdFlag) rest)
      else
        (true, server.putTasks channel.targetSessionId session
          (session.tasks.dispatchTaskData .host out.answer channelId cmdFlag).2)
  else
    (true, server.send channel.targetSessionId channelId cmdFlag rest)

end HdcServer

end Hdc.Host
