import Hdc.Base
import Hdc.Transfer.Config

/-!
What a client allows a device to ask of the host (`server_for_client.cpp`).

`file recv` lets the device send a file to a path of the host, `rport` lets it
connect to an endpoint of the host. The server notes the path or the endpoint
under the client's channel (`RegisterHostPermit`), and compares it when the device
asks (`CheckHostReceivePermit`, `CheckForwardEndpoint`). A note is a session and a
text, whatever command it was made for.
-/

namespace Hdc.Host

open SerialStruct Transfer

/-- `HdcChannel`: a client's connection, and the session of the device it is for. -/
structure HChannel where
  targetSessionId : UInt32
  isDead : Bool
  fromClient : Bool
deriving DecidableEq, Repr

/-- `HostReceivePermit`. -/
structure HostReceivePermit where
  sessionId : UInt32
  target : Bytes
deriving DecidableEq, Repr

/-- `hostReceivePermits`, by channel id. -/
abbrev Permits := UInt32 → Option HostReceivePermit

/-! ### Reading the command -/

/-- `ResolveHostReceiveTargetPath`. -/
def resolveHostReceiveTargetPath (cwd path : Bytes) : Option Bytes :=
  if path = [] then none
  else some (if Base.isAbsolutePath path then path else cwd ++ path)

/-- The loop of `IsHostReceiveChildPath`, with the component that is being read. -/
def childPathFrom : Bytes → Bytes → Bool
  | component, [] => component ≠ str ".."
  | component, byte :: path =>
    if byte = 47 ∨ byte = 92 then component ≠ str ".." && childPathFrom [] path
    else if byte = 0 then false
    else childPathFrom (component ++ [byte]) path

/-- `IsHostReceiveChildPath`. -/
def isHostReceiveChildPath (path : Bytes) : Bool := childPathFrom [] path

/-- The loop of `ParseHostReceiveArguments`: the working directory, the last path and
the number of paths. -/
def parseReceiveFrom : Bytes → Bytes → Nat → List Bytes → Option (Bytes × Bytes × Nat)
  | cwd, lastPath, pathCount, [] => if pathCount = 0 then none else some (cwd, lastPath, pathCount)
  | cwd, lastPath, pathCount, [arg] =>
    if arg = str "-cwd" then none
    else if arg ∈ [str "-z", str "-sync", str "-a", str "-m"] then
      if pathCount = 0 then none else some (cwd, lastPath, pathCount)
    else if arg = str "-b" then none
    else if arg.head? = some 45 then none
    else some (cwd, arg, pathCount + 1)
  | cwd, lastPath, pathCount, arg :: next :: args =>
    if arg = str "-cwd" then parseReceiveFrom next lastPath pathCount args
    else if arg ∈ [str "-z", str "-sync", str "-a", str "-m"] then
      parseReceiveFrom cwd lastPath pathCount (next :: args)
    else if arg = str "-b" then parseReceiveFrom cwd lastPath pathCount args
    else if arg.head? = some 45 then none
    else parseReceiveFrom cwd arg (pathCount + 1) (next :: args)

/-- `ParseHostReceiveArguments`, of the arguments behind the first. -/
def parseHostReceiveArguments (args : List Bytes) : Option (Bytes × Bytes × Nat) :=
  parseReceiveFrom [] [] 0 args

/-- The path that a `recv` names on the host. -/
def receiveTarget (args : List Bytes) : Option Bytes :=
  match parseHostReceiveArguments args with
  | none => none
  | some (cwd, lastPath, pathCount) =>
    resolveHostReceiveTargetPath cwd (if pathCount = 1 then str "." else lastPath)

/-- The endpoint that a `rport` or `fport` names last: its second node. -/
def forwardTarget (args : List Bytes) : Option Bytes := args[1]?

/-! ### The permits -/

namespace Permits

/-- `RemoveHostReceivePermit`. -/
def removeHostReceivePermit (permits : Permits) (channelId : UInt32) : Permits :=
  Function.update permits channelId none

/-- `RemoveHostReceivePermitsBySession`. -/
def removeHostReceivePermitsBySession (permits : Permits) (sessionId : UInt32) : Permits :=
  fun channelId => (permits channelId).filter (·.sessionId ≠ sessionId)

/-- `StoreHostPermit`: only where there is none. -/
def storeHostPermit (permits : Permits) (channelId : UInt32) (permit : HostReceivePermit) :
    Bool × Permits :=
  match permits channelId with
  | some _ => (false, permits)
  | none => (true, Function.update permits channelId (some permit))

/-- What `RegisterRecvPermit` and `RegisterForwardPermit` do with the text they found. -/
def storeTarget (permits : Permits) (channelId : UInt32) (channel : HChannel) :
    Option Bytes → Bool × Permits
  | none => (false, permits)
  | some target => permits.storeHostPermit channelId ⟨channel.targetSessionId, target⟩

/-- `RegisterRecvPermit`. -/
def registerRecvPermit (permits : Permits) (channelId : UInt32) (channel : HChannel)
    (args : List Bytes) : Bool × Permits :=
  permits.storeTarget channelId channel (receiveTarget args)

/-- `RegisterForwardPermit`. -/
def registerForwardPermit (permits : Permits) (channelId : UInt32) (channel : HChannel)
    (args : List Bytes) : Bool × Permits :=
  permits.storeTarget channelId channel (forwardTarget args)

/-- `RegisterHostPermit`. A command that leaves no permit takes one away that was
there. -/
def registerHostPermit (permits : Permits) (channelId : UInt32) (channel : HChannel)
    (parameters : Bytes) : Bool × Permits :=
  let (valid, permits) :=
    match Base.splitCommandToArgs parameters with
    | none | some [] => (false, permits)
    | some (command :: args) =>
      if command = str "recv" then permits.registerRecvPermit channelId channel args
      else if command = str "rport" ∨ command = str "fport" then
        permits.registerForwardPermit channelId channel args
      else (false, permits)
  (valid, if valid then permits else permits.removeHostReceivePermit channelId)

/-! ### The checks -/

/-- `MatchHostPermit`. -/
def matchHostPermit (permits : Permits) (channelId : UInt32) (channel : HChannel)
    (sessionId : UInt32) : Option HostReceivePermit :=
  (permits channelId).filter fun permit =>
    permit.sessionId = sessionId && channel.targetSessionId = sessionId

/-- The path that a configuration asks for. -/
def requestedPath (payload : Bytes) : Option Bytes :=
  let config := parseFromString transferConfigFields .blank payload
  if isHostReceiveChildPath config.optionalName then
    resolveHostReceiveTargetPath config.clientCwd config.path
  else none

/-- `CheckHostReceivePermit`. -/
def checkHostReceivePermit (permits : Permits) (channelId : UInt32) (channel : HChannel)
    (sessionId : UInt32) (payload : Bytes) : Bool :=
  match permits.matchHostPermit channelId channel sessionId with
  | none => false
  | some permit =>
    match requestedPath payload with
    | none => false
    | some targetPath => targetPath = permit.target

/-- The endpoint that a frame asks for: the text behind the id and the eight bytes of
parameters, which has to end. -/
def requestedEndpoint (payload : Bytes) : Option Bytes :=
  if payload.length < 4 + 8 + 1 then none
  else
    let endpointInPayload := payload.drop (4 + 8)
    let receiveEndpoint := endpointInPayload.takeWhile (· ≠ 0)
    if receiveEndpoint.length = endpointInPayload.length then none else some receiveEndpoint

/-- `CheckForwardEndpoint`. -/
def checkForwardEndpoint (permits : Permits) (channelId : UInt32) (channel : HChannel)
    (sessionId : UInt32) (payload : Bytes) : Bool :=
  match requestedEndpoint payload with
  | none => false
  | some receiveEndpoint =>
    match permits.matchHostPermit channelId channel sessionId with
    | none => false
    | some permit => permit.target = receiveEndpoint

end Permits

end Hdc.Host
