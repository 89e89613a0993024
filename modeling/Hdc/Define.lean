import Mathlib.Data.List.Basic

/-!
Constants and enumerations shared by the host and the device side.

* `Bytes` stands for a C++ byte buffer and for `std::string`, which is one;
* `HdcCommand` is the command enumeration. On the wire a command is a 16-bit
  number, and a peer may send any of them, so the functions that switch on a
  command take the number and go through `HdcCommand.ofCode`.
-/

namespace Hdc

/-- A byte buffer; also a `std::string`. -/
abbrev Bytes := List UInt8

/-- One name for this proof in every definition that looks for a text in a list. -/
instance : LawfulBEq Bytes := inferInstance

/-- The bytes of a string literal of the source (all of them are ASCII). -/
def str (text : String) : Bytes := text.toList.map fun c => UInt8.ofNat c.toNat

/-! ### Sizes -/

def maxSizeIobuf : Nat := 511 * 1024
def maxSizeIobufStable : Nat := 60 * 1024
def hdcBufMaxBytes : Nat := 2147483647

/-! ### Return codes -/

namespace RetErrCode

def retSuccess : Int := 0
def errGeneric : Int := -1
def errBufSize : Int := -10000
def errBufAlloc : Int := -9999
def errBufOverflow : Int := -9998
def errBufCheck : Int := -9997
def errBufCopy : Int := -9995
def errApiFail : Int := -13000
def errIoFail : Int := -14000
def errIoSoftReset : Int := -13998
def errSessionNofound : Int := -15000
def errSessionDead : Int := -14998

end RetErrCode

/-! ### Commands -/

/-- The commands a frame can carry. -/
inductive HdcCommand where
  | kernelHelp
  | kernelHandshake
  | kernelChannelClose
  | kernelTargetDiscover
  | kernelTargetList
  | kernelTargetAny
  | kernelTargetConnect
  | kernelTargetDisconnect
  | kernelEcho
  | kernelEchoRaw
  | kernelEnableKeepalive
  | kernelWakeupSlavetask
  | checkServer
  | checkDevice
  | waitFor
  | serverKill
  | serviceStart
  | kernelTargetReconnect
  | sslHandshake
  | unityCommandHead
  | unityExecute
  | unityRemount
  | unityReboot
  | unityRunmode
  | unityHilog
  | unityRootrun
  | jdwpList
  | jdwpTrack
  | unityCommandTail
  | unityBugreportInit
  | unityBugreportData
  | unityExecuteEx
  | shellInit
  | shellData
  | forwardInit
  | forwardCheck
  | forwardCheckResult
  | forwardActiveSlave
  | forwardActiveMaster
  | forwardData
  | forwardFreeContext
  | forwardList
  | forwardRemove
  | forwardSuccess
  | fileInit
  | fileCheck
  | fileBegin
  | fileData
  | fileFinish
  | appSideload
  | fileMode
  | dirMode
  | appInit
  | appCheck
  | appBegin
  | appData
  | appFinish
  | appUninstall
  | flashdUpdateInit
  | flashdFlashInit
  | flashdCheck
  | flashdBegin
  | flashdData
  | flashdFinish
  | flashdErase
  | flashdFormat
  | flashdProgress
  | heartbeatMsg
  | spawnSub
deriving DecidableEq, Repr

namespace HdcCommand

/-- The number of a command on the wire. -/
def code : HdcCommand → UInt16
  | kernelHelp => 0
  | kernelHandshake => 1
  | kernelChannelClose => 2
  | kernelTargetDiscover => 4
  | kernelTargetList => 5
  | kernelTargetAny => 6
  | kernelTargetConnect => 7
  | kernelTargetDisconnect => 8
  | kernelEcho => 9
  | kernelEchoRaw => 10
  | kernelEnableKeepalive => 11
  | kernelWakeupSlavetask => 12
  | checkServer => 13
  | checkDevice => 14
  | waitFor => 15
  | serverKill => 16
  | serviceStart => 17
  | kernelTargetReconnect => 18
  | sslHandshake => 20
  | unityCommandHead => 1000
  | unityExecute => 1001
  | unityRemount => 1002
  | unityReboot => 1003
  | unityRunmode => 1004
  | unityHilog => 1005
  | unityRootrun => 1007
  | jdwpList => 1008
  | jdwpTrack => 1009
  | unityCommandTail => 1010
  | unityBugreportInit => 1011
  | unityBugreportData => 1012
  | unityExecuteEx => 1200
  | shellInit => 2000
  | shellData => 2001
  | forwardInit => 2500
  | forwardCheck => 2501
  | forwardCheckResult => 2502
  | forwardActiveSlave => 2503
  | forwardActiveMaster => 2504
  | forwardData => 2505
  | forwardFreeContext => 2506
  | forwardList => 2507
  | forwardRemove => 2508
  | forwardSuccess => 2509
  | fileInit => 3000
  | fileCheck => 3001
  | fileBegin => 3002
  | fileData => 3003
  | fileFinish => 3004
  | appSideload => 3005
  | fileMode => 3006
  | dirMode => 3007
  | appInit => 3500
  | appCheck => 3501
  | appBegin => 3502
  | appData => 3503
  | appFinish => 3504
  | appUninstall => 3505
  | flashdUpdateInit => 4000
  | flashdFlashInit => 4001
  | flashdCheck => 4002
  | flashdBegin => 4003
  | flashdData => 4004
  | flashdFinish => 4005
  | flashdErase => 4006
  | flashdFormat => 4007
  | flashdProgress => 4008
  | heartbeatMsg => 5000
  | spawnSub => 6000

/-- The command a number names, if it names one. -/
def ofCode (number : UInt16) : Option HdcCommand :=
  match number.toNat with
  | 0 => some kernelHelp
  | 1 => some kernelHandshake
  | 2 => some kernelChannelClose
  | 4 => some kernelTargetDiscover
  | 5 => some kernelTargetList
  | 6 => some kernelTargetAny
  | 7 => some kernelTargetConnect
  | 8 => some kernelTargetDisconnect
  | 9 => some kernelEcho
  | 10 => some kernelEchoRaw
  | 11 => some kernelEnableKeepalive
  | 12 => some kernelWakeupSlavetask
  | 13 => some checkServer
  | 14 => some checkDevice
  | 15 => some waitFor
  | 16 => some serverKill
  | 17 => some serviceStart
  | 18 => some kernelTargetReconnect
  | 20 => some sslHandshake
  | 1000 => some unityCommandHead
  | 1001 => some unityExecute
  | 1002 => some unityRemount
  | 1003 => some unityReboot
  | 1004 => some unityRunmode
  | 1005 => some unityHilog
  | 1007 => some unityRootrun
  | 1008 => some jdwpList
  | 1009 => some jdwpTrack
  | 1010 => some unityCommandTail
  | 1011 => some unityBugreportInit
  | 1012 => some unityBugreportData
  | 1200 => some unityExecuteEx
  | 2000 => some shellInit
  | 2001 => some shellData
  | 2500 => some forwardInit
  | 2501 => some forwardCheck
  | 2502 => some forwardCheckResult
  | 2503 => some forwardActiveSlave
  | 2504 => some forwardActiveMaster
  | 2505 => some forwardData
  | 2506 => some forwardFreeContext
  | 2507 => some forwardList
  | 2508 => some forwardRemove
  | 2509 => some forwardSuccess
  | 3000 => some fileInit
  | 3001 => some fileCheck
  | 3002 => some fileBegin
  | 3003 => some fileData
  | 3004 => some fileFinish
  | 3005 => some appSideload
  | 3006 => some fileMode
  | 3007 => some dirMode
  | 3500 => some appInit
  | 3501 => some appCheck
  | 3502 => some appBegin
  | 3503 => some appData
  | 3504 => some appFinish
  | 3505 => some appUninstall
  | 4000 => some flashdUpdateInit
  | 4001 => some flashdFlashInit
  | 4002 => some flashdCheck
  | 4003 => some flashdBegin
  | 4004 => some flashdData
  | 4005 => some flashdFinish
  | 4006 => some flashdErase
  | 4007 => some flashdFormat
  | 4008 => some flashdProgress
  | 5000 => some heartbeatMsg
  | 6000 => some spawnSub
  | _ => none

@[simp] theorem ofCode_code (command : HdcCommand) : ofCode command.code = some command := by
  cases command <;> rfl

theorem code_of_ofCode {number : UInt16} {command : HdcCommand}
    (named : ofCode number = some command) : command.code = number := by
  unfold ofCode at named
  split at named <;>
    first
    | (obtain rfl := Option.some.inj named; apply UInt16.toNat_inj.mp; symm; assumption)
    | exact absurd named (by simp)

end HdcCommand

end Hdc
