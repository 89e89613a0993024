import Hdc.SerialStruct

/-!
What a file transfer says about itself (`transfer.h`): the configuration that the
sending side puts in `CMD_FILE_CHECK`, the mode of a file or directory, and the head of
a piece of data.
-/

namespace Hdc.Transfer

open SerialStruct

def compressNone : UInt8 := 0
def compressLz4 : UInt8 := 1

/-- The payload of `AddFeatures`: eight bytes of flags. -/
def addFeatures (isStableBuf : Bool) : Bytes :=
  (if isStableBuf then 4 else 5) :: List.replicate 7 0

/-- `TransferConfig`. -/
structure TransferConfig where
  fileSize : UInt64
  atime : UInt64
  mtime : UInt64
  options : Bytes
  path : Bytes
  optionalName : Bytes
  updateIfNew : Bool
  compressType : UInt8
  holdTimestamp : Bool
  functionName : Bytes
  clientCwd : Bytes
  reserve1 : Bytes
  reserve2 : Bytes
deriving DecidableEq, Repr

/-- The descriptor of `TransferConfig`. -/
def transferConfigFields : List (FieldImpl TransferConfig) :=
  [{ tag := 1, codec := uint64Serializer, get := (·.fileSize),
     set := fun config value => { config with fileSize := value } },
   { tag := 2, codec := uint64Serializer, get := (·.atime),
     set := fun config value => { config with atime := value } },
   { tag := 3, codec := uint64Serializer, get := (·.mtime),
     set := fun config value => { config with mtime := value } },
   { tag := 4, codec := stringSerializer, get := (·.options),
     set := fun config value => { config with options := value } },
   { tag := 5, codec := stringSerializer, get := (·.path),
     set := fun config value => { config with path := value } },
   { tag := 6, codec := stringSerializer, get := (·.optionalName),
     set := fun config value => { config with optionalName := value } },
   { tag := 7, codec := boolSerializer, get := (·.updateIfNew),
     set := fun config value => { config with updateIfNew := value } },
   { tag := 8, codec := uint8Serializer, get := (·.compressType),
     set := fun config value => { config with compressType := value } },
   { tag := 9, codec := boolSerializer, get := (·.holdTimestamp),
     set := fun config value => { config with holdTimestamp := value } },
   { tag := 10, codec := stringSerializer, get := (·.functionName),
     set := fun config value => { config with functionName := value } },
   { tag := 11, codec := stringSerializer, get := (·.clientCwd),
     set := fun config value => { config with clientCwd := value } },
   { tag := 12, codec := stringSerializer, get := (·.reserve1),
     set := fun config value => { config with reserve1 := value } },
   { tag := 13, codec := stringSerializer, get := (·.reserve2),
     set := fun config value => { config with reserve2 := value } }]

/-- A configuration before it is parsed. The source leaves the numbers of a new one
uninitialised; a peer that omits them could as well have sent any value. -/
def TransferConfig.blank : TransferConfig :=
  ⟨0, 0, 0, [], [], [], false, 0, false, [], [], [], []⟩

/-- `FileMode`. -/
structure FileMode where
  perm : UInt64
  uId : UInt64
  gId : UInt64
  context : Bytes
  fullName : Bytes
deriving DecidableEq, Repr

/-- The descriptor of `FileMode`. -/
def fileModeFields : List (FieldImpl FileMode) :=
  [{ tag := 1, codec := uint64Serializer, get := (·.perm),
     set := fun mode value => { mode with perm := value } },
   { tag := 2, codec := uint64Serializer, get := (·.uId),
     set := fun mode value => { mode with uId := value } },
   { tag := 3, codec := uint64Serializer, get := (·.gId),
     set := fun mode value => { mode with gId := value } },
   { tag := 4, codec := stringSerializer, get := (·.context),
     set := fun mode value => { mode with context := value } },
   { tag := 5, codec := stringSerializer, get := (·.fullName),
     set := fun mode value => { mode with fullName := value } }]

/-- A mode before it is parsed; as with `TransferConfig.blank`, the numbers are
uninitialised in the source. -/
def FileMode.blank : FileMode := ⟨0, 0, 0, [], []⟩

/-- `TransferPayload`: the head of a piece of a file. -/
structure TransferPayload where
  index : UInt64
  compressType : UInt8
  compressSize : UInt32
  uncompressSize : UInt32
deriving DecidableEq, Repr

/-- The descriptor of `TransferPayload`. -/
def transferPayloadFields : List (FieldImpl TransferPayload) :=
  [{ tag := 1, codec := uint64Serializer, get := (·.index),
     set := fun payload value => { payload with index := value } },
   { tag := 2, codec := uint8Serializer, get := (·.compressType),
     set := fun payload value => { payload with compressType := value } },
   { tag := 3, codec := uint32Serializer, get := (·.compressSize),
     set := fun payload value => { payload with compressSize := value } },
   { tag := 4, codec := uint32Serializer, get := (·.uncompressSize),
     set := fun payload value => { payload with uncompressSize := value } }]

end Hdc.Transfer
