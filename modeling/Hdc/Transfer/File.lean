import Hdc.Transfer.Outside

/-!
The file transfer task: `HdcFile` (`file.cpp`) with the parts of `HdcTransferBase` (`transfer.cpp`)
that handle paths.

One side, the master, reads: `CMD_FILE_INIT` gives it a command line, it opens the file or the first
of the files below a directory, and tells the other side what comes in a `CMD_FILE_CHECK`. The other
side, the slave, writes: `SlaveCheck` finds the path, creates directories on the way and opens the
file. `CMD_FILE_FINISH` takes the master to the next file of a directory.

The data, the statistics and the labels of SELinux are not part of this module.
-/

namespace Hdc.Transfer

open Interaction SerialStruct

/-- `CtxFile`, as far as paths depend on it. `dirModeMap` keeps the mode that was
inserted first for a name. -/
structure CtxFile where
  isDir : Bool := false
  targetDirNotExist : Bool := false
  localName : Bytes := []
  localPath : Bytes := []
  remotePath : Bytes := []
  localDirName : Bytes := []
  fileModeSync : Bool := false
  master : Bool := false
  taskQueue : List Bytes := []
  transferConfig : TransferConfig := .blank
  fileMode : FileMode := .blank
  dirMode : List FileMode := []
  dirModeMap : List (Bytes × FileMode) := []
  sandboxMode : Bool := false
  bundleName : Bytes := []
  inputLocalPath : Bytes := []
deriving DecidableEq, Repr

/-- `path + GetPathSep() + name`. -/
def child (path name : Bytes) : Bytes := path ++ 47 :: name

/-! ### Asking the file system (`base.cpp`) -/

def sIfmt : UInt32 := 0o170000
def sIfdir : UInt32 := 0o040000
def sIfreg : UInt32 := 0o100000

/-- `mode & S_IFDIR`. The bit is also set for block devices and sockets. -/
def hasDirBit (mode : UInt32) : Bool := mode &&& sIfdir ≠ 0

/-- `CheckDirectoryOrPath` for a file: whether it can be used, and whether it is a
directory instead. -/
def checkDirectoryOrPath (localPath : Bytes) (readWrite : Bool) : Program (Bool × Bool) := do
  match ← lstat localPath with
  | none => pure (false, false)
  | some mode =>
    if hasDirBit mode then pure (false, true)
    else if mode &&& sIfreg ≠ 0 then do
      let allowed ← access localPath (if readWrite then .readable else .writable)
      pure (allowed, false)
    else pure (false, false)

/-- `TryCreateDirectory`, with the error where it fails. -/
def tryCreateDirectory (path : Bytes) : Program (Option Bytes) := do
  match ← lstat path with
  | none =>
    match ← mkdir path with
    | none => pure none
    | some reason =>
      pure (some (str "[E005005] Error create directory: " ++ reason ++ str ", path:" ++
        maskString path))
  | some mode =>
    if mode &&& sIfmt = sIfdir then pure none
    else pure (some (str "File exists, path:" ++ maskString path))

/-! ### The sandbox of a bundle -/

def sandboxRootDir : Bytes := str "/mnt/debug/100/debug_hap/"

/-- `IsValidBundlePath`. -/
def isValidBundlePath (bundleName : Bytes) : Program Bool :=
  if checkBundleName bundleName then access (sandboxRootDir ++ bundleName ++ [47]) .exists
  else pure false

/-- The loop that takes separators off the end of a path, unless a dot stands before
them; on the path from its end. -/
def popSeps : Bytes → Bytes
  | [] => []
  | byte :: rest => if byte = 47 ∧ rest.head? ≠ some 46 then popSeps rest else byte :: rest

/-- `IsPathInsideSandbox`. -/
def isPathInsideSandbox (path appDir : Bytes) : Bool :=
  if path.length < appDir.length then false
  else
    let size := appDir.length + 1
    (cStr (path ++ [47])).take size = (cStr (appDir ++ [47])).take size

/-- The path that `CheckSandboxSubPath` compares with the directory of the bundle. -/
def sandboxSubPath (bundleName inputLocalPath appDir : Bytes) : Bytes :=
  let fullPath := (popSeps (child (sandboxRootDir ++ bundleName) inputLocalPath).reverse).reverse
  let resolvedPath := pathSimplify fullPath
  if resolvedPath.length > appDir.length + 1 then getPathWithoutFilename resolvedPath
  else resolvedPath

/-- `CheckSandboxSubPath`, with the resolved path where it succeeds. -/
def checkSandboxSubPath (ctx : CtxFile) : Program (Option Bytes) := do
  let appDir ← canonicalizeSpecPath (sandboxRootDir ++ ctx.bundleName)
  if !checkPathTraversal ctx.inputLocalPath then
    logMsg (str "[E005102] Remote path: " ++ cStr ctx.inputLocalPath ++
      str " is invalid, path traversal detected.")
    pure none
  else
    let resolvedPath := sandboxSubPath ctx.bundleName ctx.inputLocalPath appDir
    if !isPathInsideSandbox resolvedPath appDir then
      logMsg (str "[E005102] Remote path: " ++ cStr ctx.inputLocalPath ++
        str " is invalid, no such file/directory or it's out of the application directory.")
      pure none
    else
      pure (some resolvedPath)

/-- `RemoveSandboxRootPath`. -/
def removeSandboxRootPath (serverOrDaemon : Bool) (srcStr bundleName : Bytes) : Program Bytes := do
  if serverOrDaemon then pure srcStr
  else if !(← isValidBundlePath bundleName) then pure srcStr
  else
    let fullPath := sandboxRootDir ++ bundleName ++ [47]
    if fullPath.isPrefixOf srcStr then pure (srcStr.drop fullPath.length) else pure srcStr

/-! ### The blacklist -/

def blacklistFiles : List Bytes :=
  [str "/data/service/el1/public/hdc", str "/data/service/el2/public/hdc_service"]

/-- `containsBlacklistedSubstring`. -/
def containsBlacklistedSubstring (input : Bytes) : Bool :=
  blacklistFiles.any fun blacklisted => decide (blacklisted <:+: pathSimplify input)

/-- `CheckBlacklistPath`. -/
def checkBlacklistPath (ctx : CtxFile) : Program (Bool × CtxFile) := do
  if containsBlacklistedSubstring ctx.localPath then
    logMsg (str "[E005008] Operation not allowed")
    pure (false, ctx)
  else
    pure (true, ctx)

/-! ### The slave: directories on the way (`transfer.cpp`) -/

/-- The loop of `CheckLocalPath`: every layer below `makedirPath` is created. -/
def createLayers : Bytes → List Bytes → Program (Option Bytes)
  | _, [] => pure none
  | makedirPath, dir :: dirs =>
    if dir = str "." then createLayers makedirPath dirs
    else do
      match ← tryCreateDirectory (child makedirPath dir) with
      | some errStr => pure (some errStr)
      | none => createLayers (child makedirPath dir) dirs

/-- Whether a name shows that a directory is transferred. -/
def isDirectoryMode (optName : Bytes) : Bool := 47 ∈ optName || 92 ∈ optName

/-- `CheckLocalPath`. -/
def checkLocalPath (ctx : CtxFile) : Program (Option Bytes × CtxFile) := do
  if !isDirectoryMode ctx.transferConfig.optionalName then pure (none, ctx)
  else
    let ctx := { ctx with isDir := true }
    match ← lstat ctx.localPath with
    | none =>
      let makedirPath := if Base.isAbsolutePath ctx.localPath then [] else str "."
      match ← createLayers makedirPath (Base.splitString ctx.localPath 47) with
      | some errStr => pure (some errStr, ctx)
      -- the first layer of the names that follow is dropped from now on
      | none => pure (none, { ctx with targetDirNotExist := true })
    | some mode =>
      if !hasDirBit mode then pure (some (str "Not a directory, path:" ++ ctx.localPath), ctx)
      else pure (none, ctx)

/-- The name without its first layer. -/
def dropFirstLayer (optName : Bytes) : Bytes :=
  if 47 ∈ optName then (optName.dropWhile (· ≠ 47)).drop 1
  else if 92 ∈ optName then (optName.dropWhile (· ≠ 92)).drop 1
  else optName

/-- The layers of a name, where it has any. -/
def optNameLayers (optName : Bytes) : Option (List Bytes) :=
  if 47 ∈ optName then some (Base.splitString optName 47)
  else if 92 ∈ optName then some (Base.splitString optName 92)
  else none

/-- The mode of a directory that was just entered, if one was sent for it. -/
def syncDirMode (ctx : CtxFile) (localPathBackup : Bytes) : Program Unit := do
  let resolvedPath ← canonicalizeSpecPath ctx.localPath
  if localPathBackup.isPrefixOf resolvedPath then
    match resolvedPath.drop localPathBackup.length with
    -- `at(0)` of an empty text throws
    | [] => terminate
    | byte :: rest =>
      let shortPath := if byte = 47 then rest else byte :: rest
      match ctx.dirModeMap.lookup shortPath with
      | none => pure ()
      | some mode => do
        chmod ctx.localPath mode.perm
        chown ctx.localPath mode.uId mode.gId
  else pure ()

/-- The loop of `CheckFilename`: every layer is entered, and created on the way. -/
def enterLayers (localPathBackup : Bytes) : CtxFile → List Bytes → Program (Option Bytes × CtxFile)
  | ctx, [] => pure (none, ctx)
  | ctx, s :: layers => do
    let ctx := { ctx with localPath := child ctx.localPath s }
    match ← tryCreateDirectory ctx.localPath with
    | some errStr => pure (some errStr, ctx)
    | none =>
      if ctx.fileModeSync then
        syncDirMode ctx localPathBackup
        enterLayers localPathBackup ctx layers
      else
        enterLayers localPathBackup ctx layers

/-- `CtxFile` with another name for the file. -/
def CtxFile.setOptionalName (ctx : CtxFile) (optName : Bytes) : CtxFile :=
  { ctx with transferConfig := { ctx.transferConfig with optionalName := optName } }

/-- `CheckFilename`. The last layer of a name of separators alone is undefined. -/
def checkFilename (ctx : CtxFile) : Program (Option Bytes × CtxFile) :=
  let optName := ctx.transferConfig.optionalName
  let optName := if ctx.targetDirNotExist then dropFirstLayer optName else optName
  let ctx := ctx.setOptionalName optName
  match optNameLayers optName with
  | none => pure (none, ctx)
  | some layers =>
    match layers.getLast? with
    | none => terminate
    | some last => enterLayers ctx.localPath (ctx.setOptionalName last) layers.dropLast

/-- `ExtractRelativePath`. -/
def extractRelativePath (cwd path : Bytes) : Bytes :=
  if Base.isAbsolutePath path then path else cwd ++ path

/-- The path as the slave uses it: the host resolves it, the device does not. -/
def slavePath (serverOrDaemon : Bool) (cwd localPath : Bytes) : Bytes :=
  if serverOrDaemon then extractRelativePath cwd localPath else localPath

/-- `SmartSlavePath`: whether the file exists, and its path. -/
def smartSlavePath (serverOrDaemon : Bool) (cwd localPath optName : Bytes) :
    Program (Bool × Bytes) := do
  let localPath := slavePath serverOrDaemon cwd localPath
  let (found, _) ← checkDirectoryOrPath localPath false
  if found then pure (true, localPath)
  else
    match ← lstat localPath with
    | some mode =>
      if hasDirBit mode then pure (false, child localPath optName) else pure (false, localPath)
    | none =>
      if localPath.getLast? = some 47 then pure (false, localPath ++ optName)
      else pure (false, localPath)

/-! ### The slave: `SlaveCheck` (`file.cpp`) -/

/-- `ParseAndValidateOptions`. -/
def parseAndValidateOptions (ctx : CtxFile) (payload : Bytes) : CtxFile :=
  let stat := parseFromString transferConfigFields ctx.transferConfig payload
  { ctx with
    transferConfig := stat, localPath := stat.path, inputLocalPath := stat.path
    master := false, bundleName := stat.reserve1 }

/-- `CheckBundleAndPath`. -/
def checkBundleAndPath (serverOrDaemon : Bool) (ctx : CtxFile) : Program (Bool × CtxFile) := do
  if serverOrDaemon then pure (true, ctx)
  else if ← isValidBundlePath ctx.bundleName then
    let ctx :=
      { ctx with localPath := sandboxRootDir ++ ctx.bundleName ++ 47 :: ctx.inputLocalPath }
    let resolved ← checkSandboxSubPath ctx
    pure (resolved.isSome, ctx)
  else if ctx.bundleName ≠ [] then
    logMsg (str "[E005101] Invalid bundle name: " ++ ctx.bundleName)
    pure (false, ctx)
  else
    pure (true, ctx)

/-- What `CheckLocalPathAndFilename` does with the error of a step. -/
def report (serverOrDaemon : Bool) : Option Bytes × CtxFile → Program (Bool × CtxFile)
  | (none, ctx) => pure (true, ctx)
  | (some errStr, ctx) => do
    let errStr ← removeSandboxRootPath serverOrDaemon errStr ctx.transferConfig.reserve1
    logMsg errStr
    pure (false, ctx)

/-- The check of the path that `CheckFilename` leaves. -/
def checkFinalPath (serverOrDaemon : Bool) (ctx : CtxFile) : Program (Bool × CtxFile) := do
  if !checkPathTraversal ctx.localPath then
    let _ ← removeSandboxRootPath serverOrDaemon [] ctx.transferConfig.reserve1
    logMsg (str "Path traversal not allowed in final path")
    pure (false, ctx)
  else
    pure (true, ctx)

/-- `CheckLocalPathAndFilename`. -/
def checkLocalPathAndFilename (serverOrDaemon : Bool) (ctx : CtxFile) :
    Program (Bool × CtxFile) :=
  (((checkBlacklistPath ctx).andThen
    fun ctx => checkLocalPath ctx >>= report serverOrDaemon).andThen
    fun ctx => checkFilename ctx >>= report serverOrDaemon).andThen
    (checkFinalPath serverOrDaemon)

/-- `HandleFileExistenceAndNewness`. -/
def handleFileExistenceAndNewness (serverOrDaemon : Bool) (ctx : CtxFile) :
    Program (Bool × CtxFile) := do
  let config := ctx.transferConfig
  let (childRet, localPath) ←
    smartSlavePath serverOrDaemon config.clientCwd ctx.localPath (cStr config.optionalName)
  let ctx := { ctx with localPath }
  if childRet && config.updateIfNew then
    match ← stat localPath with
    | none => pure (false, ctx)
    | some found =>
      if found.mtimeSec ≥ config.mtime then
        logMsg (str "Target file is the same date or newer,path: " ++ localPath)
        pure (false, ctx)
      else
        pure (true, ctx)
  else
    pure (true, ctx)

/-- `BeginFileOperations`. -/
def beginFileOperations (ctx : CtxFile) : Program (Bool × CtxFile) := do
  openWrite ctx.localPath
  pure (true, ctx)

/-- `SlaveCheck`. -/
def slaveCheck (serverOrDaemon : Bool) (ctx : CtxFile) (payload : Bytes) :
    Program (Bool × CtxFile) :=
  (((checkBundleAndPath serverOrDaemon (parseAndValidateOptions ctx payload)).andThen
    (checkLocalPathAndFilename serverOrDaemon)).andThen
    (handleFileExistenceAndNewness serverOrDaemon)).andThen
    beginFileOperations

/-! ### The master: the command line (`file.cpp`) -/

/-- The usage that `ParseMasterParameters` shows. -/
def bundleUsage (serverOrDaemon : Bool) : Bytes :=
  if serverOrDaemon then str "Usage: hdc file send [-b bundlename] local remote"
  else str "Usage: hdc file recv [-b bundlename] remote local"

/-- One argument of `ParseMasterParameters`, with those behind it: the error, if any, the
context and `srcArgvIndex`. -/
def parseMasterArg (serverOrDaemon : Bool) (argc : Nat) (ctx : CtxFile) (srcArgvIndex : Nat)
    (arg : Bytes) (rest : List Bytes) : Option Bytes × CtxFile × Nat :=
  let config := ctx.transferConfig
  if arg = str "-z" then
    (none, { ctx with transferConfig := { config with compressType := compressLz4 } },
      srcArgvIndex + 1)
  else if arg = str "-sync" then
    (none, { ctx with transferConfig := { config with updateIfNew := true } }, srcArgvIndex + 1)
  else if arg = str "-a" then
    (none, { ctx with transferConfig := { config with holdTimestamp := true } }, srcArgvIndex + 1)
  else if arg = str "-cwd" ∧ rest ≠ [] then
    (none, { ctx with transferConfig := { config with clientCwd := rest.headD [] } },
      srcArgvIndex + 2)
  else if arg = str "-m" then (none, { ctx with fileModeSync := true }, srcArgvIndex + 1)
  else if arg = str "remote" then (none, ctx, srcArgvIndex + 1)
  else if arg = str "-b" then
    let ctx := { ctx with sandboxMode := true }
    if argc = srcArgvIndex + 1 ∨ rest = [] then
      (some (str "[E005003] The parameter is missing, correct your input by referring below:\n" ++
        bundleUsage serverOrDaemon), ctx, srcArgvIndex)
    else
      let name := rest.headD []
      (none, { ctx with transferConfig := { config with reserve1 := name }, bundleName := name },
        srcArgvIndex + 2)
  else if arg.head? = some 45 then (some (str "Unknown file option: " ++ arg), ctx, srcArgvIndex)
  else (none, ctx, srcArgvIndex)

/-- The loop of `ParseMasterParameters`. The value of an option is looked at once more as
an argument. -/
def parseMasterFrom (serverOrDaemon : Bool) (argc : Nat) :
    CtxFile → Nat → List Bytes → Option Bytes × CtxFile × Nat
  | ctx, srcArgvIndex, [] => (none, ctx, srcArgvIndex)
  | ctx, srcArgvIndex, arg :: rest =>
    match parseMasterArg serverOrDaemon argc ctx srcArgvIndex arg rest with
    | (some error, ctx, srcArgvIndex) => (some error, ctx, srcArgvIndex)
    | (none, ctx, srcArgvIndex) => parseMasterFrom serverOrDaemon argc ctx srcArgvIndex rest

/-- `ValidateAndSetPaths`. -/
def validateAndSetPaths (ctx : CtxFile) (argv : List Bytes) (srcArgvIndex : Nat) :
    Option Bytes × CtxFile :=
  let argc := argv.length
  let last := argv.getD (argc - 1) []
  let penult := argv.getD (argc - 2) []
  if argc = srcArgvIndex then (some (str "There is no local and remote path"), ctx)
  else if ctx.sandboxMode ∧ srcArgvIndex + 1 = argc then
    (none, { ctx with remotePath := str ".", localPath := last, inputLocalPath := last })
  else (none, { ctx with remotePath := last, localPath := penult, inputLocalPath := penult })

/-- `ParseMasterParameters`. -/
def parseMasterParameters (serverOrDaemon : Bool) (ctx : CtxFile) (argv : List Bytes) :
    Option Bytes × CtxFile × Nat :=
  match parseMasterFrom serverOrDaemon argv.length ctx 0 argv with
  | (some error, ctx, srcArgvIndex) => (some error, ctx, srcArgvIndex)
  | (none, ctx, srcArgvIndex) =>
    let (error, ctx) := validateAndSetPaths ctx argv srcArgvIndex
    (error, ctx, srcArgvIndex)

/-- The bundle name of a command line has to be valid. -/
def checkMasterBundle (ctx : CtxFile) : Program (Bool × CtxFile) := do
  let bundleName := ctx.transferConfig.reserve1
  if ctx.sandboxMode ∧ bundleName ≠ [] then
    if ← isValidBundlePath bundleName then pure (true, ctx)
    else
      logMsg (str "[E005101] Invalid bundle name: " ++ bundleName)
      pure (false, ctx)
  else pure (true, ctx)

/-- The path to send: the last argument where there is only one. -/
def takeLastPath (ctx : CtxFile) (argv : List Bytes) (srcArgvIndex : Nat) : CtxFile :=
  if srcArgvIndex + 1 = argv.length then
    { ctx with remotePath := str ".", localPath := argv.getD (argv.length - 1) [] }
  else ctx

/-- The name of the file, and the path without separators at its end. -/
def CtxFile.setLocalName (ctx : CtxFile) : CtxFile :=
  { ctx with
    localName := (getFullFilePath ctx.localPath).1
    localPath := (getFullFilePath ctx.localPath).2 }

/-- The path moves into the sandbox of a valid bundle. -/
def enterMasterSandbox (ctx : CtxFile) : Program (Bool × CtxFile) := do
  if ctx.sandboxMode then
    if ← isValidBundlePath ctx.transferConfig.reserve1 then
      match ← checkSandboxSubPath ctx with
      | some resolvedPath => pure (true, { ctx with localPath := child resolvedPath ctx.localName })
      | none => pure (false, ctx)
    else pure (true, ctx)
  else pure (true, ctx)

/-- `SetMasterParametersOnDaemon`. -/
def setMasterParametersOnDaemon (ctx : CtxFile) (argv : List Bytes) (srcArgvIndex : Nat) :
    Program (Bool × CtxFile) :=
  (checkMasterBundle ctx).andThen fun ctx =>
    enterMasterSandbox (takeLastPath ctx argv srcArgvIndex).setLocalName

/-! ### The master: the files of a directory (`transfer.cpp`) -/

/-- The mode of a directory, if `stat` tells it. -/
def modeOf (currentDirname : Bytes) : Option Stat → List FileMode
  | none => []
  | some found =>
    [{ perm := found.mode.toUInt64, uId := found.uid.toUInt64, gId := found.gid.toUInt64
       context := [], fullName := currentDirname }]

/-- The entries that `GetSubFilesRecursively` comes across: the files, and the modes of
the directories. Links, sockets and block devices share a bit with files. -/
def subFilesFrom (currentDirname : Bytes) : Entries → List Bytes × List FileMode
  | .nil => ([], [])
  | .cons name type scan below rest =>
    let later := subFilesFrom currentDirname rest
    let full := child currentDirname name.bytes
    if name.bytes = str "." ∨ name.bytes = str ".." then later
    else if type &&& 1 = 0 then
      match scan with
      | none => later
      | some found =>
        let inner := subFilesFrom full below
        (inner.1 ++ later.1, modeOf full found ++ inner.2 ++ later.2)
    else (full :: later.1, later.2)

/-- `GetSubFilesRecursively` from the top. -/
def getSubFilesRecursively (path currentDirname : Bytes) :
    Program (List Bytes × List FileMode) := do
  if path = [] then pure ([], [])
  else
    match ← scandir path with
    | none => pure ([], [])
    | some (found, entries) =>
      let inner := subFilesFrom currentDirname entries
      pure (inner.1, modeOf currentDirname found ++ inner.2)

/-- The part of `SetMasterParameters` that looks at the local path. -/
def setTaskQueue (ctx : CtxFile) : Program (Bool × CtxFile) := do
  let ctx := ctx.setLocalName
  let (_, directory) ← checkDirectoryOrPath ctx.localPath true
  if directory then
    let (files, modes) ← getSubFilesRecursively ctx.localPath ctx.localName
    let ctx :=
      { ctx with isDir := true, taskQueue := ctx.taskQueue ++ files, dirMode := ctx.dirMode ++ modes }
    match ctx.taskQueue.getLast? with
    | none =>
      logMsg (str "Operation failed, because the source folder is empty.")
      pure (false, ctx)
    | some last =>
      let localDirName := getPathWithoutFilename ctx.localPath
      pure (true,
        { ctx with
          localDirName, localName := last, localPath := localDirName ++ last
          taskQueue := ctx.taskQueue.dropLast })
  else
    pure (true, ctx)

/-- `SetMasterParameters`. -/
def setMasterParameters (serverOrDaemon : Bool) (ctx : CtxFile) (argv : List Bytes) :
    Program (Bool × CtxFile) := do
  match parseMasterParameters serverOrDaemon ctx argv with
  | (some error, ctx, _) =>
    logMsg error
    pure (false, ctx)
  | (none, ctx, srcArgvIndex) =>
    if serverOrDaemon then
      if srcArgvIndex + 1 = argv.length then
        logMsg (str "There is no remote path")
        pure (false, ctx)
      else
        setTaskQueue
          { ctx with localPath := extractRelativePath ctx.transferConfig.clientCwd ctx.localPath }
    else
      (setMasterParametersOnDaemon ctx argv srcArgvIndex).andThen setTaskQueue

/-- The end of `BeginTransfer`. -/
def openMaster (ctx : CtxFile) : Program (Bool × CtxFile) := do
  openRead ctx.localPath
  pure (true, { ctx with master := true })

/-- `BeginTransfer`. -/
def beginTransfer (serverOrDaemon : Bool) (ctx : CtxFile) (command : Bytes) :
    Program (Bool × CtxFile) := do
  match Base.splitCommandToArgs command with
  | none =>
    logMsg (str "Transfer path split failed")
    pure (false, ctx)
  | some argv =>
    if argv.length < 2 then
      logMsg (str "Transfer path split failed")
      pure (false, ctx)
    else
      ((setMasterParameters serverOrDaemon ctx argv).andThen checkBlacklistPath).andThen openMaster

/-- `TransferNext`, for a queue that is not empty. -/
def transferNext (ctx : CtxFile) : Program CtxFile := do
  let localName := ctx.taskQueue.getLastD []
  let ctx :=
    { ctx with
      localName, localPath := ctx.localDirName ++ localName, taskQueue := ctx.taskQueue.dropLast }
  openRead ctx.localPath
  pure ctx

/-! ### Commands and opened files -/

/-- `TaskFinish`. -/
def taskFinish : Program Unit := sendToAnother .kernelChannelClose [1]

/-- `CMD_FILE_FINISH`: to the next file of a directory, or to the end. -/
def fileFinish (ctx : CtxFile) (payload : Bytes) : Program CtxFile := do
  let flag := payload.headD 0
  if flag ≠ 0 then
    if ctx.isDir ∧ ctx.taskQueue ≠ [] then transferNext ctx
    else do
      sendToAnother .fileFinish [flag - 1]
      pure ctx
  else do
    taskFinish
    pure ctx

/-- The name of a directory in the form that `CheckFilename` looks up. -/
def joinLayers (layers : List Bytes) : Bytes :=
  layers.foldl (fun name s => if name = [] then s else child name s) []

/-- `FileModeSync`. -/
def fileModeSync (ctx : CtxFile) (command : HdcCommand) (payload : Bytes) : Program CtxFile := do
  if ctx.master then
    match ctx.dirMode.getLast? with
    | some mode => do
      sendToAnother .dirMode (serializeToString fileModeFields mode)
      pure { ctx with dirMode := ctx.dirMode.dropLast }
    | none => do
      sendToAnother .fileCheck (serializeToString transferConfigFields ctx.transferConfig)
      pure ctx
  else
    let ctx := { ctx with fileModeSync := true }
    let ctx :=
      if command = .fileMode then
        { ctx with fileMode := parseFromString fileModeFields ctx.fileMode payload }
      else
        let dirMode := parseFromString fileModeFields .blank payload
        let fullName := joinLayers ((optNameLayers dirMode.fullName).getD [dirMode.fullName])
        if (ctx.dirModeMap.lookup fullName).isSome then ctx
        else
          { ctx with dirModeMap := ctx.dirModeMap ++ [(fullName, { dirMode with fullName })] }
    sendToAnother .fileMode []
    pure ctx

/-- `CommandDispatch` of `HdcFile`, for the commands that it handles itself. -/
def commandDispatch (serverOrDaemon : Bool) (ctx : CtxFile) (command : HdcCommand)
    (payload : Bytes) : Program (Bool × CtxFile) :=
  match command with
  | .fileInit => beginTransfer serverOrDaemon ctx payload
  | .fileCheck => slaveCheck serverOrDaemon ctx payload
  | .fileMode | .dirMode => do pure (true, ← fileModeSync ctx command payload)
  | .fileFinish => do pure (true, ← fileFinish ctx payload)
  | _ => pure (true, ctx)

/-- `CheckMaster`. -/
def checkMaster (ctx : CtxFile) : Program Unit :=
  if ctx.fileModeSync then sendToAnother .fileMode (serializeToString fileModeFields ctx.fileMode)
  else sendToAnother .fileCheck (serializeToString transferConfigFields ctx.transferConfig)

/-- `HDC_TIME_CONVERT_BASE`. -/
def hdcTimeConvertBase : UInt64 := 1000000000

/-- What the master notes about a file that it opened. -/
def noteStat (ctx : CtxFile) (found : Stat) : CtxFile :=
  let st := { ctx.transferConfig with fileSize := found.size, optionalName := ctx.localName }
  let st :=
    if st.holdTimestamp then
      { st with
        atime := found.atimeSec * hdcTimeConvertBase + found.atimeNsec
        mtime := found.mtimeSec * hdcTimeConvertBase + found.mtimeNsec }
    else st
  { ctx with
    transferConfig := { st with path := ctx.remotePath }
    fileMode :=
      { ctx.fileMode with
        perm := found.mode.toUInt64, uId := found.uid.toUInt64, gId := found.gid.toUInt64 } }

/-- `OnFileOpen`: the reason of the failure, or what is known of the open file. A master
that fails on a file of a directory goes on to the next. -/
def onFileOpen (serverOrDaemon isStableBuf : Bool) (ctx : CtxFile) :
    Except Bytes Stat → Program CtxFile
  | .error reason => do
    let localPath ← removeSandboxRootPath serverOrDaemon ctx.localPath ctx.bundleName
    logMsg (str "Error opening file: " ++ reason ++ str ", path:" ++ localPath)
    if ctx.isDir ∧ ctx.master then fileFinish ctx [1]
    else if ctx.isDir then do
      sendToAnother .fileFinish [1]
      pure ctx
    else do
      taskFinish
      pure ctx
  | .ok found =>
    if ctx.master then do
      let ctx := noteStat ctx found
      checkMaster ctx
      pure ctx
    else do
      if ctx.fileModeSync then
        chmod ctx.localPath ctx.fileMode.perm
        chown ctx.localPath ctx.fileMode.uId ctx.fileMode.gId
      sendToAnother .fileBegin (addFeatures isStableBuf)
      pure ctx

end Hdc.Transfer
