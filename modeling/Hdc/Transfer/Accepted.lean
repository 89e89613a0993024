import Hdc.Transfer.Receive

/-!
The runs in which a `CMD_FILE_CHECK` is accepted.

`Receive` bounds what all runs touch; here the accepted ones are described from both
sides. An accepted run has gone through every stage, and touches only the layers of the
target, those of the name, and one of the landings of the file. And for each way of
reading the name there is a file system in which the configuration is accepted, every
layer of the name is created, and the file goes into the last of them.

* `slaveCheck_accepted`: what an accepted run has touched;
* `exists_accepted`: an accepted run that touches all of it.
-/

namespace Hdc.Transfer

open Interaction LexicalPath SerialStruct List

/-! ### What accepted runs touch -/

variable {trace : List Event}

/-- The specification of a stage along a run that ends. -/
theorem spec_of_runs {α : Type} {T : Touch × Bytes → Prop} {Q : α → Prop} {p : Program α}
    {value : α} (spec : Always (OnTouch T) Q p)
    (run : Runs p trace (some value)) : (∀ touch ∈ touches trace, T touch) ∧ Q value :=
  ⟨touches_of_always spec run, (spec.of_runs run).2 _ rfl⟩

/-- What the stages up to the final check touch in a run that goes through them. -/
def OnTheWay (target : Bytes) (layers : List Bytes) (touch : Touch × Bytes) : Prop :=
  (∃ path ∈ localLayers target, touch = (.created, cStr path)) ∨
    ∃ path ∈ entered target layers, touch = (.created, cStr path) ∨ touch = (.changed, cStr path)

/-- A stage that may touch nothing touches nothing. -/
theorem nothing_of_runs {α : Type} {Q : α → Prop} {p : Program α} {value : α}
    (spec : Always (OnTouch fun _ => False) Q p) (run : Runs p trace (some value)) :
    touches trace = [] ∧ Q value := by
  obtain ⟨none, holds⟩ := spec_of_runs spec run
  exact ⟨eq_nil_iff_forall_not_mem.mpr none, holds⟩

variable {ctx : CtxFile}

theorem checkLocalPathAndFilename_accepted {serverOrDaemon : Bool} {out : CtxFile}
    (run : Runs (checkLocalPathAndFilename serverOrDaemon ctx) trace (some (true, out))) :
    containsBlacklistedSubstring ctx.localPath = false ∧ ∃ gone layers last,
    Located ctx gone layers last out ∧
    ∀ touch ∈ touches trace, OnTheWay ctx.localPath layers touch := by
  obtain ⟨_, _, afterName, rfl, run, finalRun⟩ := run.andThen_inv
  obtain ⟨_, nameTrace, afterPath, rfl, run, nameRun⟩ := run.andThen_inv
  obtain ⟨_, pathTrace, same, rfl, listRun, pathRun⟩ := run.andThen_inv
  obtain ⟨listQuiet, rfl, allowed⟩ := nothing_of_runs (checkBlacklistPath_always ctx) listRun
  -- the target
  obtain ⟨pathTrace, _, pathOut, rfl, pathRun, reportRun⟩ := pathRun.bind_inv
  obtain ⟨reportQuiet, kept, _⟩ :=
    nothing_of_runs (report_always serverOrDaemon pathOut) reportRun
  obtain ⟨pathTouches, path, config, flag⟩ := spec_of_runs
    (checkLocalPath_always (T := fun touch => ∃ path ∈ localLayers same.localPath,
      touch = (.created, cStr path)) fun _ path mem => ⟨path, mem, rfl⟩) pathRun
  obtain rfl : afterPath = pathOut.2 := kept
  -- the name
  obtain ⟨nameTrace, _, nameOut, rfl, nameRun, nameReportRun⟩ := nameRun.bind_inv
  obtain ⟨nameReportQuiet, nameKept, nameReported⟩ :=
    nothing_of_runs (report_always serverOrDaemon nameOut) nameReportRun
  obtain ⟨nameTouches, named⟩ := spec_of_runs
    (checkFilename_always (T := fun touch => ∃ layers last,
        landing pathOut.2.targetDirNotExist pathOut.2.transferConfig.optionalName =
          some (layers, last) ∧
        ∃ path ∈ entered pathOut.2.localPath layers,
          touch = (.created, cStr path) ∨ touch = (.changed, cStr path)) pathOut.2
      (fun layers last landed path mem =>
        ⟨⟨layers, last, landed, path, mem, .inl rfl⟩, layers, last, landed, path, mem, .inr rfl⟩))
    nameRun
  obtain ⟨layers, last, landed, nameLocal, nameConfig⟩ := named (nameReported rfl)
  obtain rfl : afterName = nameOut.2 := nameKept
  -- the final check
  obtain ⟨finalQuiet, unchanged, plain⟩ :=
    nothing_of_runs (checkFinalPath_always serverOrDaemon nameOut.2) finalRun
  obtain rfl : out = nameOut.2 := unchanged
  rw [path, config] at nameTouches
  rw [config] at landed
  rw [path] at nameLocal
  rw [config] at nameConfig
  refine ⟨allowed rfl, pathOut.2.targetDirNotExist, _, _,
    ⟨flag, landed, nameLocal ▸ plain rfl, nameLocal, nameConfig⟩, ?_⟩
  intro touch mem
  simp only [touches_append, listQuiet, reportQuiet, nameReportQuiet, finalQuiet, nil_append,
    append_nil, mem_append] at mem
  rcases mem with mem | mem
  · exact .inl (pathTouches _ mem)
  · obtain ⟨_, _, otherLanded, touching⟩ := nameTouches touch mem
    obtain ⟨rfl, rfl⟩ := Prod.mk.inj (Option.some.inj (otherLanded.symm.trans landed))
    exact .inr touching

variable {config : TransferConfig}

/-- An accepted configuration went through every check, and touched what was on the way
and one of the landings. -/
theorem slaveCheck_accepted {serverOrDaemon : Bool} {out : CtxFile} {payload : Bytes}
        (parsed : parseFromString transferConfigFields ctx.transferConfig payload = config)
    (run : Runs (slaveCheck serverOrDaemon ctx payload) trace (some (true, out))) :
    bundleFits serverOrDaemon config ∧
    containsBlacklistedSubstring (targetPath serverOrDaemon config) = false ∧
    ∃ gone layers last, (gone = ctx.targetDirNotExist ∨ gone = true) ∧
    landing gone config.optionalName = some (layers, last) ∧
    checkPathTraversal (enterAll (targetPath serverOrDaemon config) layers) = true ∧
    ∀ touch ∈ touches trace, OnTheWay (targetPath serverOrDaemon config) layers touch ∨
    ∃ path ∈ landings (slavePath serverOrDaemon config.clientCwd
    (enterAll (targetPath serverOrDaemon config) layers)) (cStr last),
    touch = (.written, cStr path) := by
  obtain ⟨_, _, found, rfl, run, openRun⟩ := run.andThen_inv
  obtain ⟨_, _, located, rfl, run, findRun⟩ := run.andThen_inv
  obtain ⟨_, _, placed, rfl, bundleRun, wayRun⟩ := run.andThen_inv
  obtain ⟨bundleQuiet, bundled⟩ := nothing_of_runs
    (checkBundleAndPath_always serverOrDaemon ctx payload config parsed) bundleRun
  obtain ⟨fits, same⟩ := bundled rfl
  obtain rfl : placed = _ := same
  obtain ⟨allowed, gone, layers, last, there, wayTouches⟩ :=
    checkLocalPathAndFilename_accepted wayRun
  obtain ⟨findQuiet, landed⟩ := nothing_of_runs
    (handleFileExistenceAndNewness_always serverOrDaemon located) findRun
  obtain ⟨openTouches, -⟩ := spec_of_runs (beginFileOperations_always
    (T := fun touch => touch = (.written, cStr found.localPath)) rfl) openRun
  subst parsed
  rw [there.localPath, there.config] at landed
  refine ⟨fits, allowed, _, _, _, there.flag, there.landed, there.plain, ?_⟩
  intro touch mem
  simp only [touches_append, bundleQuiet, findQuiet, nil_append, append_nil,
    mem_append] at mem
  rcases mem with mem | mem
  · exact .inl (wayTouches _ mem)
  · exact .inr ⟨found.localPath, landed, openTouches _ mem⟩

/-! ### An accepted run -/

theorem reaches_tryCreateDirectory (path : Bytes) :
    Reaches (tryCreateDirectory path) none [(.created, cStr path)] :=
  reaches_lstat_bind none (reaches_mkdir_bind (reaches_pure none))

theorem reaches_createLayers (makedirPath : Bytes) (dirs : List Bytes) :
    Reaches (createLayers makedirPath dirs) none [] := by
  induction dirs generalizing makedirPath with
  | nil => exact reaches_pure none
  | cons dir dirs ih =>
    rw [createLayers]
    split
    · exact ih _
    · have created := (reaches_tryCreateDirectory (child makedirPath dir)).mono (nil_subset _)
      exact created.bind (ih (child _ dir))

/-- Outside of directories the first layer makes no difference. -/
theorem landing_of_not_directoryMode {optName : Bytes} (single : isDirectoryMode optName = false)
    (gone : Bool) : landing gone optName = some ([], optName) := by
  simp only [isDirectoryMode, Bool.or_eq_false_iff, decide_eq_false_iff_not] at single
  have same : dropFirstLayer optName = optName := by
    simp [dropFirstLayer, single.1, single.2]
  cases gone <;> simp [landing, optNameLayers, same, single.1, single.2]

variable {gone : Bool}

/-- The target may exist or not, so either way of reading the name can come next. -/
theorem reaches_checkLocalPath (flag : gone = ctx.targetDirNotExist ∨ gone = true) :
    ∃ out, Reaches (checkLocalPath ctx) (none, out) [] ∧ out.localPath = ctx.localPath ∧
    out.transferConfig = ctx.transferConfig ∧
    landing out.targetDirNotExist ctx.transferConfig.optionalName =
    landing gone ctx.transferConfig.optionalName := by
  unfold checkLocalPath
  cases directory : isDirectoryMode ctx.transferConfig.optionalName with
  | false =>
    refine ⟨ctx, reaches_pure _, rfl, rfl, ?_⟩
    rw [landing_of_not_directoryMode directory, landing_of_not_directoryMode directory]
  | true =>
    rcases flag with rfl | rfl
    · refine ⟨{ ctx with isDir := true }, ?_, rfl, rfl, rfl⟩
      exact reaches_lstat_bind (some sIfdir) (reaches_pure _)
    · refine ⟨{ ctx with isDir := true, targetDirNotExist := true }, ?_, rfl, rfl, rfl⟩
      exact reaches_lstat_bind none ((reaches_createLayers _ _).bind (reaches_pure _))

theorem reaches_syncDirMode (ctx : CtxFile) (backup : Bytes) :
    Reaches (syncDirMode ctx backup) () [] := by
  -- a resolved path that goes on behind the backup
  refine reaches_realpath_bind (backup ++ str "x") ?_
  have begins : backup.isPrefixOf (backup ++ str "x") = true := by simp
  have rest : (backup ++ str "x").drop backup.length = str "x" := drop_left
  rw [if_pos begins, rest]
  simp only [show str "x" = [120] from rfl, (by decide : ¬ (120 : UInt8) = 47), if_false]
  cases ctx.dirModeMap.lookup [120] with
  | none => exact reaches_pure ()
  | some mode =>
    exact (reaches_call_bind (.chmod _ _) () (reaches_chown _ _ _)).mono (nil_subset _)

theorem reaches_enterLayers (backup : Bytes) (ctx : CtxFile) (layers : List Bytes) :
    Reaches (enterLayers backup ctx layers)
      (none, { ctx with localPath := enterAll ctx.localPath layers })
      ((entered ctx.localPath layers).map fun path => (.created, cStr path)) := by
  induction layers generalizing ctx with
  | nil => exact reaches_pure _
  | cons s layers ih =>
    have later := ih { ctx with localPath := child ctx.localPath s }
    refine (reaches_tryCreateDirectory (child ctx.localPath s)).bind ?_
    dsimp only
    split
    · exact (reaches_syncDirMode _ _).bind later
    · exact later

variable {layers : List Bytes} {last : Bytes}

/-- With a landing, the layers of the name can all be created. -/
theorem reaches_checkFilename
    (landed : landing ctx.targetDirNotExist ctx.transferConfig.optionalName =
      some (layers, last)) :
    ∃ out, Reaches (checkFilename ctx) (none, out)
        ((entered ctx.localPath layers).map fun path => (.created, cStr path)) ∧
      out.localPath = enterAll ctx.localPath layers ∧
      out.transferConfig = { ctx.transferConfig with optionalName := last } := by
  unfold checkFilename
  unfold landing at landed
  dsimp only at landed ⊢
  generalize (if ctx.targetDirNotExist then dropFirstLayer ctx.transferConfig.optionalName
    else ctx.transferConfig.optionalName) = optName at landed ⊢
  cases split : optNameLayers optName with
  | none =>
    rw [split] at landed
    obtain ⟨rfl, rfl⟩ := Prod.mk.inj (Option.some.inj landed)
    exact ⟨ctx.setOptionalName _, reaches_pure _, rfl, rfl⟩
  | some all =>
    rw [split] at landed
    obtain ⟨_, ends, pair⟩ := Option.map_eq_some_iff.mp landed
    obtain ⟨rfl, rfl⟩ := Prod.mk.inj pair
    dsimp only
    rw [ends]
    exact ⟨_, reaches_enterLayers _ _ _, rfl, rfl⟩

theorem head?_pathSimplify (path : Bytes) : (pathSimplify path).head? = some 47 := by
  rw [pathSimplify_eq_render]
  cases place 47 dot path <;> rfl

theorem head?_getPathWithoutFilename {path : Bytes} (rooted : path.head? = some 47) :
    (getPathWithoutFilename path).head? = some 47 := by
  obtain ⟨rest, rfl⟩ := head?_eq_some_iff.mp rooted
  rw [getPathWithoutFilename]
  obtain ⟨_, split⟩ := List.rdropWhile_prefix (· ≠ 47) (47 :: rest)
  cases front : (47 :: rest).rdropWhile (· ≠ 47) with
  | nil =>
    have all := rdropWhile_eq_nil_iff.mp front 47 mem_cons_self
    simp at all
  | cons byte front' =>
    rw [front] at split
    exact congrArg some (List.cons.inj split).1

/-- Where the directory of the bundle cannot be resolved, every path counts as inside. -/
theorem isPathInsideSandbox_nil (bundleName inputLocalPath : Bytes) :
    isPathInsideSandbox (sandboxSubPath bundleName inputLocalPath []) [] = true := by
  have rooted : (sandboxSubPath bundleName inputLocalPath []).head? = some 47 := by
    unfold sandboxSubPath
    dsimp only
    split
    · exact head?_getPathWithoutFilename (head?_pathSimplify _)
    · exact head?_pathSimplify _
  obtain ⟨_, shape⟩ := head?_eq_some_iff.mp rooted
  rw [shape]
  simp [isPathInsideSandbox, cStr]

/-- A configuration that fits finds its target. -/
theorem reaches_checkBundleAndPath
    (bundle : ctx.bundleName = config.reserve1) (input : ctx.inputLocalPath = config.path)
    (path : ctx.localPath = config.path) (fits : bundleFits false config) :
    Reaches (checkBundleAndPath false ctx)
      (true, { ctx with localPath := targetPath false config }) [] := by
  unfold checkBundleAndPath
  by_cases empty : config.reserve1 = []
  · have unbundled : { ctx with localPath := targetPath false config } = ctx := by
      rw [targetPath, if_neg fun both => both.2 empty, ← path]
    rw [unbundled, bundle, empty]
    exact (reaches_pure false).bind (reaches_pure _)
  · obtain ⟨wellFormed, plain⟩ := fits rfl empty
    have valid : Reaches (isValidBundlePath ctx.bundleName) true [] := by
      rw [bundle, isValidBundlePath, if_pos wellFormed]
      exact reaches_access _ _ true
    have inside : ∀ localPath, Reaches (checkSandboxSubPath { ctx with localPath })
        (some (sandboxSubPath ctx.bundleName ctx.inputLocalPath [])) [] := by
      intro localPath
      refine reaches_realpath_bind [] ?_
      rw [← input] at plain
      simp only [plain, isPathInsideSandbox_nil]
      exact reaches_pure _
    have located : targetPath false config =
        sandboxRootDir ++ ctx.bundleName ++ 47 :: ctx.inputLocalPath := by
      rw [targetPath, if_pos ⟨rfl, empty⟩, bundle, input]
    rw [located]
    exact valid.bind ((inside _).bind (reaches_pure _))

theorem reaches_checkDirectoryOrPath (path : Bytes) (readWrite : Bool) :
    Reaches (checkDirectoryOrPath path readWrite) (false, true) [] :=
  reaches_lstat_bind (some sIfdir) (reaches_pure _)

/-- The file can go into the directory that the layers lead to. -/
theorem reaches_handleFileExistenceAndNewness (ctx : CtxFile) :
    Reaches (handleFileExistenceAndNewness false ctx)
      (true, { ctx with
        localPath := child ctx.localPath (cStr ctx.transferConfig.optionalName) }) [] := by
  have landed : Reaches (smartSlavePath false ctx.transferConfig.clientCwd ctx.localPath
      (cStr ctx.transferConfig.optionalName))
      (false, child ctx.localPath (cStr ctx.transferConfig.optionalName)) [] :=
    (reaches_checkDirectoryOrPath _ _).bind (reaches_lstat_bind (some sIfdir) (reaches_pure _))
  exact landed.bind (reaches_pure _)

/-- The stages up to the final check can all be passed. -/
theorem reaches_checkLocalPathAndFilename (ctx : CtxFile)
    (allowed : containsBlacklistedSubstring ctx.localPath = false)
    (flag : gone = ctx.targetDirNotExist ∨ gone = true)
    (landed : landing gone ctx.transferConfig.optionalName = some (layers, last))
    (plain : checkPathTraversal (enterAll ctx.localPath layers) = true) :
    ∃ out, Reaches (checkLocalPathAndFilename false ctx) (true, out)
        ((entered ctx.localPath layers).map fun path => (.created, cStr path)) ∧
      out.localPath = enterAll ctx.localPath layers ∧
      out.transferConfig = { ctx.transferConfig with optionalName := last } := by
  have listed : Reaches (checkBlacklistPath ctx) (true, ctx) [] := by
    rw [checkBlacklistPath, allowed]
    exact reaches_pure _
  obtain ⟨middle, target, path, config, same⟩ := reaches_checkLocalPath flag
  rw [← same, ← config] at landed
  obtain ⟨out, named, outPath, outConfig⟩ := reaches_checkFilename landed
  rw [path] at named outPath
  rw [config] at outConfig
  have final : Reaches (checkFinalPath false out) (true, out) [] := by
    rw [checkFinalPath, outPath, plain]
    exact reaches_pure _
  have targetFine : Reaches (checkLocalPath ctx >>= report false) (true, middle) [] :=
    target.bind (reaches_pure _)
  have nameFine : Reaches (checkFilename middle >>= report false) (true, out) _ :=
    named.bind (reaches_pure _)
  have reaches : Reaches (checkLocalPathAndFilename false ctx) (true, out) _ :=
    ((listed.andThen targetFine).andThen nameFine).andThen final
  exact ⟨_, by simpa using reaches, outPath, outConfig⟩

/-- For each way of reading the name, the configuration is accepted by some file system
that creates every layer of the name and puts the file into the last one. -/
theorem exists_accepted {payload : Bytes}
    (parsed : parseFromString transferConfigFields ctx.transferConfig payload = config)
    (fits : bundleFits false config)
    (allowed : containsBlacklistedSubstring (targetPath false config) = false)
    (flag : gone = ctx.targetDirNotExist ∨ gone = true)
    (landed : landing gone config.optionalName = some (layers, last))
    (plain : checkPathTraversal (enterAll (targetPath false config) layers) = true) :
    ∃ out, Reaches (slaveCheck false ctx payload) (true, out)
    ((entered (targetPath false config) layers).map (fun path => (.created, cStr path)) ++
    [(.written, cStr (child (enterAll (targetPath false config) layers) (cStr last)))]) := by
  subst parsed
  have placed : Reaches (checkBundleAndPath false (parseAndValidateOptions ctx payload)) _ [] :=
    reaches_checkBundleAndPath rfl rfl rfl fits
  obtain ⟨located, way, path, config⟩ := reaches_checkLocalPathAndFilename
    { parseAndValidateOptions ctx payload with
      localPath :=
        targetPath false (parseFromString transferConfigFields ctx.transferConfig payload) }
    allowed flag landed plain
  have found := reaches_handleFileExistenceAndNewness located
  rw [path, config] at found
  have opened : ∀ out : CtxFile, Reaches (beginFileOperations out) (true, out)
      [(.written, cStr out.localPath)] := fun out => reaches_openWrite_bind (reaches_pure _)
  have reaches : Reaches (slaveCheck false ctx payload) _ _ :=
    ((placed.andThen way).andThen found).andThen (opened _)
  exact ⟨_, by simpa using reaches⟩

end Hdc.Transfer
