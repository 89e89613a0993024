import Hdc.Transfer.File

/-!
The paths that the receiving side builds.

`SlaveCheck` goes through four stages, each of which may change the path. This module says which
paths a stage can touch and which one it leaves, whatever the file system does.

* `landing`, `entered`, `checkFilename_always`: the layers of the name, with or without the first
  one, and what is left as the name of the file;
* `slaveCheck_always`: all stages together, as a condition on the paths they touch.
-/

namespace Hdc.Transfer

open Interaction LexicalPath SerialStruct List

variable {α : Type} {T : Touch × Bytes → Prop}

/-! ### Single directories -/

variable {path : Bytes}

theorem tryCreateDirectory_always (allowed : T (.created, cStr path)) :
    Always (OnTouch T) (fun _ => True) (tryCreateDirectory path) := by
  unfold tryCreateDirectory
  rw [always_lstat_bind]
  intro answer
  cases answer with
  | none =>
    refine always_mkdir_bind allowed fun made => ?_
    cases made <;> simp
  | some mode =>
    dsimp only
    split <;> simp

theorem checkDirectoryOrPath_always (path : Bytes) (readWrite : Bool) :
    Always (OnTouch T) (fun _ => True) (checkDirectoryOrPath path readWrite) := by
  unfold checkDirectoryOrPath
  rw [always_lstat_bind]
  intro answer
  cases answer with
  | none => simp
  | some mode =>
    dsimp only
    split_ifs <;> simp

/-! ### The layers of the target -/

/-- The directories that `CheckLocalPath` creates, where none of them exists. -/
def layerPaths : Bytes → List Bytes → List Bytes
  | _, [] => []
  | makedirPath, dir :: dirs =>
    if dir = str "." then layerPaths makedirPath dirs
    else child makedirPath dir :: layerPaths (child makedirPath dir) dirs

/-- The layers of a path. -/
def localLayers (localPath : Bytes) : List Bytes :=
  layerPaths (if Base.isAbsolutePath localPath then [] else str ".") (Base.splitString localPath 47)

theorem createLayers_always {makedirPath : Bytes} {dirs : List Bytes}
    (allowed : ∀ path ∈ layerPaths makedirPath dirs, T (.created, cStr path)) :
    Always (OnTouch T) (fun _ => True) (createLayers makedirPath dirs) := by
  induction dirs generalizing makedirPath with
  | nil => simp [createLayers]
  | cons dir dirs ih =>
    rw [createLayers]
    rw [layerPaths] at allowed
    by_cases stay : dir = str "."
    · rw [if_pos stay] at allowed ⊢
      exact ih allowed
    · rw [if_neg stay] at allowed ⊢
      simp only [mem_cons, forall_eq_or_imp] at allowed
      refine (tryCreateDirectory_always allowed.1).bind fun error _ => ?_
      cases error with
      | none => exact ih allowed.2
      | some errStr => simp

variable {ctx : CtxFile}

/-- `CheckLocalPath` leaves the path and the configuration alone. -/
theorem checkLocalPath_always (allowed : isDirectoryMode ctx.transferConfig.optionalName = true →
    ∀ path ∈ localLayers ctx.localPath, T (.created, cStr path)) :
    Always (OnTouch T)
    (fun out => out.2.localPath = ctx.localPath ∧ out.2.transferConfig = ctx.transferConfig ∧
    (out.2.targetDirNotExist = ctx.targetDirNotExist ∨ out.2.targetDirNotExist = true))
    (checkLocalPath ctx) := by
  unfold checkLocalPath
  cases directory : isDirectoryMode ctx.transferConfig.optionalName with
  | false => simp
  | true =>
    simp only [Bool.not_true, Bool.false_eq_true, if_false]
    rw [always_lstat_bind]
    intro answer
    cases answer with
    | none =>
      refine (createLayers_always (allowed directory)).bind fun error _ => ?_
      cases error <;> simp
    | some mode =>
      dsimp only
      split <;> simp

/-! ### The layers of the name -/

/-- Where `CheckFilename` goes with a name, its first layer dropped or not: the layers to
enter, and the name of the file. -/
def landing (gone : Bool) (optName : Bytes) : Option (List Bytes × Bytes) :=
  let optName := if gone then dropFirstLayer optName else optName
  match optNameLayers optName with
  | none => some ([], optName)
  | some layers => layers.getLast?.map fun last => (layers.dropLast, last)

/-- The directories that are entered. -/
def entered : Bytes → List Bytes → List Bytes
  | _, [] => []
  | path, s :: layers => child path s :: entered (child path s) layers

/-- The directory in which the last layer ends. -/
def enterAll (path : Bytes) (layers : List Bytes) : Bytes := layers.foldl child path

theorem syncDirMode_always {backup : Bytes} (allowed : T (.changed, cStr ctx.localPath)) :
    Always (OnTouch T) (fun _ => True) (syncDirMode ctx backup) := by
  unfold syncDirMode
  rw [always_realpath_bind]
  intro resolvedPath
  split
  · cases resolvedPath.drop backup.length with
    | nil => simp
    | cons byte rest =>
      dsimp only
      cases ctx.dirModeMap.lookup (if byte = 47 then rest else byte :: rest) with
      | none => simp
      | some mode =>
        refine always_touch_bind (fun _ => rfl) allowed fun _ => ?_
        exact fun answer => ⟨fun touch same => by cases same; exact allowed, trivial⟩
  · simp

variable {layers : List Bytes}

theorem enterLayers_always {backup : Bytes} (ctx : CtxFile)
    (allowed : ∀ path ∈ entered ctx.localPath layers,
      T (.created, cStr path) ∧ T (.changed, cStr path)) :
    Always (OnTouch T)
      (fun out => out.1 = none → out.2 = { ctx with localPath := enterAll ctx.localPath layers })
      (enterLayers backup ctx layers) := by
  induction layers generalizing ctx with
  | nil => simp [enterLayers, enterAll]
  | cons s layers ih =>
    simp only [entered, mem_cons, forall_eq_or_imp] at allowed
    obtain ⟨⟨created, changed⟩, rest⟩ := allowed
    have later := ih { ctx with localPath := child ctx.localPath s } rest
    refine (tryCreateDirectory_always created).bind fun error _ => ?_
    cases error with
    | some errStr => simp
    | none =>
      dsimp only
      split
      · exact (syncDirMode_always changed).bind fun _ _ => later
      · exact later

/-- `CheckFilename` enters the layers and keeps the last one as the name. -/
theorem checkFilename_always (ctx : CtxFile)
    (allowed : ∀ layers last,
      landing ctx.targetDirNotExist ctx.transferConfig.optionalName = some (layers, last) →
      ∀ path ∈ entered ctx.localPath layers, T (.created, cStr path) ∧ T (.changed, cStr path)) :
    Always (OnTouch T)
      (fun out => out.1 = none → ∃ layers last,
        landing ctx.targetDirNotExist ctx.transferConfig.optionalName = some (layers, last) ∧
        out.2.localPath = enterAll ctx.localPath layers ∧
        out.2.transferConfig = { ctx.transferConfig with optionalName := last })
      (checkFilename ctx) := by
  unfold checkFilename
  unfold landing at allowed ⊢
  dsimp only at allowed ⊢
  generalize (if ctx.targetDirNotExist then dropFirstLayer ctx.transferConfig.optionalName
    else ctx.transferConfig.optionalName) = optName at allowed ⊢
  cases split : optNameLayers optName with
  | none =>
    intro _
    exact ⟨[], _, rfl, rfl, rfl⟩
  | some layers =>
    rw [split] at allowed
    dsimp only at allowed ⊢
    cases ends : layers.getLast? with
    | none => simp
    | some last =>
      rw [ends] at allowed
      refine (enterLayers_always ((ctx.setOptionalName _).setOptionalName last)
        (allowed _ _ rfl)).mono fun out kept fine => ?_
      rw [kept fine]
      exact ⟨layers.dropLast, last, rfl, rfl, rfl⟩

/-! ### Where the file goes -/

/-- What `SmartSlavePath` can make of a path and a name. -/
def landings (path optName : Bytes) : List Bytes :=
  [path, child path optName] ++ if path.getLast? = some 47 then [path ++ optName] else []

variable (serverOrDaemon : Bool)

theorem smartSlavePath_always (cwd localPath optName : Bytes) :
    Always (OnTouch T)
    (fun out => out.2 ∈ landings (slavePath serverOrDaemon cwd localPath) optName)
    (smartSlavePath serverOrDaemon cwd localPath optName) := by
  unfold smartSlavePath
  dsimp only
  generalize slavePath serverOrDaemon cwd localPath = path
  refine (checkDirectoryOrPath_always path false).bind fun out _ => ?_
  split
  · simp [landings]
  · rw [always_lstat_bind]
    intro answer
    cases answer with
    | none =>
      dsimp only
      split
      case isTrue ends => simp [landings, ends]
      case isFalse => simp [landings]
    | some mode =>
      dsimp only
      split <;> simp [landings]

/-- The file goes to one of the landings; nothing is touched yet. -/
theorem handleFileExistenceAndNewness_always (ctx : CtxFile) :
    Always (OnTouch T)
    (fun out => out.2.localPath ∈
    landings (slavePath serverOrDaemon ctx.transferConfig.clientCwd ctx.localPath)
    (cStr ctx.transferConfig.optionalName)) (handleFileExistenceAndNewness serverOrDaemon ctx) := by
  refine (smartSlavePath_always serverOrDaemon _ _ _).bind fun out landed => ?_
  dsimp only
  split
  · rw [always_stat_bind]
    intro answer
    cases answer with
    | none => exact landed
    | some found =>
      dsimp only
      split
      · simpa using landed
      · exact landed
  · exact landed

theorem beginFileOperations_always (allowed : T (.written, cStr ctx.localPath)) :
    Always (OnTouch T) (fun _ => True) (beginFileOperations ctx) :=
  always_touch_bind (fun _ => rfl) allowed fun _ => trivial

/-! ### Stages that only check -/

theorem isValidBundlePath_always (bundleName : Bytes) :
    Always (OnTouch T) (fun valid => valid = true → checkBundleName bundleName = true)
    (isValidBundlePath bundleName) := by
  unfold isValidBundlePath
  split
  case isTrue fine =>
    exact fun answer => ⟨onTouch_of_none rfl, fun _ => fine⟩
  case isFalse => simp

theorem removeSandboxRootPath_always (srcStr bundleName : Bytes) :
    Always (OnTouch T) (fun _ => True)
    (removeSandboxRootPath serverOrDaemon srcStr bundleName) := by
  unfold removeSandboxRootPath
  split
  · simp
  · refine (isValidBundlePath_always _).bind fun valid _ => ?_
    split
    · simp
    · dsimp only
      split <;> simp

/-- `CheckSandboxSubPath` passes only for a path that does not go up. -/
theorem checkSandboxSubPath_always (ctx : CtxFile) :
    Always (OnTouch T) (fun out => ∀ resolvedPath, out = some resolvedPath →
    checkPathTraversal ctx.inputLocalPath = true ∧
    ∃ appDir, resolvedPath = sandboxSubPath ctx.bundleName ctx.inputLocalPath appDir)
    (checkSandboxSubPath ctx) := by
  unfold checkSandboxSubPath
  rw [always_realpath_bind]
  intro appDir
  cases plain : checkPathTraversal ctx.inputLocalPath with
  | false => simp
  | true =>
    simp only [Bool.not_true, Bool.false_eq_true, if_false]
    split
    · simp
    · intro resolvedPath same
      exact ⟨trivial, appDir, (Option.some.inj same).symm⟩

/-- The target of a configuration: the path itself, or the path in the sandbox. -/
def targetPath (serverOrDaemon : Bool) (config : TransferConfig) : Bytes :=
  if serverOrDaemon = false ∧ config.reserve1 ≠ [] then
    sandboxRootDir ++ config.reserve1 ++ 47 :: config.path
  else config.path

/-- What `CheckBundleAndPath` asks of a bundle name: none, or one that is well formed
and a path that does not go up. -/
def bundleFits (serverOrDaemon : Bool) (config : TransferConfig) : Prop :=
  serverOrDaemon = false → config.reserve1 ≠ [] →
    checkBundleName config.reserve1 = true ∧ checkPathTraversal config.path = true

instance (serverOrDaemon : Bool) (config : TransferConfig) :
    Decidable (bundleFits serverOrDaemon config) :=
  inferInstanceAs (Decidable (_ → _ → _))

/-- The first two stages find the target. -/
theorem checkBundleAndPath_always (ctx : CtxFile) (payload : Bytes) (config : TransferConfig)
    (parsed : parseFromString transferConfigFields ctx.transferConfig payload = config) :
    Always (OnTouch T)
      (fun out => out.1 = true → bundleFits serverOrDaemon config ∧
        out.2 = { parseAndValidateOptions ctx payload with
          localPath := targetPath serverOrDaemon config })
      (checkBundleAndPath serverOrDaemon (parseAndValidateOptions ctx payload)) := by
  subst parsed
  cases serverOrDaemon with
  | true => exact fun _ => ⟨nofun, rfl⟩
  | false =>
    refine (isValidBundlePath_always _).bind fun valid named => ?_
    cases valid with
    | true =>
      have wellFormed := named rfl
      have given : (parseFromString transferConfigFields ctx.transferConfig payload).reserve1 ≠
          [] := by
        intro empty
        change checkBundleName (parseFromString transferConfigFields ctx.transferConfig
          payload).reserve1 = true at wellFormed
        rw [empty] at wellFormed
        exact absurd wellFormed (by decide)
      refine (checkSandboxSubPath_always _).bind fun resolved inside => ?_
      intro found
      obtain ⟨resolvedPath, rfl⟩ := Option.isSome_iff_exists.mp found
      refine ⟨fun _ _ => ⟨wellFormed, (inside resolvedPath rfl).1⟩, ?_⟩
      rw [targetPath, if_pos ⟨rfl, given⟩]
      rfl
    | false =>
      simp only [Bool.false_eq_true, if_false]
      split
      case isTrue => simp
      case isFalse empty =>
        refine fun _ => ⟨fun _ given => absurd given empty, ?_⟩
        rw [targetPath, if_neg fun both => empty both.2]
        rfl

theorem checkBlacklistPath_always (ctx : CtxFile) :
    Always (OnTouch T) (fun out => out.2 = ctx ∧
    (out.1 = true → containsBlacklistedSubstring ctx.localPath = false))
    (checkBlacklistPath ctx) := by
  unfold checkBlacklistPath
  cases listed : containsBlacklistedSubstring ctx.localPath <;> simp

theorem report_always (out : Option Bytes × CtxFile) :
    Always (OnTouch T) (fun reported => reported.2 = out.2 ∧ (reported.1 = true → out.1 = none))
    (report serverOrDaemon out) := by
  obtain ⟨error, _⟩ := out
  cases error with
  | none => simp [report]
  | some errStr =>
    refine (removeSandboxRootPath_always serverOrDaemon _ _).bind fun text _ => ?_
    simp

theorem checkFinalPath_always (ctx : CtxFile) :
    Always (OnTouch T)
    (fun out => out.2 = ctx ∧ (out.1 = true → checkPathTraversal ctx.localPath = true))
    (checkFinalPath serverOrDaemon ctx) := by
  unfold checkFinalPath
  cases plain : checkPathTraversal ctx.localPath with
  | true => simp
  | false =>
    refine (removeSandboxRootPath_always serverOrDaemon _ _).bind fun text _ => ?_
    simp

/-! ### All stages -/

/-- What the first stages leave in the context: the directory of the file, its name, and
the directory of the client. -/
structure Located (ctx : CtxFile) (gone : Bool) (layers : List Bytes) (last : Bytes)
    (out : CtxFile) : Prop where
  flag : gone = ctx.targetDirNotExist ∨ gone = true
  landed : landing gone ctx.transferConfig.optionalName = some (layers, last)
  plain : checkPathTraversal (enterAll ctx.localPath layers) = true
  localPath : out.localPath = enterAll ctx.localPath layers
  config : out.transferConfig = { ctx.transferConfig with optionalName := last }

theorem checkLocalPathAndFilename_always (ctx : CtxFile)
    (target : isDirectoryMode ctx.transferConfig.optionalName = true →
    ∀ path ∈ localLayers ctx.localPath, T (.created, cStr path)) (allowed : ∀ gone layers last,
    landing gone ctx.transferConfig.optionalName = some (layers, last) →
    ∀ path ∈ entered ctx.localPath layers, T (.created, cStr path) ∧ T (.changed, cStr path)) :
    Always (OnTouch T)
    (fun out => out.1 = true → ∃ gone layers last, Located ctx gone layers last out.2)
    (checkLocalPathAndFilename serverOrDaemon ctx) := by
  have first : Always (OnTouch T)
      (fun out => out.1 = true → out.2.localPath = ctx.localPath ∧
        out.2.transferConfig = ctx.transferConfig ∧
        (out.2.targetDirNotExist = ctx.targetDirNotExist ∨ out.2.targetDirNotExist = true))
      ((checkBlacklistPath ctx).andThen
        fun ctx => checkLocalPath ctx >>= report serverOrDaemon) := by
    refine (checkBlacklistPath_always ctx).andThen ?_ ?_
    · rintro value ⟨same, -⟩
      rw [show value = ctx from same]
      refine (checkLocalPath_always target).bind fun out kept => ?_
      refine (report_always serverOrDaemon out).mono fun reported same _ => ?_
      rw [same.1]
      exact kept
    · intro _ _ fine
      cases fine
  have second : Always (OnTouch T)
      (fun out => out.1 = true → ∃ gone layers last,
        (gone = ctx.targetDirNotExist ∨ gone = true) ∧
        landing gone ctx.transferConfig.optionalName = some (layers, last) ∧
        out.2.localPath = enterAll ctx.localPath layers ∧
        out.2.transferConfig = { ctx.transferConfig with optionalName := last })
      (((checkBlacklistPath ctx).andThen
        fun ctx => checkLocalPath ctx >>= report serverOrDaemon).andThen
        fun ctx => checkFilename ctx >>= report serverOrDaemon) := by
    refine first.andThen ?_ ?_
    · intro middle kept
      obtain ⟨path, config, flag⟩ := kept rfl
      have named := checkFilename_always (T := T) middle (by rw [path, config]; exact allowed _)
      rw [path, config] at named
      refine named.bind fun out entering => ?_
      refine (report_always serverOrDaemon out).mono fun reported same fine => ?_
      obtain ⟨layers, last, landed, entered⟩ := entering (same.2 fine)
      rw [same.1]
      exact ⟨_, layers, last, flag, landed, entered⟩
    · intro _ _ fine
      cases fine
  refine second.andThen ?_ ?_
  · intro out located
    obtain ⟨gone, layers, last, flag, landed, path, config⟩ := located rfl
    refine (checkFinalPath_always serverOrDaemon out).mono fun final same fine => ?_
    have plain := same.2 fine
    rw [path] at plain
    rw [same.1]
    exact ⟨_, layers, last, flag, landed, plain, path, config⟩
  · intro _ _ fine
    cases fine

/-- A condition on the paths that the stages can touch holds along every run. -/
theorem slaveCheck_always (ctx : CtxFile) (payload : Bytes) (config : TransferConfig)
    (parsed : parseFromString transferConfigFields ctx.transferConfig payload = config)
    (target : bundleFits serverOrDaemon config → isDirectoryMode config.optionalName = true →
    ∀ path ∈ localLayers (targetPath serverOrDaemon config), T (.created, cStr path))
    (allowed : ∀ gone layers last, landing gone config.optionalName = some (layers, last) →
    ∀ path ∈ entered (targetPath serverOrDaemon config) layers,
    T (.created, cStr path) ∧ T (.changed, cStr path))
    (written : ∀ gone layers last, landing gone config.optionalName = some (layers, last) →
    ∀ path ∈ landings (slavePath serverOrDaemon config.clientCwd
    (enterAll (targetPath serverOrDaemon config) layers)) (cStr last), T (.written, cStr path)) :
    Always (OnTouch T) (fun _ => True) (slaveCheck serverOrDaemon ctx payload) := by
  have located : Always (OnTouch T)
      (fun out => out.1 = true → ∃ gone layers last,
        Located { parseAndValidateOptions ctx payload with
          localPath := targetPath serverOrDaemon config } gone layers last out.2)
      ((checkBundleAndPath serverOrDaemon (parseAndValidateOptions ctx payload)).andThen
        (checkLocalPathAndFilename serverOrDaemon)) := by
    refine (checkBundleAndPath_always serverOrDaemon ctx payload config parsed).andThen ?_ ?_
    · intro value found
      obtain ⟨fits, same⟩ := found rfl
      rw [show value = _ from same]
      subst parsed
      exact checkLocalPathAndFilename_always serverOrDaemon _ (target fits) allowed
    · intro _ _ fine
      cases fine
  have file : Always (OnTouch T) (fun out => out.1 = true → T (.written, cStr out.2.localPath))
      (((checkBundleAndPath serverOrDaemon (parseAndValidateOptions ctx payload)).andThen
        (checkLocalPathAndFilename serverOrDaemon)).andThen
        (handleFileExistenceAndNewness serverOrDaemon)) := by
    refine located.andThen ?_ ?_
    · intro value found
      obtain ⟨gone, layers, last, there⟩ := found rfl
      refine (handleFileExistenceAndNewness_always serverOrDaemon value).mono fun out final _ => ?_
      rw [there.localPath, there.config] at final
      subst parsed
      exact written _ layers last there.landed _ final
    · intro _ _ fine
      cases fine
  refine file.andThen (fun value allowed => beginFileOperations_always (allowed rfl)) ?_
  exact fun _ _ => trivial

/-! ### The paths as texts -/

/-- A layer is the start with some of the names written out behind it. -/
theorem exists_render_of_mem_layerPaths {makedirPath : Bytes} {dirs : List Bytes}
    (mem : path ∈ layerPaths makedirPath dirs) :
    ∃ layers, layers <+: dirs.filter (· ≠ str ".") ∧ path = makedirPath ++ render 47 layers := by
  induction dirs generalizing makedirPath with
  | nil => cases mem
  | cons dir dirs ih =>
    rw [layerPaths] at mem
    by_cases stay : dir = str "."
    · rw [if_pos stay] at mem
      rw [filter_cons_of_neg (by simpa using stay)]
      exact ih mem
    · rw [if_neg stay] at mem
      rw [filter_cons_of_pos (by simpa using stay)]
      rcases mem_cons.mp mem with rfl | mem
      · exact ⟨[dir], by simp, by simp [child]⟩
      · obtain ⟨layers, shorter, rfl⟩ := ih mem
        exact ⟨dir :: layers, (prefix_cons_inj dir).mpr shorter, by simp [child]⟩

theorem enterAll_eq (path : Bytes) (layers : List Bytes) :
    enterAll path layers = path ++ render 47 layers := by
  induction layers generalizing path with
  | nil => simp [enterAll]
  | cons s layers ih =>
    rw [enterAll, foldl_cons, ← enterAll, ih]
    simp [child]

theorem mem_entered_iff {target : Bytes} : path ∈ entered target layers ↔
    ∃ front, front ≠ [] ∧ front <+: layers ∧ path = target ++ render 47 front := by
  induction layers generalizing target with
  | nil =>
    simp only [entered, not_mem_nil, prefix_nil, false_iff, not_exists]
    rintro front ⟨full, rfl, -⟩
    exact full rfl
  | cons s layers ih =>
    rw [entered, mem_cons, ih]
    constructor
    · rintro (rfl | ⟨front, -, shorter, rfl⟩)
      · exact ⟨[s], by simp, by simp, by simp [child]⟩
      · exact ⟨s :: front, by simp, (prefix_cons_inj s).mpr shorter, by simp [child]⟩
    · rintro ⟨front, full, shorter, rfl⟩
      rcases prefix_cons_iff.mp shorter with rfl | ⟨rest, rfl, more⟩
      · exact absurd rfl full
      · by_cases empty : rest = []
        · exact .inl (by simp [empty, child])
        · exact .inr ⟨rest, empty, more, by simp [child]⟩

/-- Layers of a name are names, whichever separator sets them apart. -/
theorem isName_of_mem_optNameLayers {optName s : Bytes}
    (split : optNameLayers optName = some layers) (mem : s ∈ layers) : IsName 47 s := by
  unfold optNameLayers at split
  split_ifs at split with slash back
  · obtain rfl := Option.some.inj split
    rw [Base.splitString_eq_names] at mem
    exact isName_of_mem_names mem
  · obtain rfl := Option.some.inj split
    rw [Base.splitString_eq_names] at mem
    refine ⟨(isName_of_mem_names mem).1, fun inside => slash ?_⟩
    exact subset_of_mem_names mem inside

end Hdc.Transfer
