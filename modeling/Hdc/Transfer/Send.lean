import Hdc.Transfer.Receive

/-!
The paths that the sending side opens.

`CMD_FILE_INIT` carries a command line. The path in it is opened, or, where it is a
directory, the files that a scan finds below it, one after the other: the last of them
right away, and each of the others when the peer or a failed open asks for the next.
A command line that is refused leaves the queue of files as it is.

* `Queued`: what the queue holds, for every behaviour of the file system;
* `masterRun`: a command line, and what comes after it.
-/

namespace Hdc.Transfer

open Interaction LexicalPath SerialStruct List

variable {T : Touch × Bytes → Prop}

/-! ### The command line -/

variable {argv : List Bytes}

/-- Arguments hold no NUL, since the command line is read as a C string. -/
theorem splitCommandToArgs_free {command : Bytes}
    (split : Base.splitCommandToArgs command = some argv) : ∀ arg ∈ argv, 0 ∉ arg := by
  unfold Base.splitCommandToArgs at split
  have free : 0 ∉ command.takeWhile (· ≠ 0) := cStr_free command
  cases line : command.takeWhile (· ≠ 0) with
  | nil =>
    rw [line] at split
    cases split
  | cons byte rest =>
    rw [line] at split free
    obtain rfl := Option.some.inj split
    have letters := @Base.splitArgsFrom_forall (· ≠ 0) false [] none _ nofun nofun
      fun letter mem _ zero => free (zero ▸ mem)
    exact fun arg mem zero => letters arg mem 0 zero rfl

/-- What the options leave alone, and the name of the bundle in both its places. -/
structure Parsed (ctx : CtxFile) : Prop where
  queue : ctx.taskQueue = []
  directory : ctx.isDir = false
  bundle : ctx.bundleName = ctx.transferConfig.reserve1

variable {ctx : CtxFile}

theorem parseMasterArg_parsed (parsed : Parsed ctx) (argc srcArgvIndex : Nat) (arg : Bytes)
    (rest : List Bytes) : Parsed (parseMasterArg false argc ctx srcArgvIndex arg rest).2.1 := by
  unfold parseMasterArg
  split_ifs <;> exact ⟨parsed.queue, parsed.directory, by first | exact parsed.bundle | rfl⟩

theorem parseMasterFrom_parsed {argc srcArgvIndex : Nat} {ctx : CtxFile} {args : List Bytes}
    (parsed : Parsed ctx) : Parsed (parseMasterFrom false argc ctx srcArgvIndex args).2.1 := by
  induction args generalizing ctx srcArgvIndex with
  | nil => exact parsed
  | cons arg rest ih =>
    have step := parseMasterArg_parsed parsed argc srcArgvIndex arg rest
    rw [parseMasterFrom]
    split
    case h_1 error after index same =>
      rw [same] at step
      exact step
    case h_2 after index same =>
      rw [same] at step
      exact ih step

theorem getD_free (free : ∀ arg ∈ argv, 0 ∉ arg) (i : Nat) : 0 ∉ argv.getD i [] := by
  rw [getD_eq_getElem?_getD]
  cases found : argv[i]? with
  | none => exact not_mem_nil
  | some arg => exact free _ (mem_of_getElem? found)

variable {index : Nat}

/-- A command line that passes gives two paths, or one; the path to send is kept in two
places. -/
theorem parseMasterParameters_parsed {after : CtxFile} (free : ∀ arg ∈ argv, 0 ∉ arg)
    (fine : parseMasterParameters false {} argv = (none, after, index)) :
    Parsed after ∧ after.inputLocalPath = after.localPath ∧ 0 ∉ after.localPath ∧
    (after.sandboxMode = true → index + 1 = argv.length →
    after.localPath = argv.getD (argv.length - 1) []) := by
  unfold parseMasterParameters at fine
  have start : Parsed ({} : CtxFile) := ⟨rfl, rfl, rfl⟩
  have options := @parseMasterFrom_parsed argv.length 0 {} argv start
  split at fine
  case h_1 => cases fine
  case h_2 middle src same =>
    rw [same] at options
    unfold validateAndSetPaths at fine
    dsimp only at fine options
    split_ifs at fine with nothing single
    · cases fine
    · cases fine
      exact ⟨⟨options.queue, options.directory, options.bundle⟩, rfl, getD_free free _,
        fun _ _ => rfl⟩
    · cases fine
      refine ⟨⟨options.queue, options.directory, options.bundle⟩, rfl, getD_free free _, ?_⟩
      exact fun sandbox last => absurd ⟨sandbox, last⟩ single

/-! ### The path to send -/

/-- The path of a command line, if it passes. A bundle name has to be well formed; whether
the path then moves into the sandbox depends on the file system, which is asked twice. -/
def masterPath (params : Bytes) : Option Bytes :=
  match Base.splitCommandToArgs params with
  | none => none
  | some argv =>
    if argv.length < 2 then none
    else
      match parseMasterParameters false {} argv with
      | (some _, _, _) => none
      | (none, ctx, srcArgvIndex) =>
        if ctx.sandboxMode ∧ ctx.transferConfig.reserve1 ≠ [] ∧
            checkBundleName ctx.transferConfig.reserve1 = false then none
        else some (takeLastPath ctx argv srcArgvIndex).localPath

/-- A path in the sandbox of a bundle, as `SetMasterParametersOnDaemon` builds it. -/
def InSandbox (path : Bytes) : Prop :=
  ∃ bundleName input appDir, checkBundleName bundleName = true ∧
    checkPathTraversal input = true ∧ 0 ∉ input ∧
    path = child (sandboxSubPath bundleName input appDir) (getFullFilePath input).1

/-- The paths that a command line can lead to, without the separators at their end. -/
def Found (params path : Bytes) : Prop :=
  (∃ given, masterPath params = some given ∧ path = (getFullFilePath given).2) ∨ InSandbox path

theorem getFullFilePath_idem (path : Bytes) :
    getFullFilePath (getFullFilePath path).2 = getFullFilePath path := by
  simp only [getFullFilePath, rdropWhile_idempotent]

theorem getFullFilePath_subset (path : Bytes) :
    (getFullFilePath path).1 ⊆ path ∧ (getFullFilePath path).2 ⊆ path := by
  have stripped : path.rdropWhile (· = 47) ⊆ path := (List.rdropWhile_prefix _ _).subset
  exact ⟨List.Subset.trans (rtakeWhile_suffix _ _).subset stripped, stripped⟩

/-- Only separators are taken off the end of a path. -/
theorem getFullFilePath_split (path : Bytes) : ∃ seps, (∀ byte ∈ seps, byte = 47) ∧
    (getFullFilePath path).2 ++ seps = path := by
  refine ⟨path.rtakeWhile (· = 47), fun byte mem => ?_, rdropWhile_append_rtakeWhile⟩
  simpa using mem_rtakeWhile_imp mem

theorem popSeps_split (text : Bytes) : ∃ seps, (∀ byte ∈ seps, byte = 47) ∧
    seps ++ popSeps text = text := by
  induction text with
  | nil => exact ⟨[], nofun, rfl⟩
  | cons byte text ih =>
    rw [popSeps]
    split
    case isTrue sep =>
      obtain ⟨seps, only, split⟩ := ih
      refine ⟨byte :: seps, ?_, by rw [cons_append, split]⟩
      simp only [mem_cons, forall_eq_or_imp]
      exact ⟨sep.1, only⟩
    case isFalse => exact ⟨[], nofun, rfl⟩

theorem isBundleChar_of_mem {bundleName : Bytes} (wellFormed : checkBundleName bundleName = true)
    {byte : UInt8} (mem : byte ∈ bundleName) : isBundleChar byte = true := by
  simp only [checkBundleName, Bool.and_eq_true, all_eq_true] at wellFormed
  exact wellFormed.2 _ mem

/-- The path without the separators at its end, before it is simplified. -/
def sandboxFullPath (bundleName inputLocalPath : Bytes) : Bytes :=
  (popSeps (child (sandboxRootDir ++ bundleName) inputLocalPath).reverse).reverse

theorem sandboxSubPath_eq (bundleName inputLocalPath appDir : Bytes) :
    sandboxSubPath bundleName inputLocalPath appDir =
      if (pathSimplify (sandboxFullPath bundleName inputLocalPath)).length > appDir.length + 1 then
        getPathWithoutFilename (pathSimplify (sandboxFullPath bundleName inputLocalPath))
      else pathSimplify (sandboxFullPath bundleName inputLocalPath) := rfl

theorem sandboxFullPath_split (bundleName inputLocalPath : Bytes) :
    ∃ seps, (∀ byte ∈ seps, byte = 47) ∧ sandboxFullPath bundleName inputLocalPath ++ seps =
    child (sandboxRootDir ++ bundleName) inputLocalPath := by
  obtain ⟨seps, only, split⟩ :=
    popSeps_split (child (sandboxRootDir ++ bundleName) inputLocalPath).reverse
  refine ⟨seps.reverse, fun byte mem => only _ (mem_reverse.mp mem), ?_⟩
  rw [sandboxFullPath, ← reverse_append, split, reverse_reverse]

theorem getPathWithoutFilename_isPrefix (path : Bytes) : getPathWithoutFilename path <+: path := by
  unfold getPathWithoutFilename
  split
  · exact List.rdropWhile_prefix _ _
  · exact prefix_refl _

/-- A path in the sandbox is the simplified one, or its beginning. -/
theorem sandboxSubPath_isPrefix (bundleName inputLocalPath appDir : Bytes) :
    sandboxSubPath bundleName inputLocalPath appDir <+:
    pathSimplify (sandboxFullPath bundleName inputLocalPath) := by
  rw [sandboxSubPath_eq]
  split
  · exact getPathWithoutFilename_isPrefix _
  · exact prefix_refl _

variable {bundleName input : Bytes}

theorem sandboxSubPath_free (appDir : Bytes) (wellFormed : checkBundleName bundleName = true)
    (free : 0 ∉ input) : 0 ∉ sandboxSubPath bundleName input appDir := by
  intro mem
  have simplified := (sandboxSubPath_isPrefix _ _ _).subset mem
  rcases mem_cons.mp (subset_of_pathSimplify _ simplified) with zero | mem
  · cases zero
  · obtain ⟨seps, -, split⟩ := sandboxFullPath_split bundleName input
    have whole := mem_append_left seps mem
    rw [split] at whole
    simp only [child, mem_append, mem_cons] at whole
    rcases whole with (root | bundle) | zero | inside
    · exact absurd root (by decide)
    · exact absurd (isBundleChar_of_mem wellFormed bundle) (by decide)
    · cases zero
    · exact free inside

theorem bundleName_ne_up {bundleName : Bytes} (wellFormed : checkBundleName bundleName = true) :
    str ".." ∉ names 47 bundleName := by
  have slash : 47 ∉ bundleName := fun mem =>
    absurd (isBundleChar_of_mem wellFormed mem) (by decide)
  intro mem
  rw [names_of_free slash] at mem
  split at mem
  · cases mem
  · obtain rfl := mem_singleton.mp mem
    exact absurd wellFormed (by decide)

/-- A path without `..` has none in the sandbox. -/
theorem up_notMem_sandboxFullPath (wellFormed : checkBundleName bundleName = true)
    (plain : checkPathTraversal input = true) :
    str ".." ∉ names 47 (sandboxFullPath bundleName input) := by
  obtain ⟨_, only, split⟩ := sandboxFullPath_split bundleName input
  have root : sandboxRootDir.getLast? = some 47 := by decide
  rw [← names_append_seps _ only, split, child, names_append_sep, names_append_of_getLast? root]
  simp only [mem_append, not_or]
  exact ⟨⟨by decide, bundleName_ne_up wellFormed⟩, up_notMem_names (.inl rfl) plain⟩

theorem names_getPathWithoutFilename (path : Bytes) :
    names 47 (getPathWithoutFilename path) ⊆ names 47 path := by
  unfold getPathWithoutFilename
  split
  case isFalse => exact List.Subset.refl _
  case isTrue =>
    rw [names_split_last path]
    exact subset_append_left _ _

theorem names_getFullFilePath (path : Bytes) : names 47 (getFullFilePath path).2 = names 47 path ∧
    names 47 (getFullFilePath path).1 ⊆ names 47 path := by
  obtain ⟨_, only, split⟩ := getFullFilePath_split path
  have same := names_append_seps (getFullFilePath path).2 only
  rw [split] at same
  refine ⟨same.symm, ?_⟩
  rw [same, names_split_last (getFullFilePath path).2]
  exact subset_append_right _ _

/-- A path keeps its letters up to a separator, though not its last name. -/
theorem prefix_getPathWithoutFilename {front path : Bytes} (begins : front ++ [47] <+: path) :
    front ++ [47] <+: getPathWithoutFilename path := by
  unfold getPathWithoutFilename
  split
  case isFalse => exact begins
  case isTrue =>
    rw [← @rdropWhile_append_rtakeWhile _ (· ≠ 47) path] at begins
    refine prefix_of_append (fun mem => ?_) begins
    simpa using mem_rtakeWhile_imp mem

/-! ### Where the files of a directory are looked for -/

/-- The path up to its last name, and the name; the same path again, unless it has no
separator. -/
def startDir (path : Bytes) : Bytes :=
  getPathWithoutFilename (getFullFilePath path).2 ++ (getFullFilePath path).1

variable {path : Bytes}

theorem startDir_of_mem (sep : 47 ∈ (getFullFilePath path).2) :
    startDir path = (getFullFilePath path).2 := by
  rw [startDir, getPathWithoutFilename, if_pos sep]
  exact rdropWhile_append_rtakeWhile

theorem startDir_free (free : 0 ∉ path) : 0 ∉ startDir path := by
  obtain ⟨name, whole⟩ := getFullFilePath_subset path
  rw [startDir, mem_append, not_or]
  exact ⟨fun mem => free (whole ((getPathWithoutFilename_isPrefix _).subset mem)),
    fun mem => free (name mem)⟩

/-- In the sandbox a path leads below its root. -/
theorem place_sandboxFullPath (wellFormed : checkBundleName bundleName = true)
    (plain : checkPathTraversal input = true) :
    ∃ below, place 47 dot (sandboxFullPath bundleName input) =
    names 47 sandboxRootDir ++ below := by
  have down := up_notMem_sandboxFullPath wellFormed plain
  obtain ⟨_, only, split⟩ := sandboxFullPath_split bundleName input
  have root : sandboxRootDir.getLast? = some 47 := by decide
  have parts : names 47 (sandboxFullPath bundleName input) =
      names 47 sandboxRootDir ++ (names 47 bundleName ++ names 47 input) := by
    rw [← names_append_seps _ only, split, child, names_append_sep,
      names_append_of_getLast? root, append_assoc]
  rw [goesUp_eq, parts] at down
  have kept : (names 47 sandboxRootDir).filter (· ≠ [dot]) = names 47 sandboxRootDir := by decide
  refine ⟨(names 47 bundleName ++ names 47 input).filter (· ≠ [dot]), ?_⟩
  rw [place, parts, follow_plain down, filter_append, nil_append, kept]

theorem pathSimplify_sandboxFullPath (wellFormed : checkBundleName bundleName = true)
    (plain : checkPathTraversal input = true) :
    pathSimplify (sandboxFullPath bundleName input) =
    render 47 (place 47 dot (sandboxFullPath bundleName input)) := by
  obtain ⟨_, located⟩ := place_sandboxFullPath wellFormed plain
  have rooted : names 47 sandboxRootDir ≠ [] := by decide
  have full : place 47 dot (sandboxFullPath bundleName input) ≠ [] := by
    rw [located]
    exact fun empty => rooted (append_eq_nil_iff.mp empty).1
  rw [pathSimplify_eq_render, if_neg full]

section InSandbox

variable {bundleName input : Bytes} (appDir : Bytes)
  (wellFormed : checkBundleName bundleName = true) (plain : checkPathTraversal input = true)

include wellFormed plain

/-- The letters that a path in the sandbox begins with. -/
theorem sandboxSubPath_begins :
    str "/mnt/debug/100" ++ [47] <+: sandboxSubPath bundleName input appDir := by
  obtain ⟨_, located⟩ := place_sandboxFullPath wellFormed plain
  have root : str "/mnt/debug/100" ++ [47] <+: render 47 (names 47 sandboxRootDir) := by decide
  have begins : str "/mnt/debug/100" ++ [47] <+:
      pathSimplify (sandboxFullPath bundleName input) := by
    rw [pathSimplify_sandboxFullPath wellFormed plain, located]
    exact root.trans (prefix_append _ _)
  rw [sandboxSubPath_eq]
  split
  · exact prefix_getPathWithoutFilename begins
  · exact begins

/-- It does not go up. -/
theorem up_notMem_sandboxSubPath : str ".." ∉ names 47 (sandboxSubPath bundleName input appDir) := by
  have simplified : names 47 (pathSimplify (sandboxFullPath bundleName input)) ⊆
      names 47 (sandboxFullPath bundleName input) := by
    rw [pathSimplify_sandboxFullPath wellFormed plain, names_render]
    · exact fun name mem => mem_names_of_mem_place mem
    · exact fun name mem => isName_of_mem_names (mem_names_of_mem_place mem)
  intro mem
  refine up_notMem_sandboxFullPath wellFormed plain (simplified ?_)
  rw [sandboxSubPath_eq] at mem
  split at mem
  · exact names_getPathWithoutFilename _ mem
  · exact mem

end InSandbox

/-- The place of a path that begins with the root of the sandboxes. -/
theorem place_of_begins (begins : str "/mnt/debug/10" ++ [48] <+: path)
    (down : str ".." ∉ names 47 path) : ∃ below, place 47 dot path = str "mnt" :: below := by
  obtain ⟨rest, rfl⟩ := begins
  have front : str "/mnt/debug/10" ++ [48] ++ rest =
      str "/mnt" ++ 47 :: (str "debug/100" ++ rest) := by
    rw [show str "/mnt/debug/10" ++ [48] = str "/mnt" ++ 47 :: str "debug/100" by decide,
      append_assoc, cons_append]
  have first : names 47 (str "/mnt") = [str "mnt"] := by decide
  have kept : [str "mnt"].filter (· ≠ [dot]) = [str "mnt"] := by decide
  rw [front, goesUp_eq, names_append_sep] at down
  refine ⟨(names 47 (str "debug/100" ++ rest)).filter (· ≠ [dot]), ?_⟩
  rw [place, front, names_append_sep, follow_plain down, first, filter_append, kept,
    nil_append, singleton_append]

/-- A path in the sandbox leads to a place below `/mnt`. -/
theorem place_startDir_of_inSandbox (inside : InSandbox path) :
    ∃ below, place 47 dot (startDir path) = str "mnt" :: below := by
  obtain ⟨_, _, _, wellFormed, plain, -, located⟩ := inside
  have begins : str "/mnt/debug/10" ++ [48] <+: (getFullFilePath path).2 := by
    obtain ⟨seps, only, split⟩ := getFullFilePath_split path
    have longer : str "/mnt/debug/10" ++ [48] <+: str "/mnt/debug/100" ++ [47] := by decide
    refine @prefix_of_append _ _ _ seps _ (fun mem => absurd (only _ mem) (by decide)) ?_
    rw [split, located]
    exact (longer.trans (sandboxSubPath_begins _ wellFormed plain)).trans
      (prefix_append _ _)
  have down : str ".." ∉ names 47 (getFullFilePath path).2 := by
    rw [(names_getFullFilePath path).1, located, child, names_append_sep, mem_append, not_or]
    refine ⟨up_notMem_sandboxSubPath _ wellFormed plain, fun mem => ?_⟩
    exact up_notMem_names (.inl rfl) plain ((names_getFullFilePath _).2 mem)
  have sep : (47 : UInt8) ∈ (getFullFilePath path).2 := begins.subset (by decide)
  rw [startDir_of_mem sep]
  exact place_of_begins begins down

theorem checkMasterBundle_always (ctx : CtxFile) :
    Always (OnTouch T) (fun out => out.2 = ctx ∧ (out.1 = true →
    ¬ (ctx.sandboxMode = true ∧ ctx.transferConfig.reserve1 ≠ [] ∧
    checkBundleName ctx.transferConfig.reserve1 = false))) (checkMasterBundle ctx) := by
  unfold checkMasterBundle
  dsimp only
  split
  case isTrue =>
    refine (isValidBundlePath_always _).bind fun valid named => ?_
    cases valid with
    | true => exact ⟨rfl, fun _ refused => by simp [named rfl] at refused⟩
    | false => simp
  case isFalse plain => exact ⟨rfl, fun _ refused => plain ⟨refused.1, refused.2.1⟩⟩

/-- The path stays as it is, or moves into the sandbox. -/
theorem enterMasterSandbox_always (ctx : CtxFile)
    (bundle : ctx.bundleName = ctx.transferConfig.reserve1) :
    Always (OnTouch T) (fun out => out.2.taskQueue = ctx.taskQueue ∧
    (out.1 = true → out.2.localPath = ctx.localPath ∨
    ctx.sandboxMode = true ∧ checkBundleName ctx.bundleName = true ∧
    checkPathTraversal ctx.inputLocalPath = true ∧ ∃ appDir, out.2.localPath =
    child (sandboxSubPath ctx.bundleName ctx.inputLocalPath appDir) ctx.localName))
    (enterMasterSandbox ctx) := by
  unfold enterMasterSandbox
  cases sandbox : ctx.sandboxMode with
  | false => exact ⟨rfl, fun _ => .inl rfl⟩
  | true =>
    simp only [if_true]
    refine (isValidBundlePath_always _).bind fun valid named => ?_
    cases valid with
    | false => exact ⟨rfl, fun _ => .inl rfl⟩
    | true =>
      simp only [if_true]
      refine (checkSandboxSubPath_always _).bind fun resolved inside => ?_
      cases resolved with
      | none => simp
      | some resolvedPath =>
        obtain ⟨plain, appDir, rfl⟩ := inside resolvedPath rfl
        refine ⟨rfl, fun _ => .inr ⟨trivial, ?_, plain, _, rfl⟩⟩
        rw [bundle]
        exact named rfl

theorem takeLastPath_free (free : ∀ arg ∈ argv, 0 ∉ arg)
    (fine : parseMasterParameters false {} argv = (none, ctx, index)) :
    0 ∉ (takeLastPath ctx argv index).localPath := by
  unfold takeLastPath
  split
  · exact getD_free free _
  · exact (parseMasterParameters_parsed free fine).2.2.1

variable {params : Bytes}

theorem setMasterParametersOnDaemon_always (split : Base.splitCommandToArgs params = some argv)
    (enough : ¬ argv.length < 2) (fine : parseMasterParameters false {} argv = (none, ctx, index)) :
    Always (OnTouch T) (fun out => out.2.taskQueue = [] ∧
    (out.1 = true → Found params out.2.localPath ∧ 0 ∉ out.2.localPath))
    (setMasterParametersOnDaemon ctx argv index) := by
  have free := splitCommandToArgs_free split
  obtain ⟨parsed, input, pathFree, single⟩ := parseMasterParameters_parsed free fine
  have lastFree := takeLastPath_free free fine
  have sameBundle : (takeLastPath ctx argv index).setLocalName.bundleName =
      (takeLastPath ctx argv index).setLocalName.transferConfig.reserve1 := by
    unfold takeLastPath
    split <;> exact parsed.bundle
  have sameQueue : (takeLastPath ctx argv index).setLocalName.taskQueue = [] := by
    unfold takeLastPath
    split <;> exact parsed.queue
  refine (checkMasterBundle_always _).andThen ?_ ?_
  · rintro value ⟨same, named⟩
    have named := named rfl
    rw [show value = ctx from same]
    have given : masterPath params = some (takeLastPath ctx argv index).localPath := by
      rw [masterPath, split]
      simp only [fine, if_neg enough]
      exact if_neg named
    refine (enterMasterSandbox_always _ sameBundle).mono fun out located => ?_
    refine ⟨located.1.trans sameQueue, fun passed => ?_⟩
    rcases located.2 passed with stays | ⟨sandbox, wellFormed, plain, appDir, moved⟩
    · rw [stays]
      refine ⟨.inl ⟨_, given, rfl⟩, fun mem => ?_⟩
      exact lastFree ((getFullFilePath_subset _).2 mem)
    · have unchanged : (takeLastPath ctx argv index).localPath = ctx.inputLocalPath ∧
          (takeLastPath ctx argv index).inputLocalPath = ctx.inputLocalPath ∧
          (takeLastPath ctx argv index).sandboxMode = ctx.sandboxMode := by
        unfold takeLastPath at sandbox ⊢
        split
        case isTrue last =>
          rw [if_pos last] at sandbox
          exact ⟨(single sandbox last).symm.trans input.symm, rfl, rfl⟩
        case isFalse => exact ⟨input.symm, rfl, rfl⟩
      have name : (takeLastPath ctx argv index).setLocalName.localName =
          (getFullFilePath ctx.inputLocalPath).1 := by
        rw [← unchanged.1]
        rfl
      have inputSame : (takeLastPath ctx argv index).setLocalName.inputLocalPath =
          ctx.inputLocalPath := unchanged.2.1
      have inputFree : 0 ∉ ctx.inputLocalPath := input ▸ pathFree
      rw [inputSame] at plain moved
      rw [name] at moved
      refine ⟨.inr ⟨_, ctx.inputLocalPath, _, wellFormed, plain, inputFree, moved⟩, ?_⟩
      rw [moved, child, mem_append, mem_cons]
      rintro (resolved | zero | last)
      · exact sandboxSubPath_free _ wellFormed inputFree resolved
      · cases zero
      · exact inputFree ((getFullFilePath_subset _).1 last)
  · rintro value ⟨same, -⟩
    rw [show value = ctx from same]
    exact ⟨parsed.queue, fun passed => by cases passed⟩

/-! ### The files of a directory -/

/-- A name that a scan can find. -/
abbrev ScanName (s : Bytes) : Prop := IsName 47 s ∧ 0 ∉ s ∧ s ≠ str "." ∧ s ≠ str ".."

/-- A path below a directory, along names that a directory can hold. -/
def Below (dir path : Bytes) : Prop :=
  ∃ layers : List Bytes, layers ≠ [] ∧ (∀ s ∈ layers, ScanName s) ∧ path = dir ++ render 47 layers

theorem Below.of_child {dir name path : Bytes} (named : IsName 47 name) (ended : 0 ∉ name)
    (plain : ¬ (name = str "." ∨ name = str "..")) (below : Below (child dir name) path) :
    Below dir path := by
  obtain ⟨layers, -, each, rfl⟩ := below
  refine ⟨name :: layers, cons_ne_nil _ _, ?_, by simp [child]⟩
  simp only [mem_cons, forall_eq_or_imp]
  exact ⟨⟨named, ended, not_or.mp plain⟩, each⟩

theorem Below.append (front : Bytes) {dir path : Bytes} (below : Below dir path) :
    Below (front ++ dir) (front ++ path) := by
  obtain ⟨layers, full, each, rfl⟩ := below
  exact ⟨layers, full, each, (append_assoc _ _ _).symm⟩

theorem Below.free {dir path : Bytes} (below : Below dir path) (free : 0 ∉ dir) : 0 ∉ path := by
  obtain ⟨_, -, each, rfl⟩ := below
  rw [mem_append, not_or]
  refine ⟨free, fun mem => ?_⟩
  obtain ⟨s, inside, mem⟩ := mem_flatMap.mp mem
  rcases mem_cons.mp mem with zero | mem
  · cases zero
  · exact (each s inside).2.1 mem

/-- A scan finds files below the directory only. -/
theorem below_of_mem_subFilesFrom {currentDirname path : Bytes} {entries : Entries}
    (mem : path ∈ (subFilesFrom currentDirname entries).1) : Below currentDirname path := by
  induction entries generalizing currentDirname path with
  | nil => cases mem
  | cons name type scan below rest belowIh restIh =>
    unfold subFilesFrom at mem
    dsimp only at mem
    split at mem
    case isTrue => exact restIh mem
    case isFalse plain =>
      split at mem
      case isTrue =>
        cases scan with
        | none => exact restIh mem
        | some found =>
          rcases mem_append.mp mem with mem | mem
          · exact (belowIh mem).of_child name.named name.ended plain
          · exact restIh mem
      case isFalse =>
        rcases mem_cons.mp mem with rfl | mem
        · refine ⟨[name.bytes], cons_ne_nil _ _, ?_, by simp [child]⟩
          intro s inside
          obtain rfl := mem_singleton.mp inside
          exact ⟨name.named, name.ended, not_or.mp plain⟩
        · exact restIh mem

theorem getSubFilesRecursively_always (path currentDirname : Bytes) :
    Always (OnTouch T)
    (fun out => ∀ q ∈ out.1, path ≠ [] ∧ Below currentDirname q)
    (getSubFilesRecursively path currentDirname) := by
  unfold getSubFilesRecursively
  split
  case isTrue => exact nofun
  case isFalse full =>
    rw [always_scandir_bind]
    intro answer
    cases answer with
    | none => exact nofun
    | some scanned => exact fun q mem => ⟨full, below_of_mem_subFilesFrom mem⟩

/-- What the queue holds. -/
def Queued (path : Bytes) (ctx : CtxFile) : Prop :=
  ∀ q ∈ ctx.taskQueue,
    (getFullFilePath path).2 ≠ [] ∧ Below (startDir path) (ctx.localDirName ++ q)

theorem setTaskQueue_always (queue : ctx.taskQueue = []) (free : 0 ∉ ctx.localPath) :
    Always (OnTouch T)
    (fun out => Queued ctx.localPath out.2 ∧ (out.1 = true → 0 ∉ out.2.localPath))
    (setTaskQueue ctx) := by
  unfold setTaskQueue
  have wholeFree : 0 ∉ (getFullFilePath ctx.localPath).2 := fun mem =>
    free ((getFullFilePath_subset _).2 mem)
  refine (checkDirectoryOrPath_always _ _).bind fun kind _ => ?_
  obtain ⟨_, directory⟩ := kind
  cases directory with
  | false =>
    have empty : ctx.setLocalName.taskQueue = [] := queue
    exact ⟨fun q mem => by simp [empty] at mem, fun _ => wholeFree⟩
  | true =>
    refine (getSubFilesRecursively_always _ _).bind fun found below => ?_
    obtain ⟨files, _⟩ := found
    have all : ∀ q ∈ ctx.setLocalName.taskQueue ++ files, (getFullFilePath ctx.localPath).2 ≠ [] ∧
        Below (startDir ctx.localPath)
          (getPathWithoutFilename (getFullFilePath ctx.localPath).2 ++ q) := by
      intro q mem
      rw [show ctx.setLocalName.taskQueue = [] from queue, nil_append] at mem
      exact ⟨(below q mem).1, (below q mem).2.append _⟩
    dsimp only
    split
    case h_1 nothing =>
      rw [getLast?_eq_none_iff] at nothing
      rw [always_logMsg_bind]
      refine ⟨fun q mem => ?_, nofun⟩
      rw [show _ = [] from nothing] at mem
      cases mem
    case h_2 last ends =>
      refine ⟨fun q mem => all q (dropLast_subset _ mem), fun _ => ?_⟩
      exact (all last (mem_of_getLast? ends)).2.free (startDir_free free)

theorem parseMasterParameters_queue (argv : List Bytes) :
    (parseMasterParameters false {} argv).2.1.taskQueue = [] := by
  have start : Parsed ({} : CtxFile) := ⟨rfl, rfl, rfl⟩
  have options := @parseMasterFrom_parsed argv.length 0 {} argv start
  unfold parseMasterParameters
  split
  case h_1 middle src same =>
    rw [same] at options
    exact options.queue
  case h_2 middle src same =>
    rw [same] at options
    unfold validateAndSetPaths
    dsimp only
    split_ifs <;> exact options.queue

/-- The queue of a command line, refused or not. -/
def QueuedFor (params : Bytes) (ctx : CtxFile) : Prop :=
  ∀ q ∈ ctx.taskQueue, ∃ path, Found params path ∧ 0 ∉ path ∧
    (getFullFilePath path).2 ≠ [] ∧ Below (startDir path) (ctx.localDirName ++ q)

theorem queuedFor_of_nil (queue : ctx.taskQueue = []) : QueuedFor params ctx := by
  intro q mem
  rw [queue] at mem
  cases mem

theorem setMasterParameters_always (args : Base.splitCommandToArgs params = some argv)
    (enough : ¬ argv.length < 2) :
    Always (OnTouch T)
    (fun out => QueuedFor params out.2 ∧ (out.1 = true → 0 ∉ out.2.localPath))
    (setMasterParameters false {} argv) := by
  have queue := parseMasterParameters_queue argv
  unfold setMasterParameters
  split
  case h_1 error ctx index parsed =>
    rw [parsed] at queue
    rw [always_logMsg_bind]
    exact ⟨queuedFor_of_nil queue, nofun⟩
  case h_2 ctx index parsed =>
    refine (setMasterParametersOnDaemon_always args enough parsed).andThen ?_ ?_
    · rintro value ⟨empty, found⟩
      obtain ⟨path, free⟩ := found rfl
      refine (setTaskQueue_always empty free).mono fun out queued => ⟨fun q mem => ?_, queued.2⟩
      exact ⟨value.localPath, path, free, queued.1 q mem⟩
    · exact fun value stopped => ⟨queuedFor_of_nil stopped.1, nofun⟩

/-- The first file passes the blacklist; the others are queued. -/
theorem beginTransfer_always
    (allowed : ∀ path, containsBlacklistedSubstring path = false → 0 ∉ path →
    T (.read, cStr path)) :
    Always (OnTouch T) (fun out => QueuedFor params out.2) (beginTransfer false {} params) := by
  unfold beginTransfer
  split
  case h_1 =>
    rw [always_logMsg_bind]
    exact queuedFor_of_nil rfl
  case h_2 argv args =>
    split
    case isTrue =>
      rw [always_logMsg_bind]
      exact queuedFor_of_nil rfl
    case isFalse enough =>
      refine Always.andThen (Q := fun out => QueuedFor params out.2 ∧ (out.1 = true →
        containsBlacklistedSubstring out.2.localPath = false ∧ 0 ∉ out.2.localPath)) ?_ ?_ ?_
      · refine Always.andThen (Q := fun out => QueuedFor params out.2 ∧ (out.1 = true →
          0 ∉ out.2.localPath)) ?_ ?_ ?_
        · exact setMasterParameters_always args enough
        · rintro value ⟨queued, free⟩
          refine (checkBlacklistPath_always value).mono fun out listed => ?_
          rw [listed.1]
          exact ⟨queued, fun passed => ⟨listed.2 passed, free rfl⟩⟩
        · exact fun value stopped => ⟨stopped.1, nofun⟩
      · rintro value ⟨queued, fine⟩
        refine always_touch_bind (fun _ => rfl) (allowed _ (fine rfl).1 (fine rfl).2) ?_
        exact fun _ => queued
      · exact fun value stopped => stopped.1

/-! ### A command line and what comes after it -/

/-- What a task is told after `CMD_FILE_INIT`, by the peer or by the file system. -/
inductive Later where
  /-- `CMD_FILE_FINISH` -/
  | finish (payload : Bytes)
  /-- `CMD_FILE_MODE` -/
  | fileMode (payload : Bytes)
  /-- `CMD_DIR_MODE` -/
  | dirMode (payload : Bytes)
  /-- The result of an open. -/
  | opened (result : Except Bytes Stat)

def laterStep (isStableBuf : Bool) (ctx : CtxFile) : Later → Program CtxFile
  | .finish payload => fileFinish ctx payload
  | .fileMode payload => fileModeSync ctx .fileMode payload
  | .dirMode payload => fileModeSync ctx .dirMode payload
  | .opened result => onFileOpen false isStableBuf ctx result

/-- A fresh task of the daemon gets a command line. Where it is refused, the task is not
removed: the peer may go on with it. -/
def masterRun (isStableBuf : Bool) (params : Bytes) (later : List Later) : Program CtxFile := do
  let out ← beginTransfer false {} params
  later.foldlM (laterStep isStableBuf) out.2

/-- A later step opens at most a file of the queue. -/
structure Follows (ctx out : CtxFile) : Prop where
  queue : out.taskQueue ⊆ ctx.taskQueue
  directory : out.localDirName = ctx.localDirName

theorem Follows.refl (ctx : CtxFile) : Follows ctx ctx := ⟨List.Subset.refl _, rfl⟩

section Later

variable {ctx : CtxFile} (queued : ∀ q ∈ ctx.taskQueue, T (.read, cStr (ctx.localDirName ++ q)))

include queued

theorem fileFinish_always (payload : Bytes) :
    Always (OnTouch T) (Follows ctx) (fileFinish ctx payload) := by
  unfold fileFinish
  dsimp only
  split
  case isFalse =>
    rw [taskFinish, always_sendToAnother_bind]
    exact .refl _
  case isTrue =>
    split
    case isFalse =>
      rw [always_sendToAnother_bind]
      exact .refl _
    case isTrue more =>
      refine always_touch_bind (fun _ => rfl) (queued _ ?_) fun _ => ?_
      · rw [getLastD_eq_getLast?, getLast?_eq_some_getLast more.2]
        exact getLast_mem more.2
      · exact ⟨dropLast_subset _, rfl⟩

omit queued in
theorem fileModeSync_always (command : HdcCommand) (payload : Bytes) :
    Always (OnTouch T) (Follows ctx) (fileModeSync ctx command payload) := by
  unfold fileModeSync
  split
  case isTrue =>
    split
    · rw [always_sendToAnother_bind]
      exact ⟨List.Subset.refl _, rfl⟩
    · rw [always_sendToAnother_bind]
      exact .refl _
  case isFalse =>
    dsimp only
    rw [always_sendToAnother_bind, always_pure]
    split_ifs <;> exact ⟨List.Subset.refl _, rfl⟩

section

variable (changed : ∀ path, T (.changed, path)) (isStableBuf : Bool)
include changed isStableBuf

theorem onFileOpen_always (result : Except Bytes Stat) :
    Always (OnTouch T) (Follows ctx) (onFileOpen false isStableBuf ctx result) := by
  cases result with
  | error reason =>
    refine (removeSandboxRootPath_always _ _ _).bind fun localPath _ => ?_
    rw [always_logMsg_bind]
    split_ifs
    · exact fileFinish_always queued [1]
    · rw [always_sendToAnother_bind]
      exact .refl _
    · rw [taskFinish, always_sendToAnother_bind]
      exact .refl _
  | ok found =>
    dsimp only [onFileOpen]
    split
    case isTrue =>
      unfold checkMaster
      split
      all_goals
        rw [always_sendToAnother_bind]
        exact ⟨List.Subset.refl _, rfl⟩
    case isFalse =>
      split
      case isTrue =>
        refine always_touch_bind (fun _ => rfl) (changed _) fun _ => ?_
        refine always_touch_bind (fun _ => rfl) (changed _) fun _ => ?_
        rw [always_sendToAnother_bind]
        exact .refl _
      case isFalse =>
        rw [always_sendToAnother_bind]
        exact .refl _

theorem laterStep_always (event : Later) : Always (OnTouch T) (Follows ctx) (laterStep isStableBuf ctx event) := by
  cases event with
  | finish payload => exact fileFinish_always queued _
  | fileMode payload => exact fileModeSync_always .fileMode _
  | dirMode payload => exact fileModeSync_always .dirMode _
  | opened result => exact onFileOpen_always queued changed _ _

theorem later_always (later : List Later) :
    Always (OnTouch T) (fun _ => True) (later.foldlM (laterStep isStableBuf) ctx) := by
  induction later generalizing ctx with
  | nil => exact trivial
  | cons event later ih =>
    rw [foldlM_cons]
    refine (laterStep_always queued changed _ _).bind fun out follows => ih ?_
    intro q mem
    rw [follows.directory]
    exact queued q (follows.queue mem)

end

end Later

/-- In every run, what is opened passed the blacklist or was found below a directory. -/
theorem masterRun_always (isStableBuf : Bool) (params : Bytes) (later : List Later)
    (changed : ∀ path, T (.changed, path))
    (allowed : ∀ path, containsBlacklistedSubstring path = false → 0 ∉ path →
    T (.read, cStr path))
    (below : ∀ dir path, Found params dir → 0 ∉ dir → (getFullFilePath dir).2 ≠ [] →
    Below (startDir dir) path → T (.read, cStr path)) :
    Always (OnTouch T) (fun _ => True) (masterRun isStableBuf params later) := by
  refine (beginTransfer_always allowed).bind fun out queued => ?_
  refine later_always (fun q mem => ?_) changed isStableBuf later
  obtain ⟨dir, found, free, full, path⟩ := queued q mem
  exact below _ _ found free full path

end Hdc.Transfer
