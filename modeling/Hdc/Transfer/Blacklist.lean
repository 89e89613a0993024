import Hdc.Transfer.Accepted
import Hdc.Transfer.Send

/-!
The paths that a transfer must not touch.

`CheckBlacklistPath` looks at one path: at the target of a `CMD_FILE_CHECK` before the
names in it are entered, and at the first file of a directory of a `CMD_FILE_INIT`. What
is built from it later is not looked at again. So a target above a listed path passes,
and a name leads from there into it; and of the files of a directory only one is ever
compared with the list.

* `checkSafe_iff`: the configurations that keep away from the list once accepted;
* `initSafe_iff`: the command lines that do, for every file system and every peer;
* `listed_untouched_iff`: both together.
-/

namespace Hdc.Transfer

open Interaction LexicalPath SerialStruct List

/-! ### Listed paths -/

/-- After `PathSimplify` the path begins with the letters of a listed one. -/
def Forbidden (path : Bytes) : Prop := ∃ listed ∈ blacklistFiles, listed <+: pathSimplify path

instance (path : Bytes) : Decidable (Forbidden path) :=
  inferInstanceAs (Decidable (∃ listed ∈ blacklistFiles, _))

/-- What is used of the listed paths: they are written as places are, without NUL, and do not
end in dots. -/
theorem blacklistFiles_plain : ∀ listed ∈ blacklistFiles,
    render 47 (names 47 listed) = listed ∧ 0 ∉ listed ∧ ¬ listed <+: [47] ∧
    ∀ dots ∈ [dot, dot].inits, ¬ 47 :: dots <:+ listed := by
  decide

theorem forbidden_iff (path : Bytes) :
    Forbidden path ↔ ∃ listed ∈ blacklistFiles, listed <+: render 47 (place 47 dot path) := by
  refine exists_congr fun listed => and_congr_right fun mem => ?_
  have long := (blacklistFiles_plain _ mem).2.2.1
  rw [pathSimplify_eq_render]
  split
  case isFalse => exact Iff.rfl
  case isTrue root =>
    rw [root]
    refine iff_of_false long fun nothing => long ?_
    exact nothing.trans List.nil_prefix

/-- Paths that lead to one place are listed together. -/
theorem Forbidden.of_place_eq {path other : Bytes} (same : place 47 dot path = place 47 dot other)
    (forbidden : Forbidden path) : Forbidden other := by
  rw [forbidden_iff] at forbidden ⊢
  rwa [← same]

/-- What a path without `..` is cut off to is listed only if the path is. -/
theorem Forbidden.mono {text whole : Bytes} (cut : text <+: whole)
    (plain : str ".." ∉ names 47 whole) (forbidden : Forbidden text) : Forbidden whole := by
  rw [forbidden_iff] at forbidden ⊢
  obtain ⟨_, mem, begins⟩ := forbidden
  exact ⟨_, mem, begins.trans (render_place_isPrefix cut plain)⟩

theorem not_forbidden_of_unlisted {path : Bytes}
    (unlisted : containsBlacklistedSubstring path = false) : ¬ Forbidden path := by
  rintro ⟨_, mem, begins⟩
  simp only [containsBlacklistedSubstring, any_eq_false, decide_eq_true_eq] at unlisted
  exact unlisted _ mem begins.isInfix

/-! ### Layers -/

/-- The layers of a target are not listed if the target is not. -/
theorem not_forbidden_of_mem_localLayers {target path : Bytes}
    (plain : str ".." ∉ names 47 target) (unlisted : ¬ Forbidden target)
    (mem : path ∈ localLayers target) : ¬ Forbidden (cStr path) := by
  intro forbidden
  obtain ⟨_, shorter, shape⟩ := exists_render_of_mem_layerPaths mem
  rw [Base.splitString_eq_names] at shorter
  have startNames : ∀ absolute : Bool, names 47 (if absolute then [] else str ".") = [] ∨
      names 47 (if absolute then [] else str ".") = [[dot]] := by decide
  replace startNames := startNames (Base.isAbsolutePath target)
  generalize (if Base.isAbsolutePath target then [] else str ".") = first at shape startNames
  -- the whole target, written as its layers are
  generalize written : first ++ render 47 ((names 47 target).filter (· ≠ str ".")) = whole
  have cut : cStr path <+: whole := by
    rw [shape, ← written]
    exact (cStr_isPrefix _).trans ((prefix_append_right_inj _).mpr (render_isPrefix shorter))
  have wholeNames : names 47 whole = names 47 first ++ (names 47 target).filter (· ≠ str ".") := by
    rw [← written]
    exact names_append_render _ fun name inside =>
      isName_of_mem_names (mem_of_mem_filter inside)
  have wholePlain : str ".." ∉ names 47 whole := by
    rw [wholeNames, mem_append, not_or]
    refine ⟨?_, fun inside => plain (mem_of_mem_filter inside)⟩
    rcases startNames with start | start <;> rw [start] <;> decide
  have samePlace : place 47 dot whole = place 47 dot target := by
    rw [goesUp_eq] at plain
    have filtered : [dot, dot] ∉ (names 47 target).filter (· ≠ str ".") := fun inside =>
      plain (mem_of_mem_filter inside)
    rw [place, wholeNames, place, follow_append, follow_plain plain]
    have start : follow dot [] (names 47 first) = [] := by
      rcases startNames with start | start <;> rw [start] <;> rfl
    rw [start, follow_plain filtered, stays_eq]
    simp
  exact unlisted ((forbidden.mono cut wholePlain).of_place_eq samePlace)

/-- The place of a path that is continued by one name. -/
theorem place_append_name {base name : Bytes} (free : 47 ∉ name) (plain : str ".." ≠ name) :
    place 47 dot (base ++ 47 :: name) =
    place 47 dot base ++ if name = [] ∨ name = [dot] then [] else [name] := by
  rw [place, names_append_sep, follow_append, names_of_free free, ← place]
  by_cases empty : name = []
  · simp [empty, follow]
  · by_cases stays : name = [dot]
    · simp [stays, follow, enter]
    · rw [goesUp_eq] at plain
      simp [empty, stays, follow, enter, Ne.symm plain]

theorem prefix_cStr {listed text : Bytes} (free : 0 ∉ listed) (begins : listed <+: text) :
    listed <+: cStr text := by
  obtain ⟨_, rfl⟩ := begins
  rw [cStr_append, if_neg free]
  exact prefix_append _ _

/-- A name that makes a path listed does so with the letters that the file system sees. -/
theorem forbidden_cStr_append {base name : Bytes} (named : IsName 47 name)
    (plain : str ".." ∉ names 47 (base ++ 47 :: name)) (before : ¬ Forbidden base)
    (forbidden : Forbidden (base ++ 47 :: name)) : Forbidden (cStr (base ++ 47 :: name)) := by
  rw [names_append_sep, mem_append, not_or] at plain
  have down : str ".." ≠ name := by
    rintro rfl
    exact plain.2 (by decide)
  rw [forbidden_iff, place_append_name named.2 down, render_append] at forbidden
  rw [forbidden_iff] at before
  obtain ⟨listed, mem, begins⟩ := forbidden
  obtain ⟨-, listedFree, -, noDots⟩ := blacklistFiles_plain listed mem
  have notBefore : ¬ listed <+: render 47 (place 47 dot base) := fun here =>
    before ⟨listed, mem, here⟩
  split at begins
  case isTrue => exact absurd (by simpa using begins) notBefore
  case isFalse =>
    simp only [render_cons, render_nil, append_nil] at begins
    rcases List.prefix_or_prefix_of_prefix begins (prefix_append _ _) with here | ⟨rest, split⟩
    · exact absurd here notBefore
    · -- no NUL stands before the name, since the listed path goes on behind it
      have placeFree : 0 ∉ render 47 (place 47 dot base) := fun inside =>
        listedFree (split ▸ mem_append_left _ inside)
      have baseFree : 0 ∉ base := by
        intro inside
        obtain ⟨_, found, zero⟩ := exists_name_of_mem inside (by decide : (0 : UInt8) ≠ 47)
        refine placeFree (mem_flatMap.mpr ⟨_, ?_, mem_cons_of_mem _ zero⟩)
        rw [place, follow_plain (goesUp_eq ▸ plain.1), nil_append, mem_filter]
        refine ⟨found, ?_⟩
        simp only [decide_not, Bool.not_eq_true', decide_eq_false_iff_not]
        rintro rfl
        exact absurd zero (by decide)
      have seen : cStr (base ++ 47 :: name) = base ++ 47 :: cStr name := by
        rw [cStr_append, if_neg baseFree]
        rfl
      have beginsSeen := prefix_cStr listedFree begins
      rw [cStr_append, if_neg placeFree] at beginsSeen
      change listed <+: _ ++ 47 :: cStr name at beginsSeen
      have notDots : ∀ dots, dots <+: [dot, dot] → cStr name ≠ dots := by
        intro dots among same
        rw [← split, same, prefix_append_right_inj] at beginsSeen
        rcases prefix_cons_iff.mp beginsSeen with rfl | ⟨part, rfl, shorter⟩
        · exact notBefore (by simp [← split])
        · exact noDots part ((mem_inits _ _).mpr (shorter.trans among)) ⟨_, split⟩
      have nameFree : 47 ∉ cStr name := fun inside => named.2 ((cStr_isPrefix _).subset inside)
      have seenDown : str ".." ≠ cStr name := fun same =>
        notDots [dot, dot] (prefix_refl _) (by rw [← same, goesUp_eq])
      have seenFull := not_or.mpr
        ⟨notDots [] List.nil_prefix, notDots [dot] (prefix_append [dot] [dot])⟩
      rw [forbidden_iff, seen, place_append_name nameFree seenDown, if_neg seenFull, render_append]
      exact ⟨_, mem, by simpa using beginsSeen⟩

/-- A directory is listed when, as far as the file system sees it, one of the layers on
the way from the target to it is. -/
theorem forbidden_dir_iff {target : Bytes} {layers : List Bytes}
    (named : ∀ s ∈ layers, IsName 47 s) (plain : str ".." ∉ names 47 (target ++ render 47 layers))
    (unlisted : ¬ Forbidden target) : Forbidden (target ++ render 47 layers) ↔
    ∃ path ∈ entered target layers, Forbidden (cStr path) := by
  constructor
  · intro forbidden
    -- the first layer that makes the path listed
    induction layers using List.reverseRecOn with
    | nil => exact absurd (by simpa using forbidden) unlisted
    | append_singleton layers s ih =>
      have shape : target ++ render 47 (layers ++ [s]) = (target ++ render 47 layers) ++ 47 :: s := by
        simp [render_append]
      have shorterPlain : str ".." ∉ names 47 (target ++ render 47 layers) := by
        rw [shape, names_append_sep, mem_append, not_or] at plain
        exact plain.1
      by_cases before : Forbidden (target ++ render 47 layers)
      · obtain ⟨path, mem, listed⟩ := ih (fun s mem => named s (mem_append_left _ mem))
          shorterPlain before
        obtain ⟨front, full, shorter, rfl⟩ := mem_entered_iff.mp mem
        exact ⟨_, mem_entered_iff.mpr
          ⟨front, full, shorter.trans (prefix_append _ _), rfl⟩, listed⟩
      · refine ⟨_, mem_entered_iff.mpr ⟨layers ++ [s], by simp, prefix_refl _, rfl⟩, ?_⟩
        rw [shape] at plain forbidden ⊢
        exact forbidden_cStr_append (named s (by simp)) plain before forbidden
  · rintro ⟨path, mem, forbidden⟩
    obtain ⟨front, -, shorter, rfl⟩ := mem_entered_iff.mp mem
    refine forbidden.mono ((cStr_isPrefix _).trans ?_) plain
    exact (prefix_append_right_inj _).mpr (render_isPrefix shorter)

/-! ### Configurations -/

/-- Neither the directory that the names of a configuration lead to nor the file in it is
listed. A configuration that is refused does not count; `gone` says whether the first
layer of the name is dropped already, and it may be from now on. -/
def CheckSafe (gone : Bool) (config : TransferConfig) : Prop :=
  bundleFits false config → containsBlacklistedSubstring (targetPath false config) = false →
    ∀ drop layers last, drop = gone ∨ drop = true →
      landing drop config.optionalName = some (layers, last) →
      checkPathTraversal (enterAll (targetPath false config) layers) = true →
        ¬ Forbidden (enterAll (targetPath false config) layers) ∧
          ¬ Forbidden (cStr (child (enterAll (targetPath false config) layers) (cStr last)))

/-- Layers of a landing are names. -/
theorem isName_of_landing {gone : Bool} {optName last : Bytes} {layers : List Bytes}
    (landed : landing gone optName = some (layers, last)) : ∀ s ∈ layers, IsName 47 s := by
  unfold landing at landed
  dsimp only at landed
  split at landed
  case h_1 =>
    obtain ⟨rfl, -⟩ := Prod.mk.inj (Option.some.inj landed)
    exact nofun
  case h_2 all split =>
    obtain ⟨_, -, pair⟩ := Option.map_eq_some_iff.mp landed
    obtain ⟨rfl, -⟩ := Prod.mk.inj pair
    exact fun s mem => isName_of_mem_optNameLayers split (dropLast_subset _ mem)

/-- The places where a file may land are listed only if the directory is, or the file in it. -/
theorem not_forbidden_of_mem_landings {dir last path : Bytes} (plain : str ".." ∉ names 47 dir)
    (dirSafe : ¬ Forbidden dir) (fileSafe : ¬ Forbidden (cStr (child dir last)))
    (mem : path ∈ landings dir last) : ¬ Forbidden (cStr path) := by
  simp only [landings, mem_append, mem_cons, not_mem_nil, or_false] at mem
  rcases mem with (rfl | rfl) | mem
  · exact fun forbidden => dirSafe (forbidden.mono (cStr_isPrefix _) plain)
  · exact fileSafe
  · split at mem
    case isFalse => cases mem
    case isTrue ends =>
      -- the directory ends in a separator, so another one makes no difference
      obtain rfl := mem_singleton.mp mem
      have sameNames : names 47 (dir ++ last) = names 47 (child dir last) := by
        rw [names_append_of_getLast? ends, child, names_append_sep]
      have samePlace : place 47 dot (cStr (dir ++ last)) = place 47 dot (cStr (child dir last)) := by
        rw [place, place, names_cStr, names_cStr, sameNames]
      exact fun forbidden => fileSafe (forbidden.of_place_eq samePlace)

/-- Accepted configurations keep away from the list exactly if they are safe. -/
theorem checkSafe_iff (ctx : CtxFile) (payload : Bytes) :
    (∀ trace out, Runs (slaveCheck false ctx payload) trace (some (true, out)) →
    ∀ touch ∈ touches trace, touch.1 ≠ .changed → ¬ Forbidden touch.2) ↔
    CheckSafe ctx.targetDirNotExist
    (parseFromString transferConfigFields ctx.transferConfig payload) := by
  generalize parsed : parseFromString transferConfigFields ctx.transferConfig payload = config
  constructor
  · intro kept fits allowed drop layers last flag landed plain
    obtain ⟨out, trace, run, has⟩ := exists_accepted parsed fits allowed flag landed plain
    have each := fun touch mem => kept trace out run touch (has mem)
    have down := up_notMem_names (.inl rfl) plain
    rw [enterAll_eq] at down
    have written := each _ (mem_append_right _ mem_cons_self) (by simp)
    refine ⟨fun forbidden => ?_, written⟩
    rw [enterAll_eq, forbidden_dir_iff (isName_of_landing landed) down
      (not_forbidden_of_unlisted allowed)] at forbidden
    obtain ⟨path, mem, forbidden⟩ := forbidden
    refine each (.created, cStr _) ?_ (by simp) forbidden
    exact mem_append_left _ (mem_map.mpr ⟨_, mem, rfl⟩)
  · intro safe trace out run touch mem _
    obtain ⟨fits, allowed, gone, layers, last, flag, landed, plain, touching⟩ :=
      slaveCheck_accepted parsed run
    obtain ⟨dirSafe, fileSafe⟩ := safe fits allowed gone layers last flag landed plain
    have down := up_notMem_names (.inl rfl) plain
    have dirDown := down
    rw [enterAll_eq] at dirDown
    have targetDown : str ".." ∉ names 47 (targetPath false config) := by
      intro inside
      rw [names_append_render _ (isName_of_landing landed)] at dirDown
      exact dirDown (mem_append_left _ inside)
    have unlisted := not_forbidden_of_unlisted allowed
    rcases touching touch mem with (⟨path, layer, rfl⟩ | ⟨path, enteredPath, either⟩) | landed'
    · exact not_forbidden_of_mem_localLayers targetDown unlisted layer
    · have same : touch.2 = cStr path := by rcases either with rfl | rfl <;> rfl
      rw [same]
      intro forbidden
      rw [enterAll_eq, forbidden_dir_iff (isName_of_landing landed) dirDown unlisted] at dirSafe
      exact dirSafe ⟨_, enteredPath, forbidden⟩
    · obtain ⟨path, among, rfl⟩ := landed'
      exact not_forbidden_of_mem_landings down dirSafe fileSafe among

/-! ### Command lines -/

/-- The files that can be found below a directory are listed if the directory is, or if it
lies above a listed path. -/
def LeadsToListed (dir : Bytes) : Prop :=
  Forbidden dir ∨ ∃ listed ∈ blacklistFiles, place 47 dot dir <+: names 47 listed

instance (dir : Bytes) : Decidable (LeadsToListed dir) := inferInstanceAs (Decidable (_ ∨ _))

/-- The path of the command line, if it has one, does not lead to a listed path as a
directory. -/
def InitSafe (params : Bytes) : Prop :=
  ∀ path, masterPath params = some path → (getFullFilePath path).2 ≠ [] →
    ¬ LeadsToListed (startDir path)

/-- Names that a scan can find lead down. -/
theorem place_append_layers (dir : Bytes) {layers : List Bytes}
    (each : ∀ s ∈ layers, ScanName s) :
    place 47 dot (dir ++ render 47 layers) = place 47 dot dir ++ layers := by
  have down : [dot, dot] ∉ layers := fun inside => (each _ inside).2.2.2 goesUp_eq.symm
  have kept : layers.filter (· ≠ [dot]) = layers := filter_eq_self.mpr fun s inside => by
    simpa [stays_eq] using (each s inside).2.2.1
  rw [place, names_append_render dir fun s inside => (each s inside).1, follow_append,
    follow_plain down, kept, ← place]

theorem not_forbidden_of_below {dir path : Bytes} (free : 0 ∉ dir) (safe : ¬ LeadsToListed dir)
    (below : Below dir path) : ¬ Forbidden (cStr path) := by
  rw [cStr_of_free (below.free free)]
  obtain ⟨_, -, each, rfl⟩ := below
  rw [forbidden_iff]
  rintro ⟨_, mem, begins⟩
  have written := (blacklistFiles_plain _ mem).1
  rw [place_append_layers dir each, ← written] at begins
  rcases above_of_render_isPrefix (fun name inside => isName_of_mem_names
      (mem_names_of_mem_place inside)) (fun name inside => isName_of_mem_names inside) begins with
    here | above
  · refine safe (.inl ((forbidden_iff _).mpr ⟨_, mem, ?_⟩))
    rwa [written] at here
  · exact safe (.inr ⟨_, mem, above⟩)

/-- Below a directory that leads to a listed path, a listed file can be found. -/
theorem exists_forbidden_below {dir : Bytes} (free : 0 ∉ dir) (leads : LeadsToListed dir) :
    ∃ layers : List Bytes, layers ≠ [] ∧
    (∀ s ∈ layers, ScanName s) ∧
    Forbidden (cStr (dir ++ render 47 layers)) := by
  have listedNames : ∀ listed ∈ blacklistFiles, ∀ s ∈ names 47 listed, ScanName s := by decide
  have anyName : ∀ s ∈ [str "x"], ScanName s := by decide
  have inside : Forbidden dir → Forbidden (cStr (dir ++ render 47 [str "x"])) := by
    intro forbidden
    have below : Below dir (dir ++ render 47 [str "x"]) := ⟨_, cons_ne_nil _ _, anyName, rfl⟩
    rw [cStr_of_free (below.free free), forbidden_iff, place_append_layers dir anyName,
      render_append]
    rw [forbidden_iff] at forbidden
    obtain ⟨listed, mem, begins⟩ := forbidden
    exact ⟨_, mem, begins.trans (prefix_append _ _)⟩
  rcases leads with forbidden | ⟨listed, mem, rest, above⟩
  · exact ⟨[str "x"], cons_ne_nil _ _, anyName, inside forbidden⟩
  · have written := (blacklistFiles_plain _ mem).1
    rw [← above] at written
    by_cases empty : rest = []
    · rw [empty, append_nil] at written
      refine ⟨[str "x"], cons_ne_nil _ _, anyName, inside ((forbidden_iff _).mpr ?_)⟩
      exact ⟨_, mem, by rw [written]⟩
    · have each : ∀ s ∈ rest, ScanName s := fun s found =>
        listedNames listed mem s (above ▸ mem_append_right _ found)
      have below : Below dir (dir ++ render 47 rest) := ⟨rest, empty, each, rfl⟩
      refine ⟨_, empty, each, ?_⟩
      rw [cStr_of_free (below.free free), forbidden_iff, place_append_layers dir each]
      exact ⟨_, mem, by rw [written]⟩

/-- A path in the sandbox leads to no listed one. -/
theorem not_leadsToListed_of_inSandbox {path : Bytes} (inside : InSandbox path) :
    ¬ LeadsToListed (startDir path) := by
  obtain ⟨below, located⟩ := place_startDir_of_inSandbox inside
  rw [LeadsToListed, forbidden_iff, located]
  have apart : ∀ listed ∈ blacklistFiles, ¬ listed <+: render 47 [str "mnt"] ∧
      ¬ render 47 [str "mnt"] <+: listed ∧ (names 47 listed).head? ≠ some (str "mnt") := by decide
  rintro (⟨listed, mem, begins⟩ | ⟨listed, mem, rest, above⟩)
  · have front : render 47 [str "mnt"] <+: render 47 (str "mnt" :: below) :=
      render_isPrefix (prefix_append [str "mnt"] below)
    rcases List.prefix_or_prefix_of_prefix begins front with shorter | longer
    · exact (apart _ mem).1 shorter
    · exact (apart _ mem).2.1 longer
  · refine (apart _ mem).2.2 ?_
    rw [← above]
    rfl

/-! ### A file system that holds a listed file -/

theorem exists_fileNames {layers : List Bytes} (each : ∀ s ∈ layers, IsName 47 s ∧ 0 ∉ s) :
    ∃ files : List FileName, files.map FileName.bytes = layers := by
  induction layers with
  | nil => exact ⟨[], rfl⟩
  | cons s layers ih =>
    simp only [mem_cons, forall_eq_or_imp] at each
    obtain ⟨files, rfl⟩ := ih each.2
    exact ⟨⟨s, each.1.1, each.1.2⟩ :: files, rfl⟩

/-- A file below directories. -/
def chain : List FileName → Entries → Entries
  | [], rest => rest
  | [file], rest => .cons file 1 none .nil rest
  | dir :: file :: more, rest => .cons dir 2 (some none) (chain (file :: more) .nil) rest

theorem subFilesFrom_dir (currentDirname : Bytes) {dir : FileName} (below rest : Entries)
    (plain : ¬ (dir.bytes = str "." ∨ dir.bytes = str "..")) :
    (subFilesFrom currentDirname (.cons dir 2 (some none) below rest)).1 =
    (subFilesFrom (child currentDirname dir.bytes) below).1 ++
    (subFilesFrom currentDirname rest).1 := by
  have directory : (2 : UInt32) &&& 1 = 0 := by decide
  conv_lhs => unfold subFilesFrom
  rw [if_neg plain, if_pos directory]

theorem subFilesFrom_file (currentDirname : Bytes) {file : FileName} (rest : Entries)
    (plain : ¬ (file.bytes = str "." ∨ file.bytes = str "..")) :
    (subFilesFrom currentDirname (.cons file 1 none .nil rest)).1 =
    child currentDirname file.bytes :: (subFilesFrom currentDirname rest).1 := by
  have notDirectory : ¬ (1 : UInt32) &&& 1 = 0 := by decide
  conv_lhs => unfold subFilesFrom
  rw [if_neg plain, if_neg notDirectory]

theorem subFilesFrom_chain (currentDirname : Bytes) {files : List FileName} (full : files ≠ [])
    (plain : ∀ file ∈ files, ¬ (file.bytes = str "." ∨ file.bytes = str "..")) (rest : Entries) :
    (subFilesFrom currentDirname (chain files rest)).1 =
    (currentDirname ++ render 47 (files.map FileName.bytes)) ::
    (subFilesFrom currentDirname rest).1 := by
  induction files generalizing currentDirname rest with
  | nil => exact absurd rfl full
  | cons file files ih =>
    simp only [mem_cons, forall_eq_or_imp] at plain
    cases files with
    | nil =>
      rw [chain, subFilesFrom_file _ _ plain.1]
      simp [child]
    | cons next more =>
      have inner := ih (child currentDirname file.bytes) (cons_ne_nil _ _) plain.2 .nil
      have nothing : (subFilesFrom (child currentDirname file.bytes) .nil).1 = [] := rfl
      rw [chain, subFilesFrom_dir _ _ _ plain.1, inner, nothing]
      simp [child]

/-- The name of another file. -/
def another : FileName := ⟨str "x", by decide, by decide⟩

/-- In a directory a file can be found below any names, and be left for later. -/
theorem exists_queued (ctx : CtxFile) {layers : List Bytes} (queue : ctx.taskQueue = [])
    (directory : (getFullFilePath ctx.localPath).2 ≠ []) (full : layers ≠ [])
    (each : ∀ s ∈ layers, ScanName s) :
    ∃ out q, Reaches (setTaskQueue ctx) (true, out) [] ∧ out.isDir = true ∧ out.taskQueue = [q] ∧
    out.localDirName ++ q = startDir ctx.localPath ++ render 47 layers := by
  obtain ⟨files, rfl⟩ := exists_fileNames fun s mem => ⟨(each s mem).1, (each s mem).2.1⟩
  have plain : ∀ file ∈ files, ¬ (file.bytes = str "." ∨ file.bytes = str "..") := by
    intro file mem
    exact not_or.mpr (each _ (mem_map_of_mem mem)).2.2
  have anotherPlain : ¬ (another.bytes = str "." ∨ another.bytes = str "..") := by decide
  let whole := getFullFilePath ctx.localPath
  let tree := chain files (.cons another 1 none .nil .nil)
  have found : (subFilesFrom whole.1 tree).1 = _ :=
    subFilesFrom_chain _ (fun empty => full (by rw [empty, map_nil])) plain _
  have scan : Reaches (getSubFilesRecursively whole.2 whole.1) (subFilesFrom whole.1 tree) [] := by
    rw [getSubFilesRecursively, if_neg directory]
    exact reaches_scandir_bind (some (none, tree)) (reaches_pure _)
  generalize subFilesFrom whole.1 tree = scanned at found scan
  obtain ⟨paths, modes⟩ := scanned
  obtain rfl : paths = _ := found
  refine ⟨{ ctx.setLocalName with
    isDir := true
    taskQueue := [whole.1 ++ render 47 (files.map FileName.bytes)]
    dirMode := ctx.setLocalName.dirMode ++ modes
    localDirName := getPathWithoutFilename whole.2
    localName := child whole.1 another.bytes
    localPath := getPathWithoutFilename whole.2 ++ child whole.1 another.bytes },
    whole.1 ++ render 47 (files.map FileName.bytes), ?_, rfl, rfl, ?_⟩
  · refine (reaches_checkDirectoryOrPath _ _).bind ?_
    refine scan.bind ?_
    have empty : ctx.setLocalName.taskQueue = [] := queue
    dsimp only
    rw [empty]
    exact reaches_pure _
  · rw [startDir, append_assoc]

/-- A command line with a path can get as far as to look for the files below it. -/
theorem reaches_setMasterParametersOnDaemon {ctx : CtxFile} {argv : List Bytes} {index : Nat}
    (named : ¬ (ctx.sandboxMode = true ∧ ctx.transferConfig.reserve1 ≠ [] ∧
    checkBundleName ctx.transferConfig.reserve1 = false)) :
    Reaches (setMasterParametersOnDaemon ctx argv index)
    (true, (takeLastPath ctx argv index).setLocalName) [] := by
  have bundle : Reaches (checkMasterBundle ctx) (true, ctx) [] := by
    unfold checkMasterBundle
    dsimp only
    split
    case isFalse => exact reaches_pure _
    case isTrue bundled =>
      have wellFormed : checkBundleName ctx.transferConfig.reserve1 = true := by
        by_contra ill
        exact named ⟨bundled.1, bundled.2, Bool.eq_false_iff.mpr ill⟩
      have valid : Reaches (isValidBundlePath ctx.transferConfig.reserve1) true [] := by
        rw [isValidBundlePath, if_pos wellFormed]
        exact reaches_access _ _ true
      exact valid.bind (reaches_pure _)
  -- the bundle is not there any more when it is looked for again
  have stays : ∀ other : CtxFile, Reaches (enterMasterSandbox other) (true, other) [] := by
    intro other
    unfold enterMasterSandbox
    split
    case isFalse => exact reaches_pure _
    case isTrue =>
      have invalid : Reaches (isValidBundlePath other.transferConfig.reserve1) false [] := by
        unfold isValidBundlePath
        split
        · exact reaches_access _ _ false
        · exact reaches_pure _
      exact invalid.bind (reaches_pure _)
  have reaches : Reaches (setMasterParametersOnDaemon ctx argv index) _ _ :=
    bundle.andThen (stays _)
  exact reaches

/-- A command line with a path. -/
theorem of_masterPath {params path : Bytes} (given : masterPath params = some path) :
    ∃ argv ctx index, Base.splitCommandToArgs params = some argv ∧ ¬ argv.length < 2 ∧
    parseMasterParameters false {} argv = (none, ctx, index) ∧
    ¬ (ctx.sandboxMode = true ∧ ctx.transferConfig.reserve1 ≠ [] ∧
      checkBundleName ctx.transferConfig.reserve1 = false) ∧
    path = (takeLastPath ctx argv index).localPath := by
  unfold masterPath at given
  split at given
  case h_1 => cases given
  case h_2 argv args =>
    split_ifs at given with enough
    split at given
    case h_1 => cases given
    case h_2 ctx index parsed =>
      split_ifs at given with named
      exact ⟨argv, ctx, index, args, enough, parsed, named, (Option.some.inj given).symm⟩

section

variable {params path : Bytes} {layers : List Bytes} (given : masterPath params = some path)
  (directory : (getFullFilePath path).2 ≠ []) (full : layers ≠ [])
  (each : ∀ s ∈ layers, ScanName s)
include given directory full each

/-- Whether the first file is refused or not, the other one is left in the queue. -/
theorem exists_begun :
    ∃ ok out q, Reaches (beginTransfer false {} params) (ok, out) [] ∧ out.isDir = true ∧
    out.taskQueue = [q] ∧ out.localDirName ++ q = startDir path ++ render 47 layers := by
  obtain ⟨argv, ctx, index, args, enough, parsed, named, rfl⟩ := of_masterPath given
  have queue := parseMasterParameters_queue argv
  rw [parsed] at queue
  have located := @reaches_setMasterParametersOnDaemon ctx argv index named
  have whole : getFullFilePath (takeLastPath ctx argv index).setLocalName.localPath =
      getFullFilePath (takeLastPath ctx argv index).localPath :=
    getFullFilePath_idem _
  have sameStart : startDir (takeLastPath ctx argv index).setLocalName.localPath =
      startDir (takeLastPath ctx argv index).localPath := by
    rw [startDir, startDir, whole]
  have empty : (takeLastPath ctx argv index).setLocalName.taskQueue = [] := by
    unfold takeLastPath
    split <;> exact queue
  obtain ⟨out, q, scanned, isDir, one, there⟩ := exists_queued _ empty
    (whole ▸ directory) full each
  rw [sameStart] at there
  have master : Reaches (setMasterParameters false {} argv) (true, out) [] := by
    unfold setMasterParameters
    rw [parsed]
    exact located.andThen scanned
  have begun : beginTransfer false {} params =
      ((setMasterParameters false {} argv).andThen checkBlacklistPath).andThen
        openMaster := by
    unfold beginTransfer
    rw [args]
    exact if_neg enough
  rw [begun]
  cases listed : containsBlacklistedSubstring out.localPath with
  | true =>
    have refused : Reaches (checkBlacklistPath out) (false, out) [] := by
      rw [checkBlacklistPath, listed]
      exact reaches_logMsg_bind (reaches_pure _)
    refine ⟨false, out, q, Reaches.andThen_stop _ ?_, isDir, one, there⟩
    exact master.bind refused
  | false =>
    have passed : Reaches (checkBlacklistPath out) (true, out) [] := by
      rw [checkBlacklistPath, listed]
      exact reaches_pure _
    have opened : Reaches (openMaster out) (true, { out with master := true })
        [(.read, cStr out.localPath)] := reaches_openRead_bind (reaches_pure _)
    refine ⟨true, { out with master := true }, q, ?_, isDir, one, there⟩
    exact (master.andThen passed).andThen (opened.mono (nil_subset _))

/-- When the peer then asks for the next file, that one is opened. -/
theorem exists_read : ∃ out, Reaches (masterRun false params [.finish [1]]) out
    [(.read, cStr (startDir path ++ render 47 layers))] := by
  obtain ⟨_, out, q, begun, isDir, one, there⟩ := exists_begun given directory full each
  have next : Reaches (transferNext out)
      { out with
        localName := out.taskQueue.getLastD []
        localPath := out.localDirName ++ out.taskQueue.getLastD []
        taskQueue := out.taskQueue.dropLast }
      [(.read, cStr (out.localDirName ++ out.taskQueue.getLastD []))] :=
    reaches_openRead_bind (reaches_pure _)
  have last : out.taskQueue.getLastD [] = q := by rw [one]; rfl
  rw [last, there] at next
  have asked : fileFinish out [1] = transferNext out := by
    have more : out.isDir = true ∧ out.taskQueue ≠ [] := ⟨isDir, by simp [one]⟩
    have flag : (1 : UInt8) ≠ 0 := by decide
    rw [fileFinish]
    exact (if_pos flag).trans (if_pos more)
  rw [← asked] at next
  exact ⟨_, begun.bind (next.bind (reaches_pure _))⟩

end

/-- Whatever the file system and the peer do, a command line keeps away from the list
exactly if it is safe. -/
theorem initSafe_iff (params : Bytes) :
    (∀ isStableBuf later trace result, Runs (masterRun isStableBuf params later) trace result →
    ∀ touch ∈ touches trace, touch.1 ≠ .changed → ¬ Forbidden touch.2) ↔ InitSafe params := by
  constructor
  · intro kept path given directory leads
    have free : 0 ∉ path := by
      obtain ⟨_, _, _, args, -, parsed, -, rfl⟩ := of_masterPath given
      exact takeLastPath_free (splitCommandToArgs_free args) parsed
    have free := startDir_free free
    obtain ⟨_, full, each, forbidden⟩ := exists_forbidden_below free leads
    obtain ⟨_, trace, run, has⟩ := exists_read given directory full each
    exact kept false _ trace _ run _ (has mem_cons_self) (by simp) forbidden
  · intro safe isStableBuf later trace result run touch mem other
    have spec : Always (OnTouch fun touch => touch.1 ≠ .changed → ¬ Forbidden touch.2)
        (fun _ => True) (masterRun isStableBuf params later) := by
      refine masterRun_always isStableBuf _ later (fun path changed => absurd rfl changed)
        (fun path unlisted free _ => ?_) (fun dir path found free directory below _ => ?_)
      · rw [cStr_of_free free]
        exact not_forbidden_of_unlisted unlisted
      · refine not_forbidden_of_below (startDir_free free) ?_ below
        rcases found with ⟨given, fromLine, rfl⟩ | inside
        · have sameStart : startDir (getFullFilePath given).2 = startDir given := by
            rw [startDir, startDir, getFullFilePath_idem]
          rw [getFullFilePath_idem] at directory
          rw [sameStart]
          exact safe given fromLine directory
        · exact not_leadsToListed_of_inSandbox inside
    exact touches_of_always spec run touch mem other

/-! ### Both sides -/

/-- The paths that a device creates, opens for writing or opens for reading are not listed,
exactly for safe configurations and safe command lines. -/
theorem listed_untouched_iff (ctx : CtxFile) (payload params : Bytes) :
    ((∀ trace out, Runs (slaveCheck false ctx payload) trace (some (true, out)) →
        ∀ touch ∈ touches trace, touch.1 ≠ .changed → ¬ Forbidden touch.2) ↔
      CheckSafe ctx.targetDirNotExist
        (parseFromString transferConfigFields ctx.transferConfig payload)) ∧
    ((∀ isStableBuf later trace result, Runs (masterRun isStableBuf params later) trace result →
        ∀ touch ∈ touches trace, touch.1 ≠ .changed → ¬ Forbidden touch.2) ↔
      InitSafe params) :=
  ⟨checkSafe_iff ctx payload, initSafe_iff params⟩

/-- A name that leads from an unlisted target into a listed directory. -/
def intoListed : TransferConfig :=
  { TransferConfig.blank with
    path := str "/data/service/el1/public", optionalName := str "hdc/key", clientCwd := str "/" }

/-- The configuration is accepted and the listed directory created; and the files of the
directory above it are sent, the listed ones included. -/
theorem listed_touched :
    (∃ trace out, Runs (slaveCheck false {} (serializeToString transferConfigFields intoListed))
        trace (some (true, out)) ∧
      (.created, str "/data/service/el1/public/hdc") ∈ touches trace ∧
      (.written, str "/data/service/el1/public/hdc/key") ∈ touches trace) ∧
    (∃ trace out, Runs (masterRun false (str "/data/service/el1/public /tmp") [.finish [1]])
        trace (some out) ∧
      (.read, str "/data/service/el1/public/hdc/key") ∈ touches trace) ∧
    Forbidden (str "/data/service/el1/public/hdc") ∧
    Forbidden (str "/data/service/el1/public/hdc/key") := by
  refine ⟨?_, ?_, by decide +kernel, by decide +kernel⟩
  · have parsed : parseFromString transferConfigFields ({} : CtxFile).transferConfig
        (serializeToString transferConfigFields intoListed) = intoListed := by decide +kernel
    obtain ⟨out, trace, run, has⟩ := @exists_accepted {} intoListed false [str "hdc"] (str "key") _
      parsed (fun _ bundled => absurd rfl bundled) (by decide +kernel) (.inl rfl)
      (by decide +kernel) (by decide +kernel)
    refine ⟨trace, out, run, has ?_, has ?_⟩
    · decide +kernel
    · decide +kernel
  · obtain ⟨out, trace, run, has⟩ := @exists_read (str "/data/service/el1/public /tmp")
      (str "/data/service/el1/public") [str "hdc", str "key"] (by decide +kernel)
      (by decide +kernel) (by decide) (by decide)
    refine ⟨trace, out, run, has ?_⟩
    decide +kernel

end Hdc.Transfer
