import Hdc.Transfer.Receive
import Hdc.Host.Permit

/-!
Where the receiving side of a transfer leaves its traces.

`CMD_FILE_CHECK` names a target and, for a file of a directory, the layers below it. Compared are
the places that the paths lead to by their letters, with the C string that the file system is given.
A transfer of a directory creates a target that does not exist with all that leads to it; everything
else happens at or below the target.

Three kinds of configurations are set apart (`NamesNoParent`). A component `..` is only looked for
in the path that is left in the end, when directories have been created on the way; the name of the
file itself is not looked at on the device, though the host does that before its task is reached
(`IsHostReceiveChildPath`). And the host creates the layers of a relative target before it resolves
the path against the directory of the client.

* `receive_contained`: what is created lies at, below or above the target, what is changed or
  written at or below it;
* `receive_creates_above`: directories above the target do get created.
-/

namespace Hdc.Transfer

open Interaction LexicalPath SerialStruct List

/-! ### Names that stay below -/

/-- A piece without a separator does not go up, seen as a name or as a path. -/
theorem component_iff {component : Bytes} (slash : 47 ∉ component) :
    component ≠ str ".." ↔ str ".." ∉ names 47 component := by
  rw [names_of_free slash]
  split_ifs with empty
  · rw [empty]
    decide
  · rw [mem_singleton]
    exact ne_comm

/-- The loop of `IsHostReceiveChildPath`, with the component that it has read so far. -/
theorem childPathFrom_iff {component : Bytes} (slash : 47 ∉ component) (path : Bytes) :
    Host.childPathFrom component path = true ↔
    0 ∉ path ∧ str ".." ∉ names 47 (component ++ normalized path) := by
  induction path generalizing component with
  | nil => simpa [Host.childPathFrom, normalized] using component_iff slash
  | cons byte path ih =>
    rw [Host.childPathFrom]
    split_ifs with sep zero
    · have split : normalized (byte :: path) = 47 :: normalized path := by
        rcases sep with rfl | rfl <;> rfl
      have nonzero : ¬ 0 = byte := by rcases sep with rfl | rfl <;> decide
      rw [split, names_append_sep, mem_append, not_or, ← component_iff slash, Bool.and_eq_true,
        ih not_mem_nil, mem_cons, not_or, decide_eq_true_eq]
      tauto
    · simp [zero]
    · rw [not_or] at sep
      have same : component ++ normalized (byte :: path) =
          component ++ [byte] ++ normalized path := by simp [normalized, sep.2]
      rw [same, ih (by simp [slash, Ne.symm sep.1])]
      simp [Ne.symm zero]

/-- `IsHostReceiveChildPath` passes only names without NUL that do not go up. -/
theorem childPath_plain {path : Bytes} (fine : Host.isHostReceiveChildPath path = true) :
    0 ∉ path ∧ checkPathTraversal path = true := by
  obtain ⟨nonzero, plain⟩ := (childPathFrom_iff not_mem_nil path).mp fine
  exact ⟨nonzero, (checkPathTraversal_iff _).mpr plain⟩

/-- The test of the name is exact, and what it passes stays below the target, with either separator
or with both, from wherever the target is looked up. -/
theorem isHostReceiveChildPath_below (path : Bytes) :
    (Host.isHostReceiveChildPath path = true ↔
      0 ∉ path ∧ str ".." ∉ names 47 (normalized path)) ∧
    (Host.isHostReceiveChildPath path = true → ∀ start target sep, sep = 47 ∨ sep = 92 →
      follow 46 start (names sep target) <+: follow 46 start (names sep (target ++ sep :: path)) ∧
      follow 46 start (names 47 (normalized target)) <+:
        follow 46 start (names 47 (normalized (target ++ sep :: path)))) := by
  refine ⟨childPathFrom_iff not_mem_nil path, fun fine start target sep either => ?_⟩
  obtain ⟨-, plain⟩ := childPath_plain fine
  have split : normalized (target ++ sep :: path) = normalized target ++ 47 :: normalized path := by
    rcases either with rfl | rfl <;> simp [normalized]
  rw [split, names_append_sep, names_append_sep, follow_append, follow_append]
  constructor
  · exact follow_isPrefix (up_notMem_names either plain) _
  · exact follow_isPrefix ((checkPathTraversal_iff path).mp plain) _

/-- What is left of a name without its first layer stood behind a separator. -/
theorem dropFirstLayer_cases (optName : Bytes) :
    dropFirstLayer optName = optName ∨ ∃ first sep, (sep = 47 ∨ sep = 92) ∧
    optName = first ++ sep :: dropFirstLayer optName := by
  have cut : ∀ {sep : UInt8}, sep ∈ optName →
      ∃ first, optName = first ++ sep :: (optName.dropWhile (· ≠ sep)).drop 1 := by
    intro sep mem
    obtain ⟨first, _, rfl, free⟩ := eq_append_cons_of_mem mem
    rw [dropWhile_append_of_pos fun byte inside => by
      simp only [decide_not, Bool.not_eq_true', decide_eq_false_iff_not]
      rintro rfl
      exact free inside]
    simp
  unfold dropFirstLayer
  split_ifs with slash back
  · obtain ⟨first, shape⟩ := cut slash
    exact .inr ⟨first, 47, .inl rfl, shape⟩
  · obtain ⟨first, shape⟩ := cut back
    exact .inr ⟨first, 92, .inr rfl, shape⟩
  · exact .inl rfl

/-- A piece of a name that neither goes up nor ends early, and is set apart by `/`. -/
structure PlainPiece (piece : Bytes) : Prop where
  slash : 47 ∉ piece
  nonzero : 0 ∉ piece
  down : piece ≠ str ".."

/-- A plain name leads through plain layers to a plain file name. -/
theorem landing_plain {gone : Bool} {optName last : Bytes} {layers : List Bytes}
    (fine : Host.isHostReceiveChildPath optName = true)
    (landed : landing gone optName = some (layers, last)) :
    (∀ s ∈ layers, IsName 47 s ∧ PlainPiece s) ∧ PlainPiece last ∧
    (layers ≠ [] → isDirectoryMode optName = true) := by
  obtain ⟨nonzero, plain⟩ := childPath_plain fine
  unfold landing at landed
  dsimp only at landed
  -- the name that is looked at, with or without its first layer, is as plain as the whole
  obtain ⟨shorter, restPlain⟩ : (if gone then dropFirstLayer optName else optName) ⊆ optName ∧
      checkPathTraversal (if gone then dropFirstLayer optName else optName) = true := by
    cases gone with
    | false => exact ⟨List.Subset.refl _, plain⟩
    | true =>
      rcases dropFirstLayer_cases optName with same | ⟨first, sep, either, shape⟩
      · simp [same, plain]
      · rw [shape] at plain
        refine ⟨fun byte mem => ?_, checkPathTraversal_of_append either plain⟩
        rw [shape]
        exact mem_append_right _ (mem_cons_of_mem _ mem)
  generalize (if gone then dropFirstLayer optName else optName) = rest at landed shorter restPlain
  cases split : optNameLayers rest with
  | none =>
    rw [split] at landed
    obtain ⟨rfl, rfl⟩ := Prod.mk.inj (Option.some.inj landed)
    have free : 47 ∉ rest := by
      intro mem
      simp [optNameLayers, mem] at split
    refine ⟨by simp, ⟨free, fun mem => nonzero (shorter mem), ?_⟩, fun full => absurd rfl full⟩
    rintro rfl
    exact absurd restPlain (by decide)
  | some all =>
    rw [split] at landed
    obtain ⟨final, ends, pair⟩ := Option.map_eq_some_iff.mp landed
    obtain ⟨rfl, rfl⟩ := Prod.mk.inj pair
    have each : ∀ s ∈ all, IsName 47 s ∧ PlainPiece s := by
      intro s mem
      have named := isName_of_mem_optNameLayers split mem
      have sub : s ⊆ rest ∧ s ≠ str ".." := by
        unfold optNameLayers at split
        split_ifs at split with slash back
        all_goals
          obtain rfl := Option.some.inj split
          rw [Base.splitString_eq_names] at mem
          refine ⟨subset_of_mem_names mem, ?_⟩
          rintro rfl
        · exact up_notMem_names (.inl rfl) restPlain mem
        · exact up_notMem_names (.inr rfl) restPlain mem
      exact ⟨named, named.2, fun inside => nonzero (shorter (sub.1 inside)), sub.2⟩
    refine ⟨fun s mem => each s (dropLast_subset _ mem),
      (each final (mem_of_getLast? ends)).2, fun _ => ?_⟩
    unfold optNameLayers at split
    unfold isDirectoryMode
    split_ifs at split with slash back
    · simp [shorter slash]
    · simp [shorter back]

/-! ### Places -/

/-- By their letters, `path` leads to the place of `target` or below it. -/
def AtOrBelow (target path : Bytes) : Prop := place 47 dot target <+: place 47 dot path

instance (target path : Bytes) : Decidable (AtOrBelow target path) :=
  inferInstanceAs (Decidable (_ <+: _))

theorem atOrBelow_refl (path : Bytes) : AtOrBelow path path := prefix_refl _

/-- A path that is continued by names that do not go up leads to or below its beginning. -/
theorem atOrBelow_append {base more : Bytes} {layers : List Bytes} (nonzero : 0 ∉ more)
    (named : names 47 (base ++ more) = names 47 base ++ layers) (plain : str ".." ∉ layers) :
    AtOrBelow (cStr base) (cStr (base ++ more)) := by
  rw [cStr_append, cStr_of_free nonzero]
  split
  case isTrue => exact atOrBelow_refl _
  case isFalse baseNonzero =>
    rw [cStr_of_free baseNonzero, AtOrBelow, place, place, named, follow_append]
    exact follow_isPrefix plain _

/-- The layers of a target that does not go up lie above it. -/
theorem atOrBelow_of_mem_localLayers {target path : Bytes}
    (plain : str ".." ∉ names 47 (cStr target)) (mem : path ∈ localLayers target) :
    AtOrBelow (cStr path) (cStr target) := by
  obtain ⟨layers, shorter, rfl⟩ := exists_render_of_mem_layerPaths mem
  rw [Base.splitString_eq_names] at shorter
  have named : ∀ s ∈ layers, IsName 47 s := fun s inside =>
    isName_of_mem_names (mem_of_mem_filter (shorter.subset inside))
  rw [names_cStr] at plain
  have pathPlace : ∀ start : Bytes, start = [] ∨ start = str "." →
      place 47 dot (cStr (start ++ render 47 layers)) = follow dot [] (cutNames layers) := by
    intro start either
    rw [place, names_cStr, names_append_render start named]
    rcases either with rfl | rfl <;> rfl
  have targetPlace : place 47 dot (cStr target) =
      follow dot [] (cutNames ((names 47 target).filter (· ≠ str "."))) := by
    rw [follow_cutNames_filter, place, names_cStr]
  rw [AtOrBelow, targetPlace, pathPlace _ (by split <;> simp)]
  refine follow_mono (cutNames_isPrefix shorter) ?_ []
  exact fun goesUp => plain (cutNames_filter_subset _ goesUp)

theorem render_nonzero {layers : List Bytes} (plain : ∀ s ∈ layers, PlainPiece s) :
    0 ∉ render 47 layers := by
  intro mem
  obtain ⟨s, inside, mem⟩ := mem_flatMap.mp mem
  rcases mem_cons.mp mem with zero | mem
  · cases zero
  · exact (plain s inside).nonzero mem

theorem up_notMem_layers {layers : List Bytes} (plain : ∀ s ∈ layers, PlainPiece s) :
    str ".." ∉ layers := fun mem => (plain _ mem).down rfl

section Below

variable {base last path : Bytes} {layers : List Bytes}

theorem atOrBelow_of_mem_entered (each : ∀ s ∈ layers, IsName 47 s ∧ PlainPiece s)
    (mem : path ∈ entered base layers) : AtOrBelow (cStr base) (cStr path) := by
  obtain ⟨front, -, shorter, rfl⟩ := mem_entered_iff.mp mem
  have part : ∀ s ∈ front, IsName 47 s ∧ PlainPiece s := fun s inside =>
    each s (shorter.subset inside)
  refine atOrBelow_append (render_nonzero fun s inside => (part s inside).2) ?_
    (up_notMem_layers fun s inside => (part s inside).2)
  exact names_append_render _ fun s inside => (part s inside).1

theorem atOrBelow_of_mem_landings (each : ∀ s ∈ layers, IsName 47 s ∧ PlainPiece s)
    (final : PlainPiece last) (mem : path ∈ landings (base ++ render 47 layers) last) :
    AtOrBelow (cStr base) (cStr path) := by
  have layersNonzero := render_nonzero fun s inside => (each s inside).2
  have layersDown := up_notMem_layers fun s inside => (each s inside).2
  have down : str ".." ∉ layers ++ names 47 last := by
    rw [mem_append, not_or]
    exact ⟨layersDown, (component_iff final.slash).mp final.down⟩
  have start := names_append_render base fun s inside => (each s inside).1
  simp only [landings, mem_append, mem_cons, not_mem_nil, or_false] at mem
  rcases mem with (rfl | rfl) | mem
  · exact atOrBelow_append layersNonzero start layersDown
  · rw [child, append_assoc]
    refine atOrBelow_append ?_ ?_ down
    · simp [layersNonzero, final.nonzero]
    · rw [← append_assoc, names_append_sep, start, append_assoc]
  · split at mem
    case isFalse => cases mem
    case isTrue ends =>
      obtain rfl := mem_singleton.mp mem
      rw [append_assoc]
      refine atOrBelow_append ?_ ?_ down
      · simp [layersNonzero, final.nonzero]
      · rw [← append_assoc, names_append_of_getLast? ends, start, append_assoc]

end Below

/-! ### Containment -/

/-- The configurations whose name and, for a directory, whose path do not go up; for a
directory on the host the path is absolute as well. -/
structure NamesNoParent (serverOrDaemon : Bool) (config : TransferConfig) : Prop where
  name : Host.isHostReceiveChildPath config.optionalName = true
  path : isDirectoryMode config.optionalName = true → checkPathTraversal (cStr config.path) = true
  resolved : isDirectoryMode config.optionalName = true → serverOrDaemon = true →
    Base.isAbsolutePath config.path = true

/-- Where a path may be touched: a directory may also be created above the target. -/
def Contained (target : Bytes) : Touch × Bytes → Prop
  | (.created, path) => AtOrBelow target path ∨ AtOrBelow path target
  | (_, path) => AtOrBelow target path

/-- The C string of the target, resolved against the directory of the client on the host
and against the sandbox of the bundle on the device. -/
def resolvedTarget (serverOrDaemon : Bool) (config : TransferConfig) : Bytes :=
  cStr (slavePath serverOrDaemon config.clientCwd (targetPath serverOrDaemon config))

/-- In the sandbox the path goes up no more than it does by itself. -/
theorem targetPath_plain {serverOrDaemon : Bool} {config : TransferConfig}
    (fits : bundleFits serverOrDaemon config)
    (plain : checkPathTraversal (cStr config.path) = true) :
    str ".." ∉ names 47 (cStr (targetPath serverOrDaemon config)) := by
  have down := up_notMem_names (.inl rfl) plain
  unfold targetPath
  split
  case isFalse => exact down
  case isTrue bundled =>
    obtain ⟨wellFormed, -⟩ := fits bundled.1 bundled.2
    have chars : ∀ byte ∈ config.reserve1, isBundleChar byte = true := by
      simp only [checkBundleName, Bool.and_eq_true, all_eq_true] at wellFormed
      exact wellFormed.2
    have long : bundleMinSize ≤ config.reserve1.length := by
      simp only [checkBundleName, Bool.and_eq_true, decide_eq_true_eq] at wellFormed
      exact wellFormed.1.1.2
    have nonzero : 0 ∉ sandboxRootDir ++ config.reserve1 := by
      rw [mem_append, not_or]
      exact ⟨by decide, fun mem => absurd (chars 0 mem) (by decide)⟩
    have slash : 47 ∉ config.reserve1 := fun mem => absurd (chars 47 mem) (by decide)
    have step : cStr (47 :: config.path) = 47 :: cStr config.path := by simp [cStr]
    have root : names 47 (sandboxRootDir ++ config.reserve1) =
        names 47 sandboxRootDir ++ names 47 config.reserve1 :=
      names_append_of_getLast? (by decide) _
    rw [cStr_append, if_neg nonzero, step, names_append_sep, root, names_of_free slash]
    simp only [mem_append, not_or]
    refine ⟨⟨by decide, ?_⟩, down⟩
    rw [if_neg bundled.2, mem_singleton]
    intro same
    rw [← same] at long
    exact absurd long (by decide)

/-- Only an absolute path is entered on the host, so resolving it comes first or last. -/
theorem slavePath_append {serverOrDaemon : Bool} {cwd target : Bytes} {layers : List Bytes}
    (absolute : layers ≠ [] → serverOrDaemon = true → Base.isAbsolutePath target = true) :
    slavePath serverOrDaemon cwd (target ++ render 47 layers) =
    slavePath serverOrDaemon cwd target ++ render 47 layers := by
  by_cases empty : layers = []
  · simp [empty]
  · cases serverOrDaemon with
    | false => rfl
    | true =>
      have rooted := absolute empty rfl
      have longer : Base.isAbsolutePath (target ++ render 47 layers) = true := by
        cases target with
        | nil => simp [Base.isAbsolutePath] at rooted
        | cons byte target => simpa [Base.isAbsolutePath] using rooted
      simp [slavePath, extractRelativePath, rooted, longer]

/-- Whatever the file system does, a transfer stays at or below its target, but for the
directories that lead to it. -/
theorem receive_contained (serverOrDaemon : Bool) (ctx : CtxFile) (payload : Bytes)
    (trace : List Event) (result : Option (Bool × CtxFile))
    (plain : NamesNoParent serverOrDaemon
      (parseFromString transferConfigFields ctx.transferConfig payload))
    (run : Runs (slaveCheck serverOrDaemon ctx payload) trace result) :
    ∀ touch ∈ touches trace, Contained (resolvedTarget serverOrDaemon
      (parseFromString transferConfigFields ctx.transferConfig payload)) touch := by
  generalize parsed : parseFromString transferConfigFields ctx.transferConfig payload = config
  rw [parsed] at plain
  have rooted : isDirectoryMode config.optionalName = true → serverOrDaemon = true →
      Base.isAbsolutePath (targetPath serverOrDaemon config) = true := by
    rintro directory rfl
    exact plain.resolved directory rfl
  have unresolved : isDirectoryMode config.optionalName = true →
      resolvedTarget serverOrDaemon config = cStr (targetPath serverOrDaemon config) := by
    intro directory
    cases serverOrDaemon with
    | false => rfl
    | true => simp [resolvedTarget, slavePath, extractRelativePath, rooted directory rfl]
  have entering : ∀ {gone layers last path},
      landing gone config.optionalName = some (layers, last) →
      path ∈ entered (targetPath serverOrDaemon config) layers →
      AtOrBelow (resolvedTarget serverOrDaemon config) (cStr path) := by
    intro gone layers last path landed mem
    obtain ⟨each, -, directory⟩ := landing_plain plain.name landed
    have some : layers ≠ [] := by
      rintro rfl
      cases mem
    rw [unresolved (directory some)]
    exact atOrBelow_of_mem_entered each mem
  refine touches_of_always (slaveCheck_always _ _ _ _ parsed ?_ ?_ ?_) run
  · intro fits directory path mem
    rw [unresolved directory]
    exact .inr (atOrBelow_of_mem_localLayers (targetPath_plain fits (plain.path directory)) mem)
  · exact fun gone layers last landed path mem => ⟨.inl (entering landed mem), entering landed mem⟩
  · intro gone layers last landed path mem
    obtain ⟨each, final, directory⟩ := landing_plain plain.name landed
    rw [enterAll_eq, slavePath_append fun some => rooted (directory some),
      cStr_of_free final.nonzero] at mem
    exact atOrBelow_of_mem_landings each final mem

/-- A file system without any files, in which directories can be created. -/
def emptyDisk (past : List Event) : (call : Call) → Option call.Answer
  | .lstat path => some (if (.created, path) ∈ touches past then some sIfdir else none)
  | .stat _ => some none
  | .access _ _ => some false
  | .realpath path => some path
  | .scandir _ => some none
  | .mkdir _ => some none
  | .terminate => none
  | .chmod _ _ | .chown _ _ _ | .openWrite _ | .openRead _ | .logMsg _ | .sendToAnother _ _ =>
    some ()

/-- The file `f` of a directory `d`, to a directory that does not exist. -/
def newDirectory : Bytes :=
  serializeToString transferConfigFields
    { TransferConfig.blank with path := str "/data/a/b", optionalName := str "d/f" }

theorem touches_newDirectory :
    touches (exec emptyDisk [] (slaveCheck false {} newDirectory)).1 =
    [(.created, str "/data"), (.created, str "/data/a"), (.created, str "/data/a/b"),
    (.written, str "/data/a/b/f")] := by
  decide +kernel

theorem receive_contained_newDirectory :
    touches (exec emptyDisk [] (slaveCheck false {} newDirectory)).1 ≠ [] ∧
      ∀ touch ∈ touches (exec emptyDisk [] (slaveCheck false {} newDirectory)).1,
        Contained (resolvedTarget false
          (parseFromString transferConfigFields TransferConfig.blank newDirectory)) touch := by
  refine ⟨by rw [touches_newDirectory]; simp, ?_⟩
  refine receive_contained false {} newDirectory _ _ ?_ (runs_exec emptyDisk [] _)
  constructor
  · decide +kernel
  · exact fun _ => by decide +kernel
  · exact fun _ host => absurd host (by decide)

/-- The layers of a target that does not exist are created above it. -/
theorem receive_creates_above :
    ∃ trace result path, Runs (slaveCheck false {} newDirectory) trace result ∧
      (.created, path) ∈ touches trace ∧
      ¬ AtOrBelow (resolvedTarget false
        (parseFromString transferConfigFields TransferConfig.blank newDirectory)) path := by
  refine ⟨_, _, str "/data/a", runs_exec emptyDisk [] _, ?_, by decide +kernel⟩
  rw [touches_newDirectory]
  decide

end Hdc.Transfer
