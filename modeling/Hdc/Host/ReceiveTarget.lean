import Hdc.Host.CommandLine
import Hdc.Host.Server
import Hdc.Transfer.File

/-!
Where a received file goes (`server_for_client.cpp`, `ParseHostReceiveArguments`; `file.cpp`,
`ParseMasterParameters` and `SetMasterParametersOnDaemon`).

Host and device read the arguments of a `file recv`: the host notes the target and lets the device
write there only, the device asks for the target that it has found itself. They do not count alike.
The host takes the word behind `-cwd` or `-b` as its value, and every word without a dash as a path.
The device looks at values as at any other word, and takes the word `remote` for an option wherever
it stands; what is left over it counts as paths. One path that is left means that the file goes to
the working directory.

* `receive_targets_iff`: exactly when the targets are the same.
-/

namespace Hdc.Host

open Interaction Transfer List
open Base (splitCommandToArgs)
open HdcServer (eraseRemote handleRemote)

/-! ### Options before operands -/

/-- An option with its value. -/
inductive RecvOption where
  | compress
  | sync
  | holdTimestamp
  | modeSync
  | cwd (path : Bytes)
  | bundle (name : Bytes)
deriving DecidableEq, Repr

namespace RecvOption

def words : RecvOption → List Bytes
  | .compress => [str "-z"]
  | .sync => [str "-sync"]
  | .holdTimestamp => [str "-a"]
  | .modeSync => [str "-m"]
  | .cwd path => [str "-cwd", path]
  | .bundle name => [str "-b", name]

/-- The values of an option. -/
def values : RecvOption → List Bytes
  | .cwd path => [path]
  | .bundle name => [name]
  | _ => []

end RecvOption

/-- The words that are options. -/
def optionWords : List Bytes :=
  [str "-z", str "-sync", str "-a", str "-m", str "-cwd", str "-b"]

/-- The arguments behind `recv`. -/
def recvArgs (options : List RecvOption) (operands : List Bytes) : List Bytes :=
  options.flatMap RecvOption.words ++ operands

/-! ### The host -/

/-- The working directory that the options name last. -/
def hostCwd (cwd : Bytes) (options : List RecvOption) : Bytes :=
  options.foldl (fun cwd option => match option with | .cwd path => path | _ => cwd) cwd

/-- The target that is noted for a command line (`RegisterHostPermit`). -/
def authorisedTarget (parameters : Bytes) : Option Bytes :=
  match splitCommandToArgs parameters with
  | some (command :: args) => if command = str "recv" then receiveTarget args else none
  | _ => none

variable {arg : Bytes}

/-- Every option begins with a dash. -/
theorem head_of_mem_optionWords (mem : arg ∈ optionWords) : arg.head? = some 45 := by
  have all : ∀ option ∈ optionWords, option.head? = some 45 := by decide
  exact all _ mem

theorem parseReceiveFrom_flag (flag : arg ∈ [str "-z", str "-sync", str "-a", str "-m"])
    (cwd lastPath : Bytes) (pathCount : Nat) (args : List Bytes) :
    parseReceiveFrom cwd lastPath pathCount (arg :: args) =
    parseReceiveFrom cwd lastPath pathCount args := by
  have notCwd : arg ≠ str "-cwd" := by
    rintro rfl
    revert flag
    decide
  cases args with
  | nil =>
    conv_lhs => rw [parseReceiveFrom, if_neg notCwd, if_pos flag]
    rfl
  | cons next args =>
    conv_lhs => rw [parseReceiveFrom, if_neg notCwd, if_pos flag]

theorem parseReceiveFrom_path (plain : arg.head? ≠ some 45) (cwd lastPath : Bytes)
    (pathCount : Nat) (args : List Bytes) :
    parseReceiveFrom cwd lastPath pathCount (arg :: args) =
    parseReceiveFrom cwd arg (pathCount + 1) args := by
  have notOption {word : Bytes} (mem : word ∈ optionWords) : arg ≠ word := fun same =>
    plain (same ▸ head_of_mem_optionWords mem)
  have notFlag : arg ∉ [str "-z", str "-sync", str "-a", str "-m"] := fun mem =>
    plain (head_of_mem_optionWords (mem_append_left [str "-cwd", str "-b"] mem))
  cases args with
  | nil =>
    conv_lhs => rw [parseReceiveFrom, if_neg (notOption (by decide)), if_neg notFlag,
      if_neg (notOption (by decide)), if_neg plain]
    rw [parseReceiveFrom, if_neg (Nat.succ_ne_zero _)]
  | cons next args =>
    conv_lhs => rw [parseReceiveFrom, if_neg (notOption (by decide)), if_neg notFlag,
      if_neg (notOption (by decide)), if_neg plain]

theorem parseReceiveFrom_option (option : RecvOption) (cwd lastPath : Bytes) (pathCount : Nat)
    (args : List Bytes) :
    parseReceiveFrom cwd lastPath pathCount (option.words ++ args) =
    parseReceiveFrom (hostCwd cwd [option]) lastPath pathCount args := by
  cases option with
  | compress => exact parseReceiveFrom_flag (by decide) _ _ _ _
  | sync => exact parseReceiveFrom_flag (by decide) _ _ _ _
  | holdTimestamp => exact parseReceiveFrom_flag (by decide) _ _ _ _
  | modeSync => exact parseReceiveFrom_flag (by decide) _ _ _ _
  | cwd path =>
    rw [RecvOption.words, cons_append, cons_append]
    rfl
  | bundle name =>
    rw [RecvOption.words, cons_append, cons_append]
    rfl

variable {operands : List Bytes}

theorem parseReceiveFrom_operands (plain : ∀ arg ∈ operands, arg.head? ≠ some 45)
    (cwd lastPath : Bytes) (pathCount : Nat) :
    parseReceiveFrom cwd lastPath pathCount operands =
      if pathCount + operands.length = 0 then none
      else some (cwd, operands.getLastD lastPath, pathCount + operands.length) := by
  induction operands generalizing lastPath pathCount with
  | nil => rfl
  | cons arg operands ih =>
    rw [parseReceiveFrom_path (plain arg (mem_cons_self ..)),
      ih (fun other mem => plain other (mem_cons_of_mem _ mem)), length_cons,
      getLastD_cons, Nat.add_assoc, Nat.add_comm 1]

/-- What the host reads of options and operands. -/
theorem parseReceiveFrom_words (plain : ∀ arg ∈ operands, arg.head? ≠ some 45)
    (options : List RecvOption) (cwd lastPath : Bytes) (pathCount : Nat) :
    parseReceiveFrom cwd lastPath pathCount (recvArgs options operands) =
      if pathCount + operands.length = 0 then none
      else some (hostCwd cwd options, operands.getLastD lastPath, pathCount + operands.length) := by
  induction options generalizing cwd with
  | nil => exact parseReceiveFrom_operands plain _ _ _
  | cons option options ih =>
    rw [recvArgs, flatMap_cons, append_assoc, parseReceiveFrom_option]
    exact ih _

/-- The path that stands for a number of paths: one alone goes to the working directory. -/
def pathFor (count : Nat) (last : Bytes) : Bytes := if count = 1 then str "." else last

theorem receiveTarget_words (plain : ∀ arg ∈ operands, arg.head? ≠ some 45)
    (options : List RecvOption) :
    receiveTarget (recvArgs options operands) =
      if operands = [] then none
      else resolveHostReceiveTargetPath (hostCwd [] options)
        (pathFor operands.length (operands.getLastD [])) := by
  rw [receiveTarget, parseHostReceiveArguments, parseReceiveFrom_words plain, Nat.zero_add]
  by_cases none : operands = []
  · rw [none]
    rfl
  · rw [if_neg (mt length_eq_zero_iff.mp none), if_neg none]
    rfl

/-! ### The device -/

/-- How many words the device counts for a word. -/
def weight (arg : Bytes) : Nat :=
  if arg ∈ [str "-z", str "-sync", str "-a", str "-m", str "remote"] then 1
  else if arg = str "-cwd" ∨ arg = str "-b" then 2
  else 0

/-- The word behind the last `-cwd`, wherever that stands. -/
def cwdBehind : Bytes → List Bytes → Bytes
  | cwd, [] => cwd
  | cwd, arg :: rest => cwdBehind (if arg = str "-cwd" then rest.headD [] else cwd) rest

variable {ctx after : CtxFile}

variable {index : Nat}

/-- What one word does, if it is accepted. -/
theorem parseMasterArg_eq {argc srcArgvIndex : Nat}
    {rest : List Bytes} (fine : parseMasterArg false argc ctx srcArgvIndex arg rest =
    (none, after, index)) : index = srcArgvIndex + weight arg ∧
    after.transferConfig.clientCwd =
    (if arg = str "-cwd" then rest.headD [] else ctx.transferConfig.clientCwd) ∧
    (arg ∉ optionWords → arg.head? ≠ some 45) := by
  unfold parseMasterArg at fine
  split_ifs at fine with z sync a cwd m remote b missing dash
  all_goals cases fine
  · subst z
    exact ⟨rfl, rfl, fun no => absurd (by decide) no⟩
  · subst sync
    exact ⟨rfl, rfl, fun no => absurd (by decide) no⟩
  · subst a
    exact ⟨rfl, rfl, fun no => absurd (by decide) no⟩
  · obtain ⟨rfl, -⟩ := cwd
    exact ⟨rfl, rfl, fun no => absurd (by decide) no⟩
  · subst m
    exact ⟨rfl, rfl, fun no => absurd (by decide) no⟩
  · subst remote
    exact ⟨rfl, rfl, fun _ => by decide⟩
  · subst b
    exact ⟨rfl, rfl, fun no => absurd (by decide) no⟩
  · have plain : arg ∉ optionWords := fun mem => dash (head_of_mem_optionWords mem)
    have notCwd : arg ≠ str "-cwd" := fun same => plain (by rw [same]; decide)
    have notListed : arg ∉ [str "-z", str "-sync", str "-a", str "-m", str "remote"] := by
      simp [z, sync, a, m, remote]
    refine ⟨?_, ?_, fun _ => dash⟩
    · rw [weight, if_neg notListed, if_neg (not_or.mpr ⟨notCwd, b⟩)]
      rfl
    · rw [if_neg notCwd]

variable {args : List Bytes}

/-- What the device reads of all words. -/
theorem parseMasterFrom_eq {argc srcArgvIndex : Nat}
    (fine : parseMasterFrom false argc ctx srcArgvIndex args = (none, after, index)) :
    index = srcArgvIndex + (args.map weight).sum ∧
    after.transferConfig.clientCwd = cwdBehind ctx.transferConfig.clientCwd args ∧
    ∀ arg ∈ args, arg ∉ optionWords → arg.head? ≠ some 45 := by
  induction args generalizing ctx srcArgvIndex with
  | nil =>
    cases fine
    exact ⟨rfl, rfl, fun _ mem => nomatch mem⟩
  | cons arg rest ih =>
    rw [parseMasterFrom] at fine
    split at fine
    · cases fine
    case h_2 middle src step =>
      obtain ⟨counted, cwd, dash⟩ := parseMasterArg_eq step
      obtain ⟨total, last, dashes⟩ := ih fine
      refine ⟨?_, ?_, ?_⟩
      · rw [total, counted, map_cons, sum_cons, Nat.add_assoc]
      · rw [last, cwd]
        rfl
      · exact forall_mem_cons.mpr ⟨dash, dashes⟩

/-- The path that the device asks for. -/
theorem parseMasterParameters_eq {ctx : CtxFile}
    (fine : parseMasterParameters false {} args = (none, ctx, index)) :
    index = (args.map weight).sum ∧ args.length ≠ index ∧
    ctx.transferConfig.clientCwd = cwdBehind [] args ∧
    (takeLastPath ctx args index).remotePath =
    (if index + 1 = args.length then str "." else args.getD (args.length - 1) []) ∧
    (takeLastPath ctx args index).transferConfig = ctx.transferConfig ∧
    ∀ arg ∈ args, arg ∉ optionWords → arg.head? ≠ some 45 := by
  unfold parseMasterParameters at fine
  split at fine
  case h_1 => cases fine
  case h_2 middle src loop =>
    obtain ⟨total, cwd, dashes⟩ := parseMasterFrom_eq loop
    rw [Nat.zero_add] at total
    unfold validateAndSetPaths at fine
    dsimp only at fine
    split_ifs at fine with nothing single
    · cases fine
    · cases fine
      refine ⟨total, nothing, cwd, ?_, ?_, dashes⟩
      · rw [takeLastPath, if_pos single.2, if_pos single.2]
      · rw [takeLastPath, if_pos single.2]
    · cases fine
      refine ⟨total, nothing, cwd, ?_, ?_, dashes⟩
      · rw [takeLastPath]
        split
        · rfl
        · rfl
      · rw [takeLastPath]
        split
        · rfl
        · rfl

/-- Every program has the specification that says nothing. -/
theorem always_anything {α : Type} (program : Program α) :
    Always (fun _ => True) (fun _ => True) program := by
  induction program with
  | done value => exact trivial
  | ask call next ih => exact fun answer => ⟨trivial, ih answer⟩

/-- The sandbox of a bundle is about the path on the device only. -/
theorem setMasterParametersOnDaemon_keeps {trace : List (Event Call Call.Answer)}
    (run : Runs (setMasterParametersOnDaemon ctx args index) trace (some (true, after))) :
    after.remotePath = (takeLastPath ctx args index).remotePath ∧
    after.transferConfig = (takeLastPath ctx args index).transferConfig := by
  obtain ⟨_, _, middle, -, first, second⟩ := Runs.andThen_inv run
  have same : middle = ctx := by
    have spec : Always (fun _ => True) (fun out => out.2 = ctx) (checkMasterBundle ctx) := by
      unfold checkMasterBundle
      dsimp only
      split
      · refine (always_anything _).bind fun valid _ => ?_
        split
        · rfl
        · exact (always_anything _).bind fun _ _ => rfl
      · rfl
    exact (spec.of_runs first).2 _ rfl
  subst same
  have spec : Always (fun _ => True) (fun out =>
      out.2.remotePath = (takeLastPath middle args index).remotePath ∧
        out.2.transferConfig = (takeLastPath middle args index).transferConfig)
      (enterMasterSandbox (takeLastPath middle args index).setLocalName) := by
    unfold enterMasterSandbox
    split
    · refine (always_anything _).bind fun valid _ => ?_
      split
      · refine (always_anything _).bind fun resolved _ => ?_
        split
        · exact ⟨rfl, rfl⟩
        · exact ⟨rfl, rfl⟩
      · exact ⟨rfl, rfl⟩
    · exact ⟨rfl, rfl⟩
  exact (spec.of_runs second).2 _ rfl

/-! ### Both -/

/-- How many words the device counts too much: values and operands that it takes for options. -/
def misread (options : List RecvOption) (operands : List Bytes) : Nat :=
  ((options.flatMap RecvOption.values ++ operands).map weight).sum

/-- With the words counted as either side counts them, the target is the same. -/
def SameTarget (options : List RecvOption) (operands : List Bytes) : Prop :=
  (if operands = [] then none
    else resolveHostReceiveTargetPath (hostCwd [] options)
      (pathFor operands.length (operands.getLastD []))) =
  resolveHostReceiveTargetPath (cwdBehind [] (recvArgs options operands))
    (pathFor (operands.length - misread options operands) ((recvArgs options operands).getLastD []))

theorem weight_words (option : RecvOption) :
    (option.words.map weight).sum = option.words.length + (option.values.map weight).sum := by
  cases option with
  | compress => rfl
  | sync => rfl
  | holdTimestamp => rfl
  | modeSync => rfl
  | cwd path => rfl
  | bundle name => rfl

theorem weight_recvArgs (options : List RecvOption) (operands : List Bytes) :
    ((recvArgs options operands).map weight).sum + operands.length =
    (recvArgs options operands).length + misread options operands := by
  induction options with
  | nil =>
    rw [recvArgs, misread]
    exact Nat.add_comm _ _
  | cons option options ih =>
    have own := weight_words option
    simp only [recvArgs, misread, flatMap_cons, append_assoc, map_append,
      sum_append, length_append] at ih ⊢
    omega

/-- A word that is not misread. -/
def Plain (word : Bytes) : Prop := weight word = 0

instance : DecidablePred Plain := fun word => inferInstanceAs (Decidable (weight word = 0))

theorem Plain.ne_cwd {word : Bytes} (plain : Plain word) : word ≠ str "-cwd" := by
  rintro rfl
  exact absurd plain (by decide)

theorem cwdBehind_plain {words : List Bytes} (plain : ∀ word ∈ words, Plain word) (cwd : Bytes) :
    cwdBehind cwd words = cwd := by
  induction words generalizing cwd with
  | nil => rfl
  | cons word words ih =>
    rw [cwdBehind, if_neg (plain _ (mem_cons_self ..)).ne_cwd]
    exact ih (fun other mem => plain other (mem_cons_of_mem _ mem)) _

section

variable {options : List RecvOption}
  (values : ∀ option ∈ options, ∀ value ∈ option.values, Plain value)
  (plain : ∀ word ∈ operands, Plain word)
include values plain

theorem cwdBehind_options (cwd : Bytes) :
    cwdBehind cwd (recvArgs options operands) = hostCwd cwd options := by
  induction options generalizing cwd with
  | nil => exact cwdBehind_plain plain _
  | cons option options ih =>
    have later := ih fun other mem => values other (mem_cons_of_mem _ mem)
    have own := values _ (mem_cons_self ..)
    rw [recvArgs, flatMap_cons, append_assoc]
    cases option with
    | compress => exact later _
    | sync => exact later _
    | holdTimestamp => exact later _
    | modeSync => exact later _
    | cwd path =>
      rw [RecvOption.words, cons_append, cons_append, cwdBehind, if_pos rfl, cwdBehind,
        if_neg (own _ (mem_singleton_self _)).ne_cwd]
      exact later path
    | bundle name =>
      rw [RecvOption.words, cons_append, cons_append, cwdBehind, if_neg (by decide),
        cwdBehind, if_neg (own _ (mem_singleton_self _)).ne_cwd]
      exact later _

theorem misread_plain : misread options operands = 0 := by
  rw [misread, List.sum_eq_zero_iff_forall_eq_nat]
  intro count mem
  obtain ⟨_, inside, rfl⟩ := mem_map.mp mem
  rcases mem_append.mp inside with value | operand
  · obtain ⟨_, listed, own⟩ := mem_flatMap.mp value
    exact values _ listed _ own
  · exact plain _ operand

end

/-! ### The line that is sent -/

theorem eraseRemote_recv (text : Bytes) :
    eraseRemote (str "recv " ++ text) = (eraseRemote text).map (str "recv " ++ ·) := by
  have word : str "recv " = [114, 101, 99, 118, 32] := by decide
  have wanted : str "remote " = [114, 101, 109, 111, 116, 101, 32] := by decide
  rw [word]
  simp only [cons_append, nil_append]
  rw [eraseRemote, if_neg (by simp [wanted]), eraseRemote, if_neg (by simp [wanted]), eraseRemote,
    if_neg (by simp [wanted]), eraseRemote, if_neg (by simp [wanted]), eraseRemote,
    if_neg (by simp [wanted])]
  cases eraseRemote text with
  | none => rfl
  | some rest => rfl

/-- `HandleRemote` leaves the word `recv` at its place. -/
theorem handleRemote_recv (channel : HChannel) (text : Bytes) :
    ∃ rest, (handleRemote channel (str "recv " ++ text)).2 = str "recv " ++ rest := by
  rw [handleRemote]
  dsimp only
  split
  · rw [eraseRemote_recv]
    cases eraseRemote text with
    | none => exact ⟨_, rfl⟩
    | some rest => exact ⟨_, rfl⟩
  · exact ⟨_, rfl⟩

/-- The host reads the word `recv`, and then what the device reads. -/
theorem splitCommandToArgs_recv {rest : Bytes} (split : splitCommandToArgs rest = some args) :
    splitCommandToArgs (str "recv " ++ rest) = some (str "recv" :: args) := by
  have line : (str "recv " ++ rest).takeWhile (· ≠ 0) =
      str "recv" ++ 32 :: rest.takeWhile (· ≠ 0) := rfl
  have closed : Closed (str "recv") := closed_of_plain (by decide)
  have same : splitArgs (rest.takeWhile (· ≠ 0)) = args := by
    rw [splitCommandToArgs] at split
    split at split
    · cases split
    case h_2 =>
      obtain rfl := Option.some.inj split
      rfl
  rw [splitCommandToArgs, line]
  change some (splitArgs (str "recv" ++ 32 :: rest.takeWhile (· ≠ 0))) = _
  rw [closed, same]
  rfl

/-- The target of the configuration that the device sends with `CMD_FILE_CHECK`. -/
def requestedTarget (config : TransferConfig) : Option Bytes :=
  resolveHostReceiveTargetPath config.clientCwd config.path

/-- For every line of a client behind `recv`, with options before operands, that the device accepts,
the target that the host notes is the target that the device asks for, if and only if it is the same
with the words counted as either side counts them. It is, where no value and no operand is a word
that the device takes for an option. -/
theorem receive_targets_iff (channel : HChannel) (text : Bytes) {options : List RecvOption}
    {operands : List Bytes}
    (split : splitCommandToArgs ((handleRemote channel (str "recv " ++ text)).2.drop 5) =
      some (recvArgs options operands))
    (first : ∀ arg ∈ operands, arg ∉ optionWords) {ctx after : CtxFile} {index : Nat}
    (parsed : parseMasterParameters false {} (recvArgs options operands) = (none, ctx, index))
    {trace : List (Event Call Call.Answer)}
    (accepted : Runs (setMasterParametersOnDaemon ctx (recvArgs options operands) index) trace
      (some (true, after))) (found : Stat) :
    (authorisedTarget (handleRemote channel (str "recv " ++ text)).2 =
        requestedTarget (noteStat after found).transferConfig ↔ SameTarget options operands) ∧
      ((∀ option ∈ options, ∀ value ∈ option.values, Plain value) →
        (∀ arg ∈ operands, Plain arg) →
          authorisedTarget (handleRemote channel (str "recv " ++ text)).2 =
            requestedTarget (noteStat after found).transferConfig) := by
  obtain ⟨_, _, cwd, path, config, dashes⟩ := parseMasterParameters_eq parsed
  obtain ⟨samePath, sameConfig⟩ := setMasterParametersOnDaemon_keeps accepted
  have plain : ∀ arg ∈ operands, arg.head? ≠ some 45 := fun arg mem =>
    dashes arg (mem_append_right _ mem) (first arg mem)
  have sum := weight_recvArgs options operands
  -- what the host notes
  have host : authorisedTarget (handleRemote channel (str "recv " ++ text)).2 =
      if operands = [] then none
      else resolveHostReceiveTargetPath (hostCwd [] options)
        (pathFor operands.length (operands.getLastD [])) := by
    obtain ⟨rest, line⟩ := handleRemote_recv channel text
    have behind : (str "recv " ++ rest).drop 5 = rest := rfl
    rw [line, behind] at split
    rw [line, authorisedTarget, splitCommandToArgs_recv split]
    dsimp only
    rw [if_pos rfl, receiveTarget_words plain]
  -- what the device asks for
  have device : requestedTarget (noteStat after found).transferConfig =
      resolveHostReceiveTargetPath (cwdBehind [] (recvArgs options operands))
        (pathFor (operands.length - misread options operands)
          ((recvArgs options operands).getLastD [])) := by
    have askedCwd : (noteStat after found).transferConfig.clientCwd =
        cwdBehind [] (recvArgs options operands) := by
      rw [← cwd, ← config, ← sameConfig, noteStat]
      dsimp only
      split
      · rfl
      · rfl
    have askedPath : (noteStat after found).transferConfig.path = after.remotePath := rfl
    have last : (recvArgs options operands).getD ((recvArgs options operands).length - 1) [] =
        (recvArgs options operands).getLastD [] := by
      rw [getD_eq_getElem?_getD, ← getLast?_eq_getElem?, getLastD_eq_getLast?]
    rw [requestedTarget, askedCwd, askedPath, samePath, path, last, pathFor]
    congr 1
    have single : index + 1 = (recvArgs options operands).length ↔
        operands.length - misread options operands = 1 := by omega
    simp only [single]
  rw [host, device]
  refine ⟨Iff.rfl, ?_⟩
  intro values plainOperands
  have none := misread_plain values plainOperands
  have some : operands ≠ [] := by
    rintro rfl
    rw [length_nil] at sum
    omega
  have sameLast : (recvArgs options operands).getLastD [] = operands.getLastD [] := by
    rw [recvArgs, getLastD_eq_getLast?, getLastD_eq_getLast?, getLast?_append,
      getLast?_eq_some_getLast some]
    rfl
  rw [if_neg some, none, Nat.sub_zero, cwdBehind_options values plainOperands, sameLast]

/-- `hdc file recv -z a b` in `/home`. -/
theorem receive_targets_plain :
    let text := str "remote -cwd \"/home/\" -z a b"
    let options : List RecvOption := [.cwd (str "/home/"), .compress]
    let operands := [str "a", str "b"]
    let ctx := (parseMasterParameters false {} (recvArgs options operands)).2.1
    authorisedTarget (handleRemote ⟨7, false, false⟩ (str "recv " ++ text)).2 =
      requestedTarget (noteStat ctx.setLocalName ⟨0, 0, 0, 0, 0, 0, 0, 0⟩).transferConfig := by
  intro text options operands ctx
  have split : splitCommandToArgs ((handleRemote ⟨7, false, false⟩ (str "recv " ++ text)).2.drop 5) =
      some (recvArgs options operands) := by decide
  have parsed : parseMasterParameters false {} (recvArgs options operands) = (none, ctx, 3) := by
    decide
  have accepted : Runs (setMasterParametersOnDaemon ctx (recvArgs options operands) 3) []
      (some (true, ctx.setLocalName)) := Runs.done (true, ctx.setLocalName)
  exact (receive_targets_iff ⟨7, false, false⟩ _ split (by decide) parsed accepted
    ⟨0, 0, 0, 0, 0, 0, 0, 0⟩).2 (by decide) (by decide)

/-- A file `remote` on the device, to `b` in `/home`: the host notes `/home/b`, the device asks for
`/home/.`, and takes `b` for the file to send. -/
theorem remoteOperand_mismatch :
    let line := (handleRemote ⟨7, false, false⟩
      (str "recv " ++ str "remote -cwd \"/home/\" remote b")).2
    let args := recvArgs [.cwd (str "/home/")] [str "remote", str "b"]
    let (_, ctx, index) := parseMasterParameters false {} args
    let sent := (takeLastPath ctx args index).setLocalName
    splitCommandToArgs (line.drop 5) = some args ∧
      Runs (setMasterParametersOnDaemon ctx args index) [] (some (true, sent)) ∧
      authorisedTarget line = some (str "/home/b") ∧
      requestedTarget (noteStat sent ⟨0, 0, 0, 0, 0, 0, 0, 0⟩).transferConfig =
        some (str "/home/.") ∧ sent.localPath = str "b" := by
  refine ⟨by decide, Runs.done _, by decide, by decide, by decide⟩

end Hdc.Host
