import Hdc.Base

/-!
How a command line gets from the client to the side that carries it out (`main.cpp`,
`SplitOptionAndCommand`; `base.cpp`, `SplitCommandToArgs`).

The client joins its arguments to one text, with blanks between them. An argument that has a
blank in it is put in quotes. The other side cuts the text at blanks, tabs and the ends of lines.
So an argument with a tab or a line break, but no blank, comes out in pieces, and an empty one
does not come out at all; and the text in quotes is made in a buffer of 60 KB, which gives
nothing for an argument that does not fit.

* `args_lossless_iff`: exactly which arguments come out as they went in.
-/

namespace Hdc.Host

open List Option

open Base (splitArgsFrom splitCommandToArgs)

/-! ### The client -/

def cmdstrFileSend : Bytes := str "file send"
def cmdstrFileRecv : Bytes := str "file recv"
def cmdstrAppInstall : Bytes := str "install"
def cmdstrAppSideload : Bytes := str "sideload"
def cmdstrWaitFor : Bytes := str "wait"
def cmdstrRemoteParameter : Bytes := str "remote"

/-- `registerCommand`, for a build with or without `HOST_OHOS`. -/
def registerCommand (hostOhos : Bool) : List Bytes :=
  [str "version", str "help", str "discover", str "list targets", str "checkserver",
    str "checkdevice", cmdstrWaitFor, str "any", str "tconn", str "reconnect", str "shell",
    str "shell -", cmdstrFileSend, cmdstrFileRecv, str "fport", str "rport", str "kill",
    str "start", str "keygen", cmdstrAppInstall, str "uninstall", str "target mount", str "hilog",
    str "smode", str "bugreport", str "tmode", cmdstrAppSideload, str "target boot", str "jpid",
    str "track-jpid", str "update", str "flash", str "erase", str "format"] ++
  if hostOhos then [] else [str "spawn-sub", str "killall-sub"]

/-- `IsRegisterCommand`: the command, and the number of arguments that make it. -/
def isRegisterCommand (hostOhos : Bool) (cmd : Bytes) (cmdnext : Option Bytes) :
    Option (Bytes × Nat) :=
  let doubleCommand := cmd ++ [32] ++ cmdnext.getD []
  (registerCommand hostOhos).findSome? fun v =>
    if doubleCommand = v then some (doubleCommand, 2)
    else if cmd = v ∨ cmdstrWaitFor.isPrefixOf cmd then some (cmd, 1)
    else none

def pathMax : Nat := 4096

/-- `StringFormat` of a text in quotes, which is empty when the buffer is too small. -/
def quote (text : Bytes) : Bytes :=
  if text.length + 2 ≤ maxSizeIobufStable - 1 then [34] ++ text ++ [34] else []

/-- A blank, unless the text is empty. -/
def gap (text : Bytes) : Bytes := if text = [] then [] else [32]

/-- The commands that are followed by the working directory. -/
def transferCommand (command : Bytes) : Bool :=
  command = cmdstrFileSend || command = cmdstrFileRecv || command = cmdstrAppInstall ||
    command = cmdstrAppSideload

/-- The working directory as `AppendCwdWhenTransfer` writes it, if `uv_cwd` gives one, up to the
first NUL, that fits. -/
def cwdPath (cwd : Option Bytes) : Option Bytes :=
  ((cwd.map (·.takeWhile (· ≠ 0))).filter (·.length < pathMax - 1)).map fun path =>
    if path.getLast? = some 47 then path else path ++ [47]

/-- `AppendCwdWhenTransfer`. -/
def appendCwdWhenTransfer (cwd : Option Bytes) (outCommand : Bytes) : Bytes :=
  if !transferCommand outCommand then outCommand
  else
    match cwdPath cwd with
    | none => outCommand
    | some path =>
      let outCommand := outCommand ++ gap outCommand ++ cmdstrRemoteParameter
      outCommand ++ (if outCommand = [] then str "-cwd " else str " -cwd ") ++ quote path

/-- An argument as it is written behind the command. -/
def rawArgument (arg : Bytes) : Bytes := if 32 ∈ arg then quote arg else arg

def appendArgument (outCommand arg : Bytes) : Bytes := outCommand ++ gap outCommand ++ rawArgument arg

/-- `SplitOptionAndCommand`: the options, the first of which is quoted, and the command. -/
def splitOptionAndCommandFrom (hostOhos : Bool) (cwd : Option Bytes) :
    Nat → Bytes → List Bytes → Bytes × Bytes
  | _, outOption, [] => (outOption, [])
  | i, outOption, arg :: rest =>
    match isRegisterCommand hostOhos arg rest.head? with
    | some (command, count) =>
      (outOption,
        (rest.drop (count - 1)).foldl appendArgument (appendCwdWhenTransfer cwd command))
    | none =>
      splitOptionAndCommandFrom hostOhos cwd (i + 1)
        (outOption ++ gap outOption ++ if i = 0 then quote arg else arg) rest

def splitOptionAndCommand (hostOhos : Bool) (cwd : Option Bytes) (argv : List Bytes) :
    Bytes × Bytes :=
  splitOptionAndCommandFrom hostOhos cwd 0 [] argv

/-- The command among the arguments, and what stands behind it. -/
def commandAndArgs (hostOhos : Bool) : List Bytes → Option (Bytes × List Bytes)
  | [] => none
  | arg :: rest =>
    match isRegisterCommand hostOhos arg rest.head? with
    | some (command, count) => some (command, rest.drop (count - 1))
    | none => commandAndArgs hostOhos rest

/-- What is inserted between the command and its arguments. -/
def inserted (cwd : Option Bytes) (command : Bytes) : List Bytes :=
  if transferCommand command then
    ((cwdPath cwd).map fun path => [cmdstrRemoteParameter, str "-cwd", path]).getD []
  else []

variable {args : List Bytes} {argv : List Bytes} {command : Bytes} {cwd : Option Bytes}
variable {hostOhos : Bool}

theorem splitOptionAndCommandFrom_eq (found : commandAndArgs hostOhos argv = some (command, args))
    (i : Nat) (outOption : Bytes) :
    (splitOptionAndCommandFrom hostOhos cwd i outOption argv).2 =
    args.foldl appendArgument (appendCwdWhenTransfer cwd command) := by
  induction argv generalizing i outOption with
  | nil => cases found
  | cons arg rest ih =>
    rw [commandAndArgs] at found
    rw [splitOptionAndCommandFrom]
    split at found
    case h_1 name count here =>
      cases found
      rfl
    case h_2 here => exact ih found _ _

/-! ### The side that reads -/

/-- A byte at which arguments are cut. -/
def Separates (byte : UInt8) : Prop := byte = 32 ∨ byte = 9 ∨ byte = 10 ∨ byte = 13

instance : DecidablePred Separates := fun byte =>
  inferInstanceAs (Decidable (byte = 32 ∨ byte = 9 ∨ byte = 10 ∨ byte = 13))

/-- What is cut out of a text. -/
def splitArgs (text : Bytes) : List Bytes := splitArgsFrom false [] none text

section Steps

variable (argv : List Bytes) (arg : Option Bytes) {byte : UInt8} (text : Bytes)

theorem splitArgsFrom_nil (quoted : Bool) :
    splitArgsFrom quoted argv arg [] = argv ++ arg.toList := by
  cases quoted with
  | true => rfl
  | false => rfl

theorem splitArgsFrom_open :
    splitArgsFrom false argv arg (34 :: text) = splitArgsFrom true argv (some (arg.getD [])) text := by
  rw [splitArgsFrom, if_pos rfl]

theorem splitArgsFrom_close :
    splitArgsFrom true argv arg (34 :: text) = splitArgsFrom false argv arg text := by
  rw [splitArgsFrom, if_pos rfl]

theorem splitArgsFrom_inside (letter : byte ≠ 34) :
    splitArgsFrom true argv arg (byte :: text) =
    splitArgsFrom true argv (some (arg.getD [] ++ [byte])) text := by
  rw [splitArgsFrom, if_neg letter]

theorem splitArgsFrom_separator (separates : Separates byte) :
    splitArgsFrom false argv arg (byte :: text) =
    splitArgsFrom false (argv ++ arg.toList) none text := by
  have notQuote : byte ≠ 34 := by
    rintro rfl
    revert separates
    decide
  rw [Separates] at separates
  rw [splitArgsFrom, if_neg notQuote, if_pos separates]

theorem splitArgsFrom_letter (notQuote : byte ≠ 34) (letter : ¬ Separates byte) :
    splitArgsFrom false argv arg (byte :: text) =
    splitArgsFrom false argv (some (arg.getD [] ++ [byte])) text := by
  rw [Separates] at letter
  rw [splitArgsFrom, if_neg notQuote, if_neg letter]

end Steps

theorem splitArgsFrom_append (quoted : Bool) (argv : List Bytes) (arg : Option Bytes) (text : Bytes) :
    splitArgsFrom quoted argv arg text = argv ++ splitArgsFrom quoted [] arg text := by
  induction text generalizing quoted argv arg with
  | nil =>
    rfl
  | cons byte text ih =>
    cases quoted with
    | true =>
      by_cases quote : byte = 34
      · subst quote
        exact ih _ _ _
      · rw [splitArgsFrom_inside _ _ _ quote, splitArgsFrom_inside _ _ _ quote]
        exact ih _ _ _
    | false =>
      by_cases quote : byte = 34
      · subst quote
        exact ih _ _ _
      · by_cases separates : Separates byte
        · rw [splitArgsFrom_separator _ _ _ separates, splitArgsFrom_separator _ _ _ separates, ih,
            ih false ([] ++ arg.toList), nil_append, append_assoc]
        · rw [splitArgsFrom_letter _ _ _ quote separates, splitArgsFrom_letter _ _ _ quote separates]
          exact ih _ _ _

/-- A text behind which a blank ends the argument: no quote is left open. -/
def Closed (text : Bytes) : Prop :=
  ∀ rest, splitArgs (text ++ 32 :: rest) = splitArgs text ++ splitArgs rest

theorem Closed.join {text more : Bytes} (closed : Closed text) (closedMore : Closed more) :
    Closed (text ++ 32 :: more) := by
  intro rest
  rw [append_assoc, cons_append, closed, closedMore, closed, append_assoc]

variable {text : Bytes}

section

variable (plain : 34 ∉ text)
include plain

theorem splitArgsFrom_unquoted (arg : Option Bytes) (rest : Bytes) :
    splitArgsFrom false [] arg (text ++ 32 :: rest) =
    splitArgsFrom false [] arg text ++ splitArgs rest := by
  induction text generalizing arg with
  | nil =>
    rw [nil_append, splitArgsFrom_separator _ _ _ (.inl rfl), splitArgsFrom_append,
      splitArgsFrom_nil]
    rfl
  | cons byte text ih =>
    obtain ⟨notQuote, plain⟩ := not_or.mp (mt mem_cons.mpr plain)
    by_cases separates : Separates byte
    · rw [cons_append, splitArgsFrom_separator _ _ _ separates,
        splitArgsFrom_separator _ _ _ separates, splitArgsFrom_append, ih plain,
        splitArgsFrom_append false ([] ++ arg.toList)]
      simp only [append_assoc]
    · rw [cons_append, splitArgsFrom_letter _ _ _ (Ne.symm notQuote) separates,
        splitArgsFrom_letter _ _ _ (Ne.symm notQuote) separates]
      exact ih plain _

theorem closed_of_plain : Closed text :=
  fun rest => splitArgsFrom_unquoted plain none rest

/-- Text in quotes is one argument, whatever it is. -/
theorem splitArgsFrom_quoted (arg : Bytes) (rest : Bytes) :
    splitArgsFrom true [] (some arg) (text ++ 34 :: rest) =
    splitArgsFrom false [] (some (arg ++ text)) rest := by
  induction text generalizing arg with
  | nil => rw [nil_append, splitArgsFrom_close, append_nil]
  | cons byte text ih =>
    obtain ⟨notQuote, plain⟩ := not_or.mp (mt mem_cons.mpr plain)
    rw [cons_append, splitArgsFrom_inside _ _ _ (Ne.symm notQuote), getD_some, ih plain,
      append_assoc]
    rfl

theorem splitArgs_inQuotes : splitArgs ([34] ++ text ++ [34]) = [text] := by
  rw [splitArgs, append_assoc, singleton_append, splitArgsFrom_open, getD_none,
    splitArgsFrom_quoted plain, splitArgsFrom_nil]
  rfl

theorem closed_inQuotes : Closed ([34] ++ text ++ [34]) := by
  intro rest
  rw [splitArgs_inQuotes plain, splitArgs, append_assoc, append_assoc,
    singleton_append, splitArgsFrom_open, getD_none, singleton_append,
    splitArgsFrom_quoted plain, splitArgsFrom_separator _ _ _ (.inl rfl), splitArgsFrom_append]
  rfl

end

/-- Quotes never come out. -/
theorem splitArgs_noQuote (text : Bytes) : ∀ out ∈ splitArgs text, 34 ∉ out := by
  have letters := @Base.splitArgsFrom_forall (· ≠ 34) false [] none text nofun nofun
    fun _ _ letter => letter
  exact fun out mem quote => letters out mem 34 quote rfl

/-- Without quotes, what comes out is not empty and has no separator in it. -/
theorem splitArgsFrom_pieces {arg : Option Bytes} (plain : 34 ∉ text)
    (done : ∀ out ∈ argv, out ≠ [] ∧ ∀ byte ∈ out, ¬ Separates byte)
    (sofar : ∀ out ∈ arg, out ≠ [] ∧ ∀ byte ∈ out, ¬ Separates byte) :
    ∀ out ∈ splitArgsFrom false argv arg text, out ≠ [] ∧ ∀ byte ∈ out, ¬ Separates byte := by
  have both {argv : List Bytes} {arg : Option Bytes}
      (done : ∀ out ∈ argv, out ≠ [] ∧ ∀ byte ∈ out, ¬ Separates byte)
      (sofar : ∀ out ∈ arg, out ≠ [] ∧ ∀ byte ∈ out, ¬ Separates byte) :
      ∀ out ∈ argv ++ arg.toList, out ≠ [] ∧ ∀ byte ∈ out, ¬ Separates byte :=
    forall_mem_append.mpr ⟨done, fun out last => sofar out (mem_toList.mp last)⟩
  induction text generalizing argv arg with
  | nil =>
    exact both done sofar
  | cons byte text ih =>
    obtain ⟨notQuote, plain⟩ := not_or.mp (mt mem_cons.mpr plain)
    by_cases separates : Separates byte
    · rw [splitArgsFrom_separator _ _ _ separates]
      exact ih plain (both done sofar) nofun
    · rw [splitArgsFrom_letter _ _ _ (Ne.symm notQuote) separates]
      refine ih plain done ?_
      intro out mem
      obtain rfl := mem_some.mp mem
      refine ⟨by simp, ?_⟩
      intro letter inside
      rcases mem_append.mp inside with old | new
      · cases arg with
        | none => cases old
        | some before => exact (sofar before rfl).2 letter old
      · obtain rfl := mem_singleton.mp new
        exact separates

theorem splitArgsFrom_word (plain : 34 ∉ text) (word : ∀ byte ∈ text, ¬ Separates byte)
    (arg : Bytes) : splitArgsFrom false [] (some arg) text = [arg ++ text] := by
  induction text generalizing arg with
  | nil =>
    rw [append_nil]
    rfl
  | cons byte text ih =>
    obtain ⟨notQuote, plain⟩ := not_or.mp (mt mem_cons.mpr plain)
    rw [splitArgsFrom_letter _ _ _ (Ne.symm notQuote) (word byte (mem_cons_self ..)),
      getD_some, ih plain fun other mem => word other (mem_cons_of_mem _ mem),
      append_assoc]
    rfl

/-- A text without quotes and separators is one argument. -/
theorem splitArgs_word (plain : 34 ∉ text) (some : text ≠ [])
    (word : ∀ byte ∈ text, ¬ Separates byte) : splitArgs text = [text] := by
  cases text with
  | nil => exact absurd rfl some
  | cons byte text =>
    obtain ⟨notQuote, plain⟩ := not_or.mp (mt mem_cons.mpr plain)
    rw [splitArgs, splitArgsFrom_letter _ _ _ (Ne.symm notQuote) (word byte (mem_cons_self ..)),
      splitArgsFrom_word plain fun other mem => word other (mem_cons_of_mem _ mem)]
    rfl

/-! ### From one side to the other -/

/-- An argument with a blank fits the buffer for quoting; any other is not empty and has no tab and
no end of a line. -/
def Carried (arg : Bytes) : Prop :=
  if 32 ∈ arg then arg.length + 2 ≤ maxSizeIobufStable - 1
  else arg ≠ [] ∧ ∀ byte ∈ arg, ¬ Separates byte

instance : DecidablePred Carried := fun arg =>
  inferInstanceAs (Decidable (if 32 ∈ arg then arg.length + 2 ≤ maxSizeIobufStable - 1
    else arg ≠ [] ∧ ∀ byte ∈ arg, ¬ Separates byte))

variable {arg : Bytes}

theorem closed_rawArgument (plain : 34 ∉ arg) : Closed (rawArgument arg) := by
  rw [rawArgument, quote]
  split
  · split
    · exact closed_inQuotes plain
    · exact closed_of_plain not_mem_nil
  · exact closed_of_plain plain

theorem splitArgs_carried (plain : 34 ∉ arg) (carried : Carried arg) :
    splitArgs (rawArgument arg) = [arg] := by
  rw [Carried] at carried
  rw [rawArgument]
  split at carried
  case isTrue blank => rw [if_pos blank, quote, if_pos carried, splitArgs_inQuotes plain]
  case isFalse noBlank => rw [if_neg noBlank, splitArgs_word plain carried.1 carried.2]

/-- Whatever comes out could have been carried. -/
theorem carried_of_mem (plain : 34 ∉ arg) {out : Bytes} (mem : out ∈ splitArgs (rawArgument arg)) :
    Carried out := by
  rw [rawArgument, quote] at mem
  split at mem
  case isTrue blank =>
    split at mem
    case isTrue fits =>
      rw [splitArgs_inQuotes plain, mem_singleton] at mem
      rw [mem, Carried, if_pos blank]
      exact fits
    case isFalse => cases mem
  case isFalse =>
    have pieces : ∀ out ∈ splitArgs arg, out ≠ [] ∧ ∀ byte ∈ out, ¬ Separates byte :=
      splitArgsFrom_pieces plain (fun _ old => nomatch old) (fun _ old => nomatch old)
    obtain ⟨nonempty, word⟩ := pieces out mem
    have noBlank : 32 ∉ out := fun blank => word 32 blank (.inl rfl)
    rw [Carried, if_neg noBlank]
    exact ⟨nonempty, word⟩

theorem appendArgument_eq (some : text ≠ []) (arg : Bytes) :
    appendArgument text arg = text ++ 32 :: rawArgument arg := by
  rw [appendArgument, gap, if_neg some, append_assoc, singleton_append]

/-- What is cut out of the whole text is what is cut out of its parts. -/
theorem splitArgs_join (plain : ∀ arg ∈ args, 34 ∉ arg) (some : text ≠ []) (closed : Closed text) :
    splitArgs (args.foldl appendArgument text) =
    splitArgs text ++ args.flatMap fun arg => splitArgs (rawArgument arg) := by
  induction args generalizing text with
  | nil => rw [foldl_nil, flatMap_nil, append_nil]
  | cons arg args ih =>
    have raw := closed_rawArgument (plain _ (mem_cons_self ..))
    rw [foldl_cons, appendArgument_eq some,
      ih (fun other mem => plain other (mem_cons_of_mem _ mem)) (by simp) (closed.join raw),
      closed, flatMap_cons, append_assoc]

theorem splitCommandToArgs_eq (some : text ≠ []) (free : 0 ∉ text) :
    splitCommandToArgs text = Option.some (splitArgs text) := by
  have whole : text.takeWhile (· ≠ 0) = text := by
    rw [takeWhile_eq_self_iff]
    intro byte mem
    have : byte ≠ 0 := fun zero => free (zero ▸ mem)
    simpa using this
  rw [splitCommandToArgs, whole]
  split
  · exact absurd rfl some
  · rfl

theorem cwdPath_spec {path : Bytes} (here : cwdPath cwd = some path) :
    0 ∉ path ∧ path.length + 2 ≤ maxSizeIobufStable - 1 := by
  rw [cwdPath, map_eq_some_iff] at here
  obtain ⟨_, kept, rfl⟩ := here
  obtain ⟨read, short⟩ := filter_eq_some_iff.mp kept
  obtain ⟨buffer, -, rfl⟩ := map_eq_some_iff.mp read
  have free : 0 ∉ buffer.takeWhile (· ≠ 0) := by
    intro zero
    simpa using all_eq_true.mp all_takeWhile 0 zero
  have bound : (buffer.takeWhile (· ≠ 0)).length < 4095 := by simpa [pathMax] using short
  have room : maxSizeIobufStable = 61440 := rfl
  split
  · exact ⟨free, by omega⟩
  refine ⟨?_, ?_⟩
  · rw [mem_append, mem_singleton]
    rintro (inside | last)
    · exact free inside
    · cases last
  · rw [length_append, length_singleton]
    omega

theorem isRegisterCommand_plain {cmd command : Bytes} {next : Option Bytes} {count : Nat}
    (found : isRegisterCommand hostOhos cmd next = some (command, count))
    (plain : 34 ∉ cmd ∧ 0 ∉ cmd) : command ≠ [] ∧ 34 ∉ command ∧ 0 ∉ command := by
  have table : ∀ v ∈ registerCommand hostOhos, v ≠ [] ∧ 34 ∉ v ∧ 0 ∉ v := by
    cases hostOhos <;> decide
  obtain ⟨v, mem, here⟩ := exists_of_findSome?_eq_some found
  split at here
  case isTrue double =>
    cases here
    rw [double]
    exact table v mem
  case isFalse =>
    split at here
    case isTrue single =>
      cases here
      refine ⟨?_, plain⟩
      rintro rfl
      rcases single with same | starts
      · exact (table v mem).1 same.symm
      · revert starts
        decide
    case isFalse => cases here

/-- The command and its arguments have what all arguments have. -/
theorem commandAndArgs_plain (found : commandAndArgs hostOhos argv = some (command, args))
    (plain : ∀ arg ∈ argv, 34 ∉ arg ∧ 0 ∉ arg) :
    (command ≠ [] ∧ 34 ∉ command ∧ 0 ∉ command) ∧ ∀ arg ∈ args, 34 ∉ arg ∧ 0 ∉ arg := by
  induction argv with
  | nil => cases found
  | cons arg rest ih =>
    have first := plain _ (mem_cons_self ..)
    have later : ∀ arg ∈ rest, 34 ∉ arg ∧ 0 ∉ arg := fun other mem =>
      plain other (mem_cons_of_mem _ mem)
    rw [commandAndArgs] at found
    split at found
    case h_1 name count here =>
      cases found
      exact ⟨isRegisterCommand_plain here first, fun other mem => later other (mem_of_mem_drop mem)⟩
    case h_2 => exact ih found later

/-- Either nothing is inserted, or the working directory in quotes. -/
theorem appendCwdWhenTransfer_cases (cwd : Option Bytes) (some : command ≠ []) :
    (inserted cwd command = [] ∧ appendCwdWhenTransfer cwd command = command) ∨
    ∃ path, 0 ∉ path ∧ inserted cwd command = [cmdstrRemoteParameter, str "-cwd", path] ∧
    appendCwdWhenTransfer cwd command =
    command ++ 32 :: (cmdstrRemoteParameter ++ 32 :: (str "-cwd" ++ 32 ::
    ([34] ++ path ++ [34]))) := by
  rw [appendCwdWhenTransfer, inserted]
  cases transferCommand command with
  | false => exact .inl ⟨rfl, rfl⟩
  | true =>
    cases here : cwdPath cwd with
    | none => exact .inl ⟨rfl, rfl⟩
    | some path =>
      obtain ⟨free, fits⟩ := cwdPath_spec here
      refine .inr ⟨_, free, rfl, ?_⟩
      dsimp only
      rw [gap, if_neg some, quote, if_pos fits]
      simp [str]

/-- The words of the command and what is inserted behind them. -/
theorem splitArgs_appendCwd (some : command ≠ []) (plain : 34 ∉ command)
    (free : ∀ word ∈ inserted cwd command, 34 ∉ word) :
    splitArgs (appendCwdWhenTransfer cwd command) = splitArgs command ++ inserted cwd command ∧
    Closed (appendCwdWhenTransfer cwd command) := by
  have closed := closed_of_plain plain
  rcases appendCwdWhenTransfer_cases cwd some with ⟨none, same⟩ | ⟨path, -, words, text⟩
  · rw [none, same, append_nil]
    exact ⟨rfl, closed⟩
  · have noQuote : 34 ∉ path := free path (by simp [words])
    have remote : Closed cmdstrRemoteParameter := closed_of_plain (by decide)
    have option : Closed (str "-cwd") := closed_of_plain (by decide)
    refine ⟨?_, ?_⟩
    · rw [text, words, closed, remote, option, splitArgs_inQuotes noQuote]
      rfl
    · rw [text]
      exact closed.join (remote.join (option.join (closed_inQuotes noQuote)))

theorem free_foldl (free : ∀ arg ∈ args, 0 ∉ arg) (some : text ≠ []) (first : 0 ∉ text) :
    args.foldl appendArgument text ≠ [] ∧ 0 ∉ args.foldl appendArgument text := by
  induction args generalizing text with
  | nil => exact ⟨some, first⟩
  | cons arg args ih =>
    have raw : 0 ∉ rawArgument arg := by
      have own := free _ (mem_cons_self ..)
      rw [rawArgument, quote]
      split
      · split
        · simpa using own
        · exact not_mem_nil
      · exact own
    rw [foldl_cons, appendArgument_eq some]
    apply ih fun other mem => free other (mem_cons_of_mem _ mem)
    · simp
    · simpa using ⟨first, raw⟩

theorem free_appendCwd (cwd : Option Bytes) (some : command ≠ []) (free : 0 ∉ command) :
    appendCwdWhenTransfer cwd command ≠ [] ∧ 0 ∉ appendCwdWhenTransfer cwd command := by
  rcases appendCwdWhenTransfer_cases cwd some with ⟨-, same⟩ | ⟨_, freePath, -, text⟩
  · rw [same]
    exact ⟨some, free⟩
  · rw [text]
    have remote : 0 ∉ cmdstrRemoteParameter := by decide
    have option : 0 ∉ str "-cwd" := by decide
    simpa using ⟨free, remote, option, freePath⟩

/-- Exactly which arguments come out as they went in: for every command line without quotes, the other
side reads the words of the command, what the client inserts and the arguments, if and only if every
argument is carried and the working directory, where it is inserted, has no quote in it. -/
theorem args_lossless_iff (hostOhos : Bool) (cwd : Option Bytes) {argv : List Bytes}
    (plain : ∀ arg ∈ argv, 34 ∉ arg ∧ 0 ∉ arg) {command : Bytes} {args : List Bytes}
    (found : commandAndArgs hostOhos argv = some (command, args)) :
    splitCommandToArgs (splitOptionAndCommand hostOhos cwd argv).2 =
        some (splitArgs command ++ inserted cwd command ++ args) ↔
      (∀ arg ∈ args, Carried arg) ∧ ∀ word ∈ inserted cwd command, 34 ∉ word := by
  obtain ⟨⟨nonempty, noQuote, free⟩, rest⟩ := commandAndArgs_plain found plain
  have plainArgs : ∀ arg ∈ args, 34 ∉ arg := fun arg mem => (rest arg mem).1
  obtain ⟨startSome, startFree⟩ := free_appendCwd cwd nonempty free
  obtain ⟨lineSome, lineFree⟩ := free_foldl (fun arg mem => (rest arg mem).2) startSome startFree
  rw [splitOptionAndCommand, splitOptionAndCommandFrom_eq found, splitCommandToArgs_eq lineSome lineFree,
    some_inj]
  constructor
  · intro same
    have noQuotes : ∀ word ∈ inserted cwd command, 34 ∉ word := by
      intro word mem
      apply splitArgs_noQuote (args.foldl appendArgument (appendCwdWhenTransfer _ _)) word
      rw [same]
      exact mem_append_left _ (mem_append_right _ mem)
    obtain ⟨words, closed⟩ := splitArgs_appendCwd nonempty noQuote noQuotes
    rw [splitArgs_join plainArgs startSome closed, words] at same
    have cut := append_cancel_left same
    refine ⟨?_, noQuotes⟩
    intro arg mem
    rw [← cut] at mem
    obtain ⟨other, inside, out⟩ := mem_flatMap.mp mem
    exact carried_of_mem (plainArgs other inside) out
  · rintro ⟨carried, noQuotes⟩
    obtain ⟨words, closed⟩ := splitArgs_appendCwd nonempty noQuote noQuotes
    have each : (args.flatMap fun arg => splitArgs (rawArgument arg)) = args := by
      have single : ∀ arg ∈ args, splitArgs (rawArgument arg) = [arg] := fun arg mem =>
        splitArgs_carried (plainArgs arg mem) (carried arg mem)
      rw [flatMap_congr single, flatMap_singleton']
    rw [splitArgs_join plainArgs startSome closed, words, each]

/-- Two arguments with a blank and one without, behind the working directory. -/
theorem args_lossless_fileSend :
    splitCommandToArgs (splitOptionAndCommand false (some (str "/home/a b"))
        [str "hdc", str "file", str "send", str "x y", str "z"]).2 =
      some [str "file", str "send", str "remote", str "-cwd", str "/home/a b/", str "x y", str "z"] := by
  have found : commandAndArgs false [str "file", str "send", str "x y", str "z"] =
      some (cmdstrFileSend, [str "x y", str "z"]) := by decide
  have blank : Carried (str "x y") := by
    rw [Carried, if_pos (by decide)]
    decide
  have single : Carried (str "z") := by
    rw [Carried, if_neg (by decide)]
    simp [show str "z" = [122] by decide, Separates]
  refine (args_lossless_iff false (some (str "/home/a b")) (by decide) found).mpr ⟨?_, by decide⟩
  simp [blank, single]

/-- An argument with a tab and no blank comes out as two, and an empty one is lost. -/
theorem tab_splits_and_empty_lost :
    splitCommandToArgs (splitOptionAndCommand false none
        [str "hdc", str "shell", str "a\tb"]).2 = some [str "shell", str "a", str "b"] ∧
      splitCommandToArgs (splitOptionAndCommand false none
        [str "hdc", str "shell", str "", str "x"]).2 = some [str "shell", str "x"] := by
  decide

end Hdc.Host
