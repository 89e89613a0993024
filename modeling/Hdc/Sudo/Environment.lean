import Hdc.Sudo.Wildcard

/-!
The environment that `sudo` hands on (`sudo/src/main.cpp`).

`UpdateEnv` goes over a copy of the environment and unsets every variable that matches the table of
bad variables, and every variable of a second table whose value does not pass a check. A pattern
without a star is compared as a beginning, so it also takes away every variable with a longer name.
The check of `TZ` is given the whole text, so it never sees the beginning of the value.

* `matchesEnvDel_iff`, `matchesEnvCheck_iff`: which variables are taken away;
* `sanitised_iff`: when that is what it should be.
-/

namespace Hdc.Sudo

open Base List

/-! ### Matching -/

/-- `MatchesEnvPattern`. -/
def matchesEnvPattern (value pattern : Bytes) : Bool :=
  if star ∈ pattern then matchWithWildcard pattern value else pattern.isPrefixOf value

def initialBadenvTables : List Bytes :=
  [str "IFS", str "CDPATH", str "LOCALDOMAIN", str "RES_OPTIONS", str "HOSTALIASES",
    str "NLSPATH", str "PATH_LOCALE", str "LD_*", str "_RLD*", str "SHLIB_PATH", str "LDR_*",
    str "LIBPATH", str "AUTHSTATE", str "DYLD_*", str "KRB5_CONFIG*", str "KRB5_KTNAME",
    str "VAR_ACE", str "USR_ACE", str "DLC_ACE", str "TERMINFO", str "TERMINFO_DIRS",
    str "TERMPATH", str "TERMCAP", str "ENV", str "BASH_ENV", str "PS4", str "GLOBIGNORE",
    str "BASHOPTS", str "SHELLOPTS", str "JAVA_TOOL_OPTIONS", str "PERLIO_DEBUG", str "PERLLIB",
    str "PERL5LIB", str "PERL5OPT", str "PERL5DB", str "FPATH", str "NULLCMD", str "READNULLCMD",
    str "ZDOTDIR", str "TMPPREFIX", str "PYTHONHOME", str "PYTHONPATH", str "PYTHONINSPECT",
    str "PYTHONUSERBASE", str "RUBYLIB", str "RUBYOPT", str "*=()*"]

def initialCheckenvTables : List Bytes :=
  [str "COLORTERM", str "LANG", str "LANGUAGE", str "LC_*", str "LINGUAS", str "TERM", str "TZ"]

/-- `MatchesEnvDel`. -/
def matchesEnvDel (envItem : Bytes) : Bool :=
  initialBadenvTables.any (matchesEnvPattern envItem)

/-! ### Checking -/

def pathMax : Nat := 4096

/-- The loop of `TzIsSafe`, behind the letter `lastCh`. -/
def tzScan : UInt8 → Bytes → Bool
  | _, [] => true
  | lastCh, ch :: rest =>
    if isSpace ch || !(32 ≤ ch && ch ≤ 126) then false
    else if lastCh = 47 && ch = 46 && rest.head? = some 46 &&
        (rest.tail = [] || rest.tail.head? = some 47) then false
    else tzScan ch rest

/-- `TzIsSafe`. -/
def tzIsSafe (tzItem : Bytes) : Bool :=
  let tzItem := if tzItem.head? = some 58 then tzItem.tail else tzItem
  if tzItem.head? = some 47 then false else tzScan 47 tzItem && tzItem.length < pathMax

/-- `CheckValueSafety`. -/
def checkValueSafety (value pattern : Bytes) : Bool :=
  let text := (value.dropWhile (· ≠ equals)).drop 1
  !(matchesEnvPattern value pattern && (47 ∈ text || 37 ∈ text))

/-- `MatchesEnvCheckPattern`: whether the item is kept. -/
def matchesEnvCheckPattern (value pattern : Bytes) : Bool :=
  if (str "TZ=").isPrefixOf value then tzIsSafe value else checkValueSafety value pattern

/-- `MatchesEnvCheck`. -/
def matchesEnvCheck (envItem : Bytes) : Bool :=
  initialCheckenvTables.any fun checkItem => !matchesEnvCheckPattern envItem checkItem

/-! ### The environment -/

/-- A variable: a name without `=`, and a value. -/
structure EnvItem where
  name : Bytes
  value : Bytes
  plain : equals ∉ name
deriving DecidableEq

def EnvItem.text (item : EnvItem) : Bytes := item.name ++ equals :: item.value

/-- `unsetenv`. -/
def unsetenv (name : Bytes) (environ : List EnvItem) : List EnvItem :=
  environ.filter (·.name ≠ name)

/-- The loop of `UpdateEnv` over the rest of the snapshot: whether it gets to the end, and the
environment. -/
def updateEnvFrom : List EnvItem → List EnvItem → Bool × List EnvItem
  | [], environ => (true, environ)
  | envItem :: envSnapshot, environ =>
    if envItem.name = [] then (false, environ)
    else if matchesEnvDel envItem.text || matchesEnvCheck envItem.text then
      updateEnvFrom envSnapshot (unsetenv envItem.name environ)
    else updateEnvFrom envSnapshot environ

/-- `UpdateEnv`. -/
def updateEnv (environ : List EnvItem) : Bool × List EnvItem := updateEnvFrom environ environ

/-! ### What the tables mean -/

/-- A variable matches a pattern by its name, or as a whole where the pattern speaks of `=`. -/
def EnvItem.Matches (item : EnvItem) (pattern : Bytes) : Prop :=
  globs pattern (if equals ∈ pattern then item.text else item.name) = true

def EnvItem.Forbidden (item : EnvItem) : Prop := ∃ pattern ∈ initialBadenvTables, item.Matches pattern

/-- A variable that has to go. The value of `TZ` has rules of its own. -/
def EnvItem.Unsafe (item : EnvItem) : Prop :=
  item.Forbidden ∨ (item.name = str "TZ" ∧ tzIsSafe item.value = false) ∨
    (item.name ≠ str "TZ" ∧ (∃ pattern ∈ initialCheckenvTables, item.Matches pattern) ∧
      (47 ∈ item.value ∨ 37 ∈ item.value))

/-- A variable that neither table speaks of. -/
def EnvItem.Unlisted (item : EnvItem) : Prop :=
  ∀ pattern ∈ initialBadenvTables ++ initialCheckenvTables, ¬ item.Matches pattern

/-- Nothing unsafe is left, and everything that is not listed is. -/
def Sanitised (before after : List EnvItem) : Prop :=
  (∀ item ∈ after, ¬ item.Unsafe) ∧ (∀ item ∈ before, item.Unlisted → item ∈ after) ∧
    List.Sublist after before

/-! ### What the patterns take -/

variable {stem pattern : Bytes}

theorem prefix_name {name : Bytes} (plain : equals ∉ stem) (value : Bytes) :
    stem <+: name ++ equals :: value ↔ stem <+: name := by
  induction stem generalizing name with
  | nil => simp
  | cons letter stem ih =>
    obtain ⟨other, plain⟩ := not_or.mp (mt mem_cons.mpr plain)
    cases name with
    | nil => simp [Ne.symm other]
    | cons first name => simp [ih plain]

/-- The pattern for the functions that a shell hands on. -/
def functionPattern : Bytes := str "*=()*"

/-- What the tables hold: names, names that go on, and the pattern for functions. -/
inductive Shape : Bytes → Prop
  | plain {stem : Bytes} : star ∉ stem → equals ∉ stem → Shape stem
  | starred {stem : Bytes} : star ∉ stem → equals ∉ stem → 0 ∉ stem → Shape (stem ++ [star])
  | function : Shape functionPattern

theorem tables_shape
    (listed : pattern ∈ initialBadenvTables ++ initialCheckenvTables) : Shape pattern := by
  have checked : ∀ pattern ∈ initialBadenvTables ++ initialCheckenvTables,
      (star ∉ pattern ∧ equals ∉ pattern) ∨ pattern = functionPattern ∨
        (pattern = pattern.dropLast ++ [star] ∧ star ∉ pattern.dropLast ∧
          equals ∉ pattern.dropLast ∧ 0 ∉ pattern.dropLast) := by
    decide +kernel
  rcases checked pattern listed with ⟨noStar, noSign⟩ | rfl | ⟨shape, noStar, noSign, noNul⟩
  · exact .plain noStar noSign
  · exact .function
  · rw [shape]
    exact .starred noStar noSign noNul

/-- What the code takes for a match: the beginning of the name, where the pattern has no star. -/
def EnvItem.Hits (item : EnvItem) (pattern : Bytes) : Prop :=
  if star ∈ pattern then item.Matches pattern else pattern <+: item.name

variable (item : EnvItem)

theorem matchesEnvPattern_iff (shape : Shape pattern) :
    matchesEnvPattern item.text pattern = true ↔ item.Hits pattern := by
  cases shape with
  | plain noStar noSign =>
    rw [matchesEnvPattern, if_neg noStar, EnvItem.Hits, if_neg noStar, List.isPrefixOf_iff_prefix]
    exact prefix_name noSign item.value
  | @starred stem noStar noSign noNul =>
    have wild : star ∈ stem ++ [star] := mem_concat_self
    have unsigned : equals ∉ stem ++ [star] := by
      simpa using ⟨noSign, (by decide : equals ≠ star)⟩
    have free : 0 ∉ stem ++ [star] := by simpa using ⟨noNul, (by decide : 0 ≠ star)⟩
    rw [matchesEnvPattern, if_pos wild, EnvItem.Hits, if_pos wild, EnvItem.Matches,
      if_neg unsigned, matchWithWildcard_starred free getLast?_concat, globs_starred noStar,
      globs_starred noStar]
    exact prefix_name noSign item.value
  | function => exact matchWithWildcard_starred (by decide) (by decide) item.text

theorem matchesEnvDel_iff :
    matchesEnvDel item.text = true ↔ ∃ pattern ∈ initialBadenvTables, item.Hits pattern := by
  rw [matchesEnvDel, any_eq_true]
  refine exists_congr fun pattern => and_congr_right fun listed => ?_
  exact matchesEnvPattern_iff _ (tables_shape (mem_append_left _ listed))

/-! ### What the check takes -/

theorem value_text : (item.text.dropWhile (· ≠ equals)).drop 1 = item.value := by
  have past : ∀ name : Bytes, equals ∉ name →
      (name ++ equals :: item.value).dropWhile (· ≠ equals) = equals :: item.value := by
    intro name plain
    rw [dropWhile_append_of_pos]
    · simp
    · intro byte mem
      simpa using ne_of_mem_of_not_mem mem plain
  rw [EnvItem.text, past item.name item.plain]
  rfl

theorem zone_iff :
    (str "TZ=").isPrefixOf item.text = true ↔ item.name = str "TZ" := by
  rw [List.isPrefixOf_iff_prefix]
  constructor
  · intro start
    have inner : str "TZ" <+: str "TZ=" := ⟨[equals], rfl⟩
    have stem : str "TZ" <+: item.name :=
      (prefix_name (by decide) item.value).mp (inner.trans start)
    obtain ⟨rest, shape⟩ := stem
    obtain ⟨value, whole⟩ := start
    cases rest with
    | nil => exact (shape.symm.trans (append_nil _))
    | cons letter rest =>
      have same : letter = equals := by
        rw [EnvItem.text, ← shape] at whole
        have heads : equals = letter ∧ value = rest ++ equals :: item.value := by
          simpa [str, equals] using whole
        exact heads.1.symm
      exact absurd (by rw [← shape, same]; simp) item.plain
  · intro name
    exact ⟨item.value, by rw [EnvItem.text, name]; rfl⟩

/-- The check of `TZ` reads the value as if it stood behind `TZ=` in a path. -/
theorem tzIsSafe_zone (value : Bytes) :
    tzIsSafe (str "TZ" ++ equals :: value) =
    (tzScan equals value && decide (value.length + 3 < pathMax)) := by
  rfl

/-- What the check finds fault with. -/
def EnvItem.Faulty (item : EnvItem) : Prop :=
  (item.name = str "TZ" ∧ (tzScan equals item.value = false ∨ pathMax ≤ item.value.length + 3)) ∨
    (item.name ≠ str "TZ" ∧ (∃ pattern ∈ initialCheckenvTables, item.Hits pattern) ∧
      (47 ∈ item.value ∨ 37 ∈ item.value))

theorem matchesEnvCheck_iff : matchesEnvCheck item.text = true ↔ item.Faulty := by
  by_cases zone : item.name = str "TZ"
  · have same : ∀ pattern, matchesEnvCheckPattern item.text pattern = tzIsSafe item.text :=
      fun pattern => if_pos ((zone_iff item).mpr zone)
    have text : item.text = str "TZ" ++ equals :: item.value := by rw [EnvItem.text, zone]
    have all : matchesEnvCheck item.text = !tzIsSafe item.text := by
      simp [matchesEnvCheck, same, initialCheckenvTables]
    rw [all, text, tzIsSafe_zone, EnvItem.Faulty]
    simp [zone]
  · have same : ∀ pattern, matchesEnvCheckPattern item.text pattern =
        checkValueSafety item.text pattern := fun pattern => if_neg (mt (zone_iff item).mp zone)
    have fails : ∀ pattern ∈ initialCheckenvTables,
        ((!matchesEnvCheckPattern item.text pattern) = true ↔
          item.Hits pattern ∧ (47 ∈ item.value ∨ 37 ∈ item.value)) := by
      intro pattern listed
      have shape := tables_shape (mem_append_right initialBadenvTables listed)
      rw [same, checkValueSafety, Bool.not_not, value_text, Bool.and_eq_true,
        matchesEnvPattern_iff item shape]
      simp
    rw [matchesEnvCheck, any_eq_true]
    constructor
    · rintro ⟨pattern, listed, fail⟩
      obtain ⟨hit, value⟩ := (fails pattern listed).mp fail
      exact .inr ⟨zone, ⟨_, listed, hit⟩, value⟩
    · rintro (⟨named, -⟩ | ⟨-, ⟨pattern, listed, hit⟩, value⟩)
      · exact absurd named zone
      · exact ⟨_, listed, (fails _ listed).mpr ⟨hit, value⟩⟩

/-! ### What is left -/

/-- A variable at which its name is unset. -/
def EnvItem.Taken (item : EnvItem) : Prop :=
  (∃ pattern ∈ initialBadenvTables, item.Hits pattern) ∨ item.Faulty

/-- A variable of this name is unset, before a variable without a name ends the loop. -/
def Cleared (environ : List EnvItem) (name : Bytes) : Prop :=
  ∃ item ∈ environ.takeWhile (·.name ≠ []), item.name = name ∧ item.Taken

theorem mem_updateEnvFrom (envSnapshot environ : List EnvItem) (item : EnvItem) :
    item ∈ (updateEnvFrom envSnapshot environ).2 ↔
    item ∈ environ ∧ ¬ Cleared envSnapshot item.name := by
  induction envSnapshot generalizing environ with
  | nil => simp [updateEnvFrom, Cleared]
  | cons envItem envSnapshot ih =>
    by_cases named : envItem.name = []
    · simp [updateEnvFrom, named, Cleared]
    have cleared : Cleared (envItem :: envSnapshot) item.name ↔
        (envItem.name = item.name ∧ envItem.Taken) ∨ Cleared envSnapshot item.name := by
      simp [Cleared, named]
    have taken : (matchesEnvDel envItem.text || matchesEnvCheck envItem.text) = true ↔
        envItem.Taken := by
      rw [Bool.or_eq_true, matchesEnvDel_iff, matchesEnvCheck_iff, EnvItem.Taken]
    rw [updateEnvFrom, if_neg named, cleared]
    by_cases hit : envItem.Taken
    · rw [if_pos (taken.mpr hit), ih, unsetenv, mem_filter]
      simp only [hit, and_true, not_or, decide_eq_true_eq, and_assoc, ne_comm]
    · rw [if_neg (mt taken.mp hit), ih]
      simp only [hit, and_false, false_or]

theorem updateEnvFrom_sublist (envSnapshot environ : List EnvItem) :
    List.Sublist (updateEnvFrom envSnapshot environ).2 environ := by
  induction envSnapshot generalizing environ with
  | nil => exact List.Sublist.refl _
  | cons envItem envSnapshot ih =>
    rw [updateEnvFrom]
    split
    · exact List.Sublist.refl _
    · split
      · exact (ih _).trans filter_sublist
      · exact ih _

/-- The environment is what it should be exactly if some variable of the name of each unsafe one is
taken, and none of the name of an unlisted one. -/
theorem sanitised_iff (environ : List EnvItem) :
    Sanitised environ (updateEnv environ).2 ↔
      ∀ item ∈ environ, (item.Unsafe → Cleared environ item.name) ∧
        (item.Unlisted → ¬ Cleared environ item.name) := by
  have left := mem_updateEnvFrom environ environ
  constructor
  · rintro ⟨safe, kept, -⟩ item mem
    constructor
    · intro risky
      by_contra stays
      exact safe _ ((left _).mpr ⟨mem, stays⟩) risky
    · intro unlisted
      exact ((left _).mp (kept _ mem unlisted)).2
  · intro each
    refine ⟨?_, ?_, updateEnvFrom_sublist _ _⟩
    · intro item mem risky
      obtain ⟨mem, stays⟩ := (left item).mp mem
      exact stays ((each _ mem).1 risky)
    · intro item mem unlisted
      exact (left _).mpr ⟨mem, (each _ mem).2 unlisted⟩

def environmentItem : EnvItem := ⟨str "ENVIRONMENT", str "prod", by decide⟩
def zoneItem : EnvItem := ⟨str "TZ", str "/data/zone", by decide⟩

/-- `ENVIRONMENT` goes because it begins like `ENV`, and `TZ` stays with an absolute path. -/
theorem environment_lost :
    environmentItem.Unlisted ∧ tzIsSafe zoneItem.value = false ∧
      updateEnv [environmentItem, zoneItem] = (true, [zoneItem]) ∧
      ¬ Sanitised [environmentItem, zoneItem] (updateEnv [environmentItem, zoneItem]).2 := by
  have unlisted : environmentItem.Unlisted := by
    unfold EnvItem.Unlisted EnvItem.Matches
    decide +kernel
  have left : updateEnv [environmentItem, zoneItem] = (true, [zoneItem]) := by decide +kernel
  refine ⟨unlisted, by decide, left, ?_⟩
  rw [left]
  rintro ⟨-, kept, -⟩
  have stays := kept environmentItem (by simp) unlisted
  exact absurd stays (by decide)

end Hdc.Sudo
