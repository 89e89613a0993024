import Hdc.Forward.Frames

/-!
The key of `hdc tconn` (`TargetConnect` of `translate.cpp`).

A key with a colon is an address and a port. `IsValidIpv4` reads each piece of the address as an
`int`, and takes no notice of a dot at the end or of an empty piece; but `uv_ip4_addr` takes dotted
quads only. The port is a text of digits of any length. It is read as a `long`, and only the low half
of that is tested.

* `connectKey_exact_iff`: an accepted key is an address and a port, unless the port is larger than an `int` and
  its low half is a port.
-/

namespace Hdc.Host

open Base List Forward.Frames

def maxKeyLength : Nat := 50
def cmdRemoteSize : Nat := 8

/-- `StringEndsWith`. A text that is one byte shorter than `sub` passes: `npos` is what the
difference of the lengths wraps to. -/
def stringEndsWith (s sub : Bytes) : Bool := sub.isSuffixOf s || s.length + 1 = sub.length

/-! ### Addresses -/

/-- `static_cast<int>(strtol(…))` of digits; what is too large for a `long` is the largest one. -/
def digitsToInt (digits : Bytes) : Int :=
  ((min (leadingNat digits) (2 ^ 63 - 1) : Nat) : Int).bmod (2 ^ 32)

/-- What `std::getline` gives, piece by piece: an empty piece at the end is none. -/
def segments (ip : Bytes) : List Bytes :=
  let parts := ip.splitOn 46
  if parts.getLast? = some [] then parts.dropLast else parts

/-- One turn of the loop of `IsValidIpv4`. -/
def validSegment (segment : Bytes) : Bool :=
  isDigitString segment && 0 ≤ digitsToInt segment && digitsToInt segment ≤ 255 &&
    !(1 < segment.length && segment.head? = some 48)

def isValidIpv4 (ip : Bytes) : Bool := (segments ip).length = 4 && (segments ip).all validSegment

/-- Four numbers without leading zeros. -/
def DottedQuad (ip : Bytes) : Prop :=
  (ip.splitOn 46).length = 4 ∧ ∀ part ∈ ip.splitOn 46, ∃ n < 256, part = decimal n

instance (ip : Bytes) : Decidable (DottedQuad ip) := by
  unfold DottedQuad
  infer_instance

/-- `uv_ip4_addr`, which accepts these and nothing else. -/
def uvIp4Addr (ip : Bytes) : Bool := DottedQuad ip

theorem validSegment_decimal : ∀ n < 256, validSegment (decimal n) = true := by decide +kernel

/-- A dotted quad passes both tests. -/
theorem isValidIpv4_of_dottedQuad {ip : Bytes} (quad : DottedQuad ip) : isValidIpv4 ip = true := by
  obtain ⟨four, octets⟩ := quad
  have whole : segments ip = ip.splitOn 46 := by
    refine if_neg fun last => ?_
    obtain ⟨n, -, empty⟩ := octets [] (mem_of_getLast? last)
    exact decimal_ne_nil n empty.symm
  rw [isValidIpv4, whole, Bool.and_eq_true, decide_eq_true_iff, all_eq_true]
  refine ⟨four, fun part mem => ?_⟩
  obtain ⟨n, small, rfl⟩ := octets part mem
  exact validSegment_decimal n small

/-! ### Keys -/

structure FormatCommand where
  parameters : Bytes
  cmdFlag : HdcCommand
  bJumpDo : Bool

/-- Whether the device is to be disconnected. -/
def isRemove (parameters : Bytes) : Bool := stringEndsWith parameters (str " -remove")

/-- The key in the parameters; `substr` takes a length that has wrapped for the whole. -/
def connectKey (parameters : Bytes) : Bytes :=
  if isRemove parameters && cmdRemoteSize ≤ parameters.length then
    parameters.take (parameters.length - cmdRemoteSize)
  else parameters

/-- The address of a key, with the number of `localhost`. -/
def keyIp (key : Bytes) : Bytes :=
  if (halves key).1 = str "localhost" then str "127.0.0.1" else (halves key).1

/-- The error of `TargetConnect`; one about the text replaces that of the size. -/
def keyError (remove : Bool) (key : Bytes) : Option Bytes :=
  let sport := (halves key).2
  let port := digitsToInt sport
  if 58 ∈ key ∧ isValidIpv4 (keyIp key) = false then some (str "[E001104]:IP address incorrect")
  else if 58 ∈ key ∧ (sport = [] ∨ isDigitString sport = false) then some (str "Port incorrect")
  else if 58 ∈ key ∧ (port ≤ 0 ∨ maxIpPort < port ∨ uvIp4Addr (keyIp key) = false) then
    some (str "IP:Port incorrect")
  else if remove = false ∧ maxKeyLength < key.length then some (str "Error connect key's size")
  else none

/-- `TargetConnect`: the error, and the command. -/
def targetConnect (outCmd : FormatCommand) : Option Bytes × FormatCommand :=
  let remove := isRemove outCmd.parameters
  let key := connectKey outCmd.parameters
  let stringError := keyError remove key
  (stringError,
    { parameters := if 58 ∈ key then keyIp key ++ 58 :: (halves key).2 else key
      cmdFlag := if remove then .kernelTargetDisconnect else .kernelTargetConnect
      bJumpDo := outCmd.bJumpDo || stringError.isSome })

/-- An address, a colon and a port. -/
def CanonicalKey (key : Bytes) : Prop :=
  58 ∈ key ∧ DottedQuad (halves key).1 ∧ IsPort (halves key).2

/-- What `TargetConnect` accepts, of a text with a colon, is a canonical key. -/
def Exact (outCmd : FormatCommand) : Prop :=
  58 ∈ outCmd.parameters → (targetConnect outCmd).1 = none →
    CanonicalKey (targetConnect outCmd).2.parameters

/-- The number is too large for a port, fits a `long`, and its low half is a port. -/
def Wraps (number : Nat) : Prop :=
  65535 < number ∧ number < 2 ^ 63 ∧ 1 ≤ number % 2 ^ 32 ∧ number % 2 ^ 32 ≤ 65535

/-- The port is tested after the cast. -/
theorem digitsToInt_port (digits : Bytes) :
    0 < digitsToInt digits ∧ digitsToInt digits ≤ maxIpPort ↔
      (1 ≤ leadingNat digits ∧ leadingNat digits ≤ 65535) ∨ Wraps (leadingNat digits) := by
  unfold digitsToInt Wraps maxIpPort
  generalize leadingNat digits = number
  rw [Int.bmod_def]
  split <;> omega

/-- The colon is in the key, not in what says that the device is to be disconnected. -/
theorem mem_connectKey {parameters : Bytes} :
    58 ∈ connectKey parameters ↔ 58 ∈ parameters := by
  unfold connectKey
  split
  case isTrue remove =>
    rw [Bool.and_eq_true, isRemove, stringEndsWith, Bool.or_eq_true, decide_eq_true_iff,
      decide_eq_true_iff] at remove
    obtain ⟨suffix | short, long⟩ := remove
    · obtain ⟨key, rfl⟩ := isSuffixOf_iff_suffix.mp suffix
      simp [str, cmdRemoteSize]
    · have eight : (str " -remove").length = cmdRemoteSize := rfl
      omega
  case isFalse => rfl

theorem colon_not_mem_keyIp (key : Bytes) : 58 ∉ keyIp key := by
  rw [keyIp]
  split
  · decide
  · intro mem
    simpa using mem_takeWhile_imp mem

theorem halves_append {ip : Bytes} (alone : 58 ∉ ip) (port : Bytes) :
    halves (ip ++ 58 :: port) = (ip, port) := by
  have other : ∀ byte ∈ ip, decide (byte ≠ 58) = true := fun byte mem =>
    decide_eq_true fun same => alone (same ▸ mem)
  rw [halves, takeWhile_append_of_pos other, dropWhile_append_of_pos other]
  simp

/-- What is accepted of a text with a colon. -/
theorem keyError_eq_none {remove : Bool} {key : Bytes} (colon : 58 ∈ key) :
    keyError remove key = none ↔ DottedQuad (keyIp key) ∧
      ((halves key).2 ≠ [] ∧ isDigitString (halves key).2 = true) ∧
      (0 < digitsToInt (halves key).2 ∧ digitsToInt (halves key).2 ≤ maxIpPort) ∧
      (remove = true ∨ key.length ≤ maxKeyLength) := by
  have address : uvIp4Addr (keyIp key) = true ↔ DottedQuad (keyIp key) := decide_eq_true_iff
  have passes : uvIp4Addr (keyIp key) = true → isValidIpv4 (keyIp key) = true :=
    fun quad => isValidIpv4_of_dottedQuad (address.mp quad)
  rw [← address]
  simp only [keyError, ite_eq_iff, colon, true_and, reduceCtorEq, and_false, false_or, not_or,
    Bool.not_eq_false, Int.not_le, Int.not_lt, not_and, Nat.not_lt, and_true]
  grind

/-- A key is accepted wrongly exactly if its port is too large and the low half of it is a port. -/
theorem connectKey_exact_iff (outCmd : FormatCommand) :
    Exact outCmd ↔
      let key := connectKey outCmd.parameters
      ¬ (58 ∈ outCmd.parameters ∧ DottedQuad (keyIp key) ∧ isDigitString (halves key).2 = true ∧
        Wraps (leadingNat (halves key).2) ∧
        (isRemove outCmd.parameters = true ∨ key.length ≤ maxKeyLength)) := by
  rw [Exact, ← mem_connectKey]
  generalize same : connectKey outCmd.parameters = key
  by_cases colon : 58 ∈ key
  case neg => simp [colon]
  have parts := halves_append (colon_not_mem_keyIp key) (halves key).2
  simp only [targetConnect, same, if_pos colon, CanonicalKey, parts, keyError_eq_none colon,
    digitsToInt_port]
  constructor
  · rintro exact ⟨_, quad, digits, wraps, short⟩
    have full : (halves key).2 ≠ [] := by
      intro empty
      rw [empty] at wraps
      exact absurd wraps.1 (by decide)
    obtain ⟨_, _, _, _, small⟩ := exact colon ⟨quad, ⟨full, digits⟩, .inr wraps, short⟩
    exact absurd wraps.1 small.not_gt
  · rintro fine _ ⟨quad, ⟨_, digits⟩, range | wraps, short⟩
    · exact ⟨mem_append_right _ mem_cons_self, quad, digits, range⟩
    · exact absurd ⟨colon, quad, digits, wraps, short⟩ fine

/-- 4294967376 is 80 more than `2 ^ 32`. -/
theorem large_port_accepted :
    let outCmd : FormatCommand := ⟨str "127.0.0.1:4294967376", .kernelTargetConnect, false⟩
    (targetConnect outCmd).1 = none ∧
      (targetConnect outCmd).2.parameters = str "127.0.0.1:4294967376" ∧
      ¬ CanonicalKey (str "127.0.0.1:4294967376") := by
  refine ⟨by decide +kernel, by decide +kernel, ?_⟩
  rintro ⟨_, _, _, _, small⟩
  exact absurd small (by decide)

end Hdc.Host
