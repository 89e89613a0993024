import Hdc.Base

/-!
Messages to the credential service (`credential_message.cpp`).

A message is a digit for the version, three for the method, four for the length of the body, and the
body. `Construct` writes it. `Init` reads it, but assigns the version and the method before it looks
at the length, takes a method that is no number for -1, reads the length up to the first character
that is no digit, and does not look at what stands behind the body.

* `message_format`: both, for every message.
-/

namespace Hdc.Credential

open Base List

def messageStrMaxLen : Nat := 4096
def messageMethodPos : Nat := 1
def messageMethodLen : Nat := 3
def messageLengthPos : Nat := 4
def messageLengthLen : Nat := 4
def messageBodyPos : Nat := 8
def methodCryptoKey : Int := 1
def methodVersionMax : Int := 9

/-- `messageBody` is none for the null pointer, else the allocated bytes (without the one more that
nothing writes); `messageBodyCapacity` is their number. -/
structure CredentialMessage where
  messageVersion : Int
  messageMethodType : Int
  messageBodyLen : Int
  messageBody : Option Bytes
deriving DecidableEq, Repr

/-! ### Numbers -/

/-- `IsNumeric`. -/
def isNumeric (text : Bytes) : Bool := text ≠ [] && text.all fun byte => 48 ≤ byte && byte ≤ 57

/-- `StripLeadingZeros`; `from_chars` refuses what does not fit a `long`. -/
def stripLeadingZeros (input : Bytes) : Int :=
  let numberStr := input.dropWhile (· = 48)
  if numberStr = [] then 0
  else if !isNumeric numberStr then -1
  else if 2 ^ 63 ≤ leadingNat numberStr then 0
  else (leadingNat numberStr : Int).bmod (2 ^ 32)

/-- `std::to_string` of an `int`. -/
def intText (value : Int) : Bytes :=
  if value < 0 then 45 :: decimal value.natAbs else decimal value.natAbs

/-- `IntToStringWithPadding`. -/
def intToStringWithPadding (length : Int) (maxLen : Nat) : Bytes :=
  let text := intText length
  if maxLen < text.length then [] else List.replicate (maxLen - text.length) 48 ++ text

/-! ### The fields of a text -/

def versionOf (messageStr : Bytes) : Int := (messageStr.headD 0).toNat - 48

def methodOf (messageStr : Bytes) : Int :=
  stripLeadingZeros ((messageStr.drop messageMethodPos).take messageMethodLen)

/-- `from_chars` reads the digits up to the first character that is none. -/
def bodyLengthOf (messageStr : Bytes) : Nat :=
  leadingNat ((messageStr.drop messageLengthPos).take messageLengthLen)

def bodyOf (messageStr : Bytes) : Bytes :=
  (messageStr.drop messageBodyPos).take (bodyLengthOf messageStr)

/-! ### The class -/

namespace CredentialMessage

def messageBodyCapacity (message : CredentialMessage) : Nat :=
  message.messageBody.elim 0 List.length

/-- `ClearMessageBody`. -/
def clearMessageBody (message : CredentialMessage) : CredentialMessage :=
  match message.messageBody with
  | none => message
  | some _ => { message with messageBody := none, messageBodyLen := 0 }

/-- The part of `AllocateAndCopy` that makes room; `allocated` is whether `new` gives memory. -/
def allocate (allocated : Bool) (message : CredentialMessage) (len : Nat) : CredentialMessage :=
  if message.messageBodyCapacity < len then
    { message.clearMessageBody with
      messageBody := if allocated then some (List.replicate len 0) else none }
  else message

/-- `AllocateAndCopy`. -/
def allocateAndCopy (allocated : Bool) (message : CredentialMessage) (data : Bytes) :
    CredentialMessage :=
  if data.length = 0 ∨ messageStrMaxLen < data.length then message
  else
    let message := allocate allocated message data.length
    match message.messageBody with
    | none => message
    | some buffer =>
      { message with
        messageBody := some (data ++ List.replicate (buffer.length - data.length) 0)
        messageBodyLen := data.length }

/-- `Init`. -/
def init (allocated : Bool) (message : CredentialMessage) (messageStr : Bytes) :
    CredentialMessage :=
  if messageStr.length < messageBodyPos then message
  else if versionOf messageStr < methodCryptoKey ∨ methodVersionMax < versionOf messageStr then
    message
  else
    let message := { message with
      messageVersion := versionOf messageStr, messageMethodType := methodOf messageStr }
    if bodyLengthOf messageStr = 0 ∨ messageStrMaxLen < bodyLengthOf messageStr then message
    else if messageStr.length < messageBodyPos + bodyLengthOf messageStr then message
    else allocateAndCopy allocated message (bodyOf messageStr)

/-- `SetMessageVersion`. -/
def setMessageVersion (message : CredentialMessage) (version : Int) : CredentialMessage :=
  if methodCryptoKey ≤ version ∧ version ≤ methodVersionMax then
    { message with messageVersion := version }
  else message

def setMessageMethodType (message : CredentialMessage) (type : Int) : CredentialMessage :=
  { message with messageMethodType := type }

def setMessageBodyLen (message : CredentialMessage) (len : Int) : CredentialMessage :=
  { message with messageBodyLen := len }

/-- `SetMessageBody`. -/
def setMessageBody (allocated : Bool) (message : CredentialMessage) (body : Bytes) :
    CredentialMessage :=
  if messageStrMaxLen < body.length then message else allocateAndCopy allocated message body

/-- What `Construct` appends of the body; none where it reads behind the buffer. -/
def appendedBody (message : CredentialMessage) : Option Bytes :=
  match message.messageBody with
  | none => some []
  | some buffer =>
    if message.messageBodyLen ≤ 0 then some []
    else if buffer.length < message.messageBodyLen.toNat then none
    else some (buffer.take message.messageBodyLen.toNat)

/-- `Construct`; none where it reads behind the buffer. -/
def construct (message : CredentialMessage) : Option Bytes :=
  let totalLength := (messageBodyPos + message.messageBodyLen) % 2 ^ 64
  let messageMethodTypeStr := intToStringWithPadding message.messageMethodType messageMethodLen
  let messageBodyLenStr := intToStringWithPadding message.messageBodyLen messageLengthLen
  if messageMethodTypeStr.length ≠ messageMethodLen then some []
  else if messageBodyLenStr = [] ∨ messageLengthLen < messageBodyLenStr.length then some []
  else
    message.appendedBody.map fun body =>
      let result := UInt8.ofInt (48 + message.messageVersion) :: messageMethodTypeStr ++
        messageBodyLenStr ++ body
      if (result.length : Int) ≠ totalLength then [] else result

/-- The message has this version, method and body. -/
structure Carries (message : CredentialMessage) (version method : Nat) (body : Bytes) : Prop where
  version : message.messageVersion = version
  method : message.messageMethodType = method
  length : message.messageBodyLen = body.length
  body : ∃ rest, message.messageBody = some (body ++ rest)

end CredentialMessage

/-- A number with leading zeros. -/
def padded (width n : Nat) : Bytes := List.replicate (width - decimalLength n) 48 ++ decimal n

/-- A message as a text. -/
def text (version method : Nat) (body : Bytes) : Bytes :=
  digitChar version :: padded messageMethodLen method ++ padded messageLengthLen body.length ++ body

/-- What a text of the format is about. -/
structure Fields (version method : Nat) (body : Bytes) : Prop where
  version : version ≤ 9
  method : method ≤ 999
  some_body : 0 < body.length
  body : body.length ≤ messageStrMaxLen

/-- The texts of the format. -/
def Formed (messageStr : Bytes) : Prop :=
  ∃ version method body, Fields version method body ∧ messageStr = text version method body

/-! ### Padded numbers -/

variable {n width : Nat}

section

variable (small : n < 10 ^ width) (some_width : width ≠ 0)
include small some_width

theorem decimalLength_le : decimalLength n ≤ width :=
  Nat.log_lt_of_lt_pow' some_width small

theorem length_padded : (padded width n).length = width := by
  have fits := decimalLength_le small some_width
  rw [padded, length_append, length_replicate, length_decimal]
  omega

theorem intToStringWithPadding_eq : intToStringWithPadding n width = padded width n := by
  have fits := decimalLength_le small some_width
  have unsigned : intText n = decimal n := by
    rw [intText, if_neg (by omega), Int.natAbs_natCast]
  rw [intToStringWithPadding, unsigned, length_decimal, if_neg (by omega), padded]

end

theorem leadingNat_zeros (count : Nat) (rest : Bytes) :
    leadingNat (List.replicate count 48 ++ rest) = leadingNat rest := by
  induction count with
  | zero => rfl
  | succ count ih => exact ih

theorem leadingNat_padded (width n : Nat) : leadingNat (padded width n) = n := by
  rw [padded, leadingNat_zeros, leadingNat_decimal]

theorem digit_of_mem_padded {width n : Nat} {byte : UInt8} (mem : byte ∈ padded width n) :
    48 ≤ byte.toNat ∧ byte.toNat ≤ 57 := by
  rcases mem_append.mp mem with zero | digit
  · rw [eq_of_mem_replicate zero]
    decide
  · exact digit_of_mem_decimal digit

theorem leadingNat_dropWhile (input : Bytes) :
    leadingNat (input.dropWhile (· = 48)) = leadingNat input := by
  induction input with
  | nil => rfl
  | cons byte rest ih =>
    by_cases zero : byte = 48
    · subst zero
      exact ih
    · rw [dropWhile_cons_of_neg (by simpa using zero)]

/-- A text of digits, up to four, is taken for the number that it spells. -/
theorem stripLeadingZeros_of_digits {input : Bytes}
    (digits : ∀ byte ∈ input, 48 ≤ byte.toNat ∧ byte.toNat ≤ 57) (short : input.length ≤ 4) :
    stripLeadingZeros input = leadingNat input := by
  have value := leadingNat_dropWhile input
  have small : leadingNat input < 10 ^ 4 :=
    (leadingNat_lt input).trans_le (Nat.pow_le_pow_right (by decide) short)
  have numeric : ∀ byte ∈ input.dropWhile (· = 48), 48 ≤ byte ∧ byte ≤ 57 := by
    intro byte mem
    exact digits _ ((dropWhile_sublist _).mem mem)
  rw [stripLeadingZeros, ← value]
  rw [← value] at small
  generalize input.dropWhile (· = 48) = number at numeric small
  by_cases nothing : number = []
  · subst nothing
    rfl
  · have accepted : isNumeric number = true := by
      simpa [isNumeric, nothing] using numeric
    simp only [nothing, if_false, accepted, Bool.not_true, Bool.false_eq_true]
    rw [if_neg (by omega), Int.bmod_eq_of_le (by omega) (by omega)]

/-! ### Constructing -/

variable {version method : Nat} {body : Bytes}

theorem CredentialMessage.Carries.construct {message : CredentialMessage}
    (carries : message.Carries version method body)
    (fields : Fields version method body) :
    message.construct = some (text version method body) := by
  obtain ⟨_, stored⟩ := carries.body
  have bound := fields.body
  have some_body := fields.some_body
  rw [messageStrMaxLen] at bound
  have methodText : intToStringWithPadding message.messageMethodType messageMethodLen =
      padded messageMethodLen method := by
    rw [carries.method]
    exact intToStringWithPadding_eq (Nat.lt_succ_of_le fields.method) (by decide)
  have lengthText : intToStringWithPadding message.messageBodyLen messageLengthLen =
      padded messageLengthLen body.length := by
    rw [carries.length]
    exact intToStringWithPadding_eq (show _ < 10 ^ 4 by omega) (by decide)
  have methodLength : (padded messageMethodLen method).length = messageMethodLen :=
    length_padded (Nat.lt_succ_of_le fields.method) (by decide)
  have lengthLength : (padded messageLengthLen body.length).length = messageLengthLen :=
    length_padded (show _ < 10 ^ 4 by omega) (by decide)
  have appended : message.appendedBody = some body := by
    rw [appendedBody, stored, carries.length]
    simp only [Int.toNat_natCast, length_append, take_left]
    rw [if_neg (by omega), if_neg (by omega)]
  have head : UInt8.ofInt (48 + message.messageVersion) = digitChar version := by
    rw [carries.version]
    have small := fields.version
    rw [UInt8.ofInt]
    congr 1
    omega
  rw [CredentialMessage.construct, methodText, lengthText, appended, head, carries.length]
  have lengthSome : padded messageLengthLen body.length ≠ [] :=
    ne_nil_of_length_pos (by rw [lengthLength]; decide)
  have total : ((text version method body).length : Int) =
      (messageBodyPos + (body.length : Int)) % 2 ^ 64 := by
    rw [text, length_append, length_append, length_cons, methodLength, lengthLength,
      messageMethodLen, messageLengthLen, messageBodyPos]
    omega
  rw [text] at total
  rw [if_neg (not_not.mpr methodLength), if_neg (not_or.mpr ⟨lengthSome, ?_⟩), Option.map_some,
    if_neg (not_not.mpr total), text]
  rw [lengthLength]
  exact Nat.lt_irrefl _

/-- The fields of a text of the format. -/
structure Reads (messageStr : Bytes) (version method : Nat) (body : Bytes) : Prop where
  length : messageStr.length = messageBodyPos + body.length
  version : versionOf messageStr = version
  method : methodOf messageStr = method
  lengthField : (messageStr.drop messageLengthPos).take messageLengthLen =
    padded messageLengthLen body.length
  bodyLength : bodyLengthOf messageStr = body.length
  body : bodyOf messageStr = body

theorem Fields.reads (fields : Fields version method body) :
    Reads (text version method body) version method body := by
  have bound := fields.body
  rw [messageStrMaxLen] at bound
  have methodLength : (padded messageMethodLen method).length = messageMethodLen :=
    length_padded (Nat.lt_succ_of_le fields.method) (by decide)
  have lengthLength : (padded messageLengthLen body.length).length = messageLengthLen :=
    length_padded (show _ < 10 ^ 4 by omega) (by decide)
  have afterVersion : (text version method body).drop messageMethodPos =
      padded messageMethodLen method ++ (padded messageLengthLen body.length ++ body) := by
    rw [text, cons_append, cons_append, append_assoc]
    rfl
  have afterMethod : (text version method body).drop messageLengthPos =
      padded messageLengthLen body.length ++ body := by
    change (text version method body).drop (messageMethodPos + messageMethodLen) = _
    rw [← drop_drop, afterVersion, drop_left' methodLength]
  have afterLength : (text version method body).drop messageBodyPos = body := by
    change (text version method body).drop (messageLengthPos + messageLengthLen) = _
    rw [← drop_drop, afterMethod, drop_left' lengthLength]
  have lengthField : ((text version method body).drop messageLengthPos).take messageLengthLen =
      padded messageLengthLen body.length := by
    rw [afterMethod, take_left' lengthLength]
  have bodyLength : bodyLengthOf (text version method body) = body.length := by
    rw [bodyLengthOf, lengthField, leadingNat_padded]
  constructor
  · rw [text, length_append, length_append, length_cons, methodLength,
      lengthLength]
    rfl
  · have digit := toNat_digitChar (Nat.lt_succ_of_le fields.version)
    change ((digitChar version).toNat : Int) - 48 = version
    omega
  · rw [methodOf, afterVersion, take_left' methodLength,
      stripLeadingZeros_of_digits (fun _ mem => digit_of_mem_padded mem), leadingNat_padded]
    rw [methodLength]
    decide
  · exact lengthField
  · exact bodyLength
  · rw [bodyOf, afterLength, bodyLength, take_length]

/-! ### Reading -/

namespace CredentialMessage

/-- The message has room for a body, or gets it. -/
def Room (allocated : Bool) (message : CredentialMessage) (len : Nat) : Prop :=
  len ≤ message.messageBodyCapacity ∨ allocated = true

variable {allocated : Bool} {message : CredentialMessage}

theorem allocateAndCopy_of_room {data : Bytes} (some_data : 0 < data.length)
    (bound : data.length ≤ messageStrMaxLen) (room : message.Room allocated data.length) :
    message.allocateAndCopy allocated data = { message with
      messageBody := some (data ++ List.replicate (message.messageBodyCapacity - data.length) 0)
      messageBodyLen := data.length } := by
  rw [allocateAndCopy, if_neg (by omega), allocate]
  by_cases fits : data.length ≤ message.messageBodyCapacity
  · rw [if_neg (by omega)]
    cases stored : message.messageBody with
    | none =>
      rw [messageBodyCapacity, stored] at fits
      exact absurd some_data (Nat.not_lt.mpr fits)
    | some buffer =>
      simp [messageBodyCapacity, stored]
  · rw [if_pos (by omega), room.resolve_left fits]
    have nothing : message.messageBodyCapacity - data.length = 0 := by omega
    simp only [if_true, length_replicate, Nat.sub_self, nothing]
    rw [clearMessageBody]
    split <;> rfl

theorem allocateAndCopy_of_not_room {data : Bytes} (some_data : 0 < data.length)
    (bound : data.length ≤ messageStrMaxLen) (noRoom : ¬ message.Room allocated data.length) :
    message.allocateAndCopy allocated data = message.clearMessageBody ∧
    (message.allocateAndCopy allocated data).messageBody = none := by
  rw [Room, not_or, Bool.not_eq_true] at noRoom
  have cleared : message.clearMessageBody.messageBody = none := by
    rw [clearMessageBody]
    split
    · assumption
    · rfl
  have failed : message.allocateAndCopy allocated data = message.clearMessageBody := by
    rw [allocateAndCopy, if_neg (by omega), allocate, if_pos (by omega), noRoom.2]
    generalize message.clearMessageBody = after at cleared
    cases after
    cases cleared
    rfl
  exact ⟨failed, failed ▸ cleared⟩

/-- A message as it is set up by its caller. -/
theorem carries_set (message : CredentialMessage)
    (fields : Fields version method body) (some_version : 1 ≤ version) :
    (((message.setMessageVersion version).setMessageMethodType method).setMessageBody true
    body).Carries version method body := by
  have some_body := fields.some_body
  have bound := fields.body
  have small := fields.version
  rw [setMessageBody, if_neg (by omega), allocateAndCopy_of_room some_body bound (.inr rfl)]
  refine ⟨?_, rfl, rfl, _, rfl⟩
  change (message.setMessageVersion version).messageVersion = version
  rw [setMessageVersion, if_pos]
  rw [methodCryptoKey, methodVersionMax]
  omega

/-- `Init` stops before it assigns anything. -/
def Unread (messageStr : Bytes) : Prop :=
  messageStr.length < messageBodyPos ∨ versionOf messageStr < methodCryptoKey ∨
    methodVersionMax < versionOf messageStr

/-- `Init` stops at the length of the body. -/
def BadLength (messageStr : Bytes) : Prop :=
  bodyLengthOf messageStr = 0 ∨ messageStrMaxLen < bodyLengthOf messageStr ∨
    messageStr.length < messageBodyPos + bodyLengthOf messageStr

/-- The version and the method as `Init` assigns them. -/
def headed (message : CredentialMessage) (messageStr : Bytes) : CredentialMessage :=
  { message with
    messageVersion := versionOf messageStr, messageMethodType := methodOf messageStr }

variable {messageStr : Bytes}

theorem init_unread (allocated : Bool) (message : CredentialMessage) (unread : Unread messageStr) :
    message.init allocated messageStr = message := by
  rw [init]
  split
  · rfl
  case isFalse long => rw [if_pos (unread.resolve_left long)]

theorem init_badLength (allocated : Bool) (message : CredentialMessage)
    (read : ¬ Unread messageStr) (bad : BadLength messageStr) :
    message.init allocated messageStr = message.headed messageStr := by
  rw [Unread, not_or] at read
  rw [init, if_neg read.1, if_neg read.2]
  split
  · rfl
  case isFalse fits =>
    have short : messageStr.length < messageBodyPos + bodyLengthOf messageStr := by
      rcases bad with zero | above | short
      · exact absurd (.inl zero) fits
      · exact absurd (.inr above) fits
      · exact short
    rw [if_pos short]
    rfl

theorem init_accepted (allocated : Bool) (message : CredentialMessage)
    (read : ¬ Unread messageStr) (good : ¬ BadLength messageStr) :
    message.init allocated messageStr =
    (message.headed messageStr).allocateAndCopy allocated (bodyOf messageStr) := by
  rw [Unread, not_or] at read
  rw [BadLength, ← or_assoc, not_or] at good
  rw [init, if_neg read.1, if_neg read.2]
  rw [if_neg good.1, if_neg good.2]
  rfl

theorem length_bodyOf (good : ¬ BadLength messageStr) :
    (bodyOf messageStr).length = bodyLengthOf messageStr ∧ 0 < (bodyOf messageStr).length ∧
    (bodyOf messageStr).length ≤ messageStrMaxLen := by
  rw [BadLength] at good
  have taken : (bodyOf messageStr).length = bodyLengthOf messageStr := by
    apply length_take_of_le
    rw [length_drop]
    omega
  omega

theorem headed_eq_self_iff (message : CredentialMessage) (messageStr : Bytes) :
    message.headed messageStr = message ↔ message.messageVersion = versionOf messageStr ∧
    message.messageMethodType = methodOf messageStr := by
  cases message
  simp [headed, eq_comm]

/-! ### The format -/

/-- A text of the format is read as what it is about, unless the version is 0 or there is no memory
for the body. -/
theorem carries_init_iff (allocated : Bool) (message : CredentialMessage)
    (fields : Fields version method body) :
    (message.init allocated (text version method body)).Carries version method body ↔
    (1 ≤ version ∧ message.Room allocated body.length) ∨
    (version = 0 ∧ message.Carries version method body) := by
  have reads := fields.reads
  have some_body := fields.some_body
  have bound := fields.body
  by_cases zero : version = 0
  · have unread : Unread (text version method body) := by
      right; left
      rw [reads.version, zero]
      decide
    rw [init_unread allocated message unread]
    simp [zero]
  · have read : ¬ Unread (text version method body) := by
      have small := fields.version
      rw [Unread, reads.version, reads.length, methodCryptoKey, methodVersionMax]
      omega
    have good : ¬ BadLength (text version method body) := by
      rw [BadLength, reads.bodyLength, reads.length]
      omega
    rw [init_accepted allocated message read good, reads.body]
    by_cases room : (message.headed (text version method body)).Room allocated body.length
    · rw [allocateAndCopy_of_room some_body bound room]
      refine iff_of_true ⟨reads.version, reads.method, rfl, _, rfl⟩ (.inl ⟨by omega, room⟩)
    · obtain ⟨-, gone⟩ := allocateAndCopy_of_not_room some_body bound room
      refine iff_of_false ?_ ?_
      · rintro ⟨-, -, -, _, stored⟩
        rw [gone] at stored
        cases stored
      · rintro (⟨-, fits⟩ | ⟨none, -⟩)
        · exact room fits
        · exact zero none

/-- The body is there already, in a buffer that is zero behind it; or there is neither a buffer nor
memory for one. -/
def Unmoved (allocated : Bool) (message : CredentialMessage) (messageStr : Bytes) : Prop :=
  (message.messageBody = some (bodyOf messageStr ++
      List.replicate (message.messageBodyCapacity - bodyLengthOf messageStr) 0) ∧
    message.messageBodyLen = bodyLengthOf messageStr) ∨
  (message.messageBody = none ∧ allocated = false)

/-- The message has already what `Init` assigns: the version and the method, and the body if the
length is accepted. -/
structure Settled (allocated : Bool) (message : CredentialMessage) (messageStr : Bytes) : Prop where
  version : message.messageVersion = versionOf messageStr
  method : message.messageMethodType = methodOf messageStr
  body : BadLength messageStr ∨ message.Unmoved allocated messageStr

theorem clearMessageBody_of_none (none : message.messageBody = none) :
    message.clearMessageBody = message := by
  rw [clearMessageBody, none]

theorem init_eq_self_iff_of_room (read : ¬ Unread messageStr) (good : ¬ BadLength messageStr)
    (room : message.Room allocated (bodyOf messageStr).length) :
    message.init allocated messageStr = message ↔ message.Settled allocated messageStr := by
  obtain ⟨taken, some_body, bound⟩ := length_bodyOf good
  rw [init_accepted allocated message read good, allocateAndCopy_of_room some_body bound
    (show (message.headed messageStr).Room allocated (bodyOf messageStr).length from room)]
  constructor
  · intro same
    have stored := (congrArg messageBody same).symm
    have len := (congrArg messageBodyLen same).symm
    rw [taken] at stored len
    refine ⟨?_, ?_, .inr (.inl ⟨stored, len⟩)⟩
    · exact (congrArg messageVersion same).symm
    · exact (congrArg messageMethodType same).symm
  · rintro ⟨version, method, bad | ⟨stored, len⟩ | ⟨none, failed⟩⟩
    · exact absurd bad good
    · have capacity : (message.headed messageStr).messageBodyCapacity =
          message.messageBodyCapacity := rfl
      rw [capacity, taken, ← stored, ← len, headed, ← version, ← method]
    · rw [Room, failed, messageBodyCapacity, none] at room
      exact absurd some_body (Nat.not_lt.mpr (room.resolve_right Bool.false_ne_true))

theorem init_eq_self_iff_of_not_room (read : ¬ Unread messageStr) (good : ¬ BadLength messageStr)
    (noRoom : ¬ message.Room allocated (bodyOf messageStr).length) :
    message.init allocated messageStr = message ↔ message.Settled allocated messageStr := by
  obtain ⟨_, some_body, bound⟩ := length_bodyOf good
  obtain ⟨failed, gone⟩ := allocateAndCopy_of_not_room some_body bound
    (show ¬ (message.headed messageStr).Room allocated (bodyOf messageStr).length from noRoom)
  rw [failed] at gone
  rw [init_accepted allocated message read good, failed]
  constructor
  · intro same
    have none : message.messageBody = none := by
      rw [← same]
      exact gone
    rw [clearMessageBody_of_none (show (message.headed messageStr).messageBody = _ from none)]
      at same
    obtain ⟨version, method⟩ := (headed_eq_self_iff message messageStr).mp same
    refine ⟨version, method, .inr (.inr ⟨none, ?_⟩)⟩
    exact Bool.eq_false_iff.mpr fun allocates => noRoom (.inr allocates)
  · rintro ⟨version, method, bad | ⟨stored, -⟩ | ⟨none, -⟩⟩
    · exact absurd bad good
    · refine absurd (.inl ?_) noRoom
      rw [messageBodyCapacity, stored, Option.elim_some, length_append]
      exact Nat.le_add_right ..
    · rw [clearMessageBody_of_none (show (message.headed messageStr).messageBody = _ from none)]
      exact (headed_eq_self_iff message _).mpr ⟨version, method⟩

theorem init_eq_self_iff (allocated : Bool) (message : CredentialMessage) (messageStr : Bytes) :
    message.init allocated messageStr = message ↔
    Unread messageStr ∨ message.Settled allocated messageStr := by
  by_cases unread : Unread messageStr
  · exact iff_of_true (init_unread _ message unread) (.inl unread)
  rw [or_iff_right unread]
  by_cases bad : BadLength messageStr
  · rw [init_badLength allocated message unread bad, headed_eq_self_iff]
    constructor
    · rintro ⟨version, method⟩
      exact ⟨version, method, .inl bad⟩
    · rintro ⟨version, method, -⟩
      exact ⟨version, method⟩
  by_cases room : message.Room allocated (bodyOf messageStr).length
  · exact init_eq_self_iff_of_room unread bad room
  · exact init_eq_self_iff_of_not_room unread bad room

end CredentialMessage

open CredentialMessage

/-- The format, in both directions. What `Construct` makes of a version digit, a method up to 999 and
a body up to the maximum is read by `Init` as these, unless the version is 0 or there is no memory. A
text that is not of the format leaves a message as it is if it is too short or its version is none,
and otherwise just where the message has already what the text says. -/
theorem message_format (allocated : Bool) (message : CredentialMessage) :
    (∀ (sender : CredentialMessage) (version method : Nat) (body : Bytes),
      Fields version method body → sender.Carries version method body →
      ∃ messageStr, sender.construct = some messageStr ∧
        ((message.init allocated messageStr).Carries version method body ↔
          (1 ≤ version ∧ message.Room allocated body.length) ∨
            (version = 0 ∧ message.Carries version method body))) ∧
    ∀ messageStr,
      (¬ Formed messageStr → message.init allocated messageStr = message) ↔
        Formed messageStr ∨ Unread messageStr ∨ message.Settled allocated messageStr := by
  constructor
  · intro sender version method body fields carries
    exact ⟨_, carries.construct fields, carries_init_iff _ message fields⟩
  · intro messageStr
    rw [init_eq_self_iff]
    exact Classical.or_iff_not_imp_left.symm

/-- A message that nothing has been assigned to. -/
def CredentialMessage.new : CredentialMessage := ⟨0, 0, 0, none⟩

/-- A body of eight bytes for method 1 of version 3. -/
theorem message_format_eight :
    ∃ messageStr,
      (((CredentialMessage.new.setMessageVersion 3).setMessageMethodType 1).setMessageBody true
        (str "12345678")).construct = some messageStr ∧
      (CredentialMessage.new.init true messageStr).Carries 3 1 (str "12345678") := by
  have fields : Fields 3 1 (str "12345678") := ⟨by decide, by decide, by decide, by decide⟩
  obtain ⟨messageStr, constructed, back⟩ := (message_format true .new).1 _ 3 1 (str "12345678")
    fields (CredentialMessage.new.carries_set fields (by decide))
  exact ⟨_, constructed, back.mpr (.inl ⟨by decide, .inr rfl⟩)⟩

/-- A length with a letter in it is accepted up to the letter; and a text that ends before its body
leaves its version and its method behind. -/
theorem letterInLength_accepted :
    (¬ Formed (str "10012x00ab") ∧
      CredentialMessage.new.init true (str "10012x00ab") = ⟨1, 1, 2, some (str "ab")⟩) ∧
    (¬ Formed (str "100100020") ∧
      CredentialMessage.new.init true (str "100100020") = ⟨1, 1, 0, none⟩) := by
  refine ⟨⟨?_, by decide⟩, ?_, by decide⟩
  · rintro ⟨version, method, body, fields, same⟩
    have field := fields.reads.lengthField
    rw [← same] at field
    have letter : (120 : UInt8) ∈ padded messageLengthLen body.length := by
      rw [← field]
      decide
    exact absurd (digit_of_mem_padded letter).2 (by decide)
  · rintro ⟨version, method, body, fields, same⟩
    have reads := fields.reads
    rw [← same] at reads
    have length := reads.length
    rw [← reads.bodyLength] at length
    exact absurd length (by decide)

end Hdc.Credential
