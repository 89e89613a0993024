import Hdc.Credential.Service

/-!
Reports of commands to the credential service.

The reporter (`command_event_report.cpp`) joins six fields by `;`, cuts the content so that all of
them fit into a message without its header, and puts the header in front. The service reads one
byte less than a message may have, so a report that was cut never arrives whole.

* `report_arrives_iff`: which reports arrive.
-/

namespace Hdc.Credential

open Base CredentialMessage List

def semicolon : UInt8 := 59

/-- `Base::Caller`. -/
inductive Caller where
  | client
  | server
  | daemon
deriving DecidableEq, Repr

/-- `GetCallerName` on the host. -/
def getCallerName : Caller → Bytes
  | .server => str "server"
  | _ => str "client"

/-- The fields in front of the content: the user, the role, the time, the status, the command. -/
def reportFields (userId time : Nat) (caller : Caller) (isIntercepted : Bool) (command : Bytes) :
    List Bytes :=
  [decimal userId, getCallerName caller, decimal time,
    if isIntercepted then str "forbidden" else str "enabled", command]

/-- `FormatMessage`; none where `substr` throws. The end of the content is what is kept. -/
def formatMessage (userId time : Nat) (caller : Caller) (isIntercepted : Bool)
    (command raw : Bytes) : Option Bytes :=
  let result := (reportFields userId time caller isIntercepted command).flatMap (· ++ [semicolon])
  if messageStrMaxLen - messageBodyPos ≤ result.length + raw.length then
    if messageStrMaxLen - messageBodyPos < result.length then none
    else
      let maxContentSize := messageStrMaxLen - messageBodyPos - result.length
      some (result ++ raw.drop (raw.length - maxContentSize))
  else some (result ++ raw)

/-- `SplitString`: at most `count` pieces are split off, and empty ones are passed over. -/
def splitString : Nat → Bytes → Bytes → List Bytes
  | _, piece, [] => [piece]
  | 0, piece, rest => [piece ++ rest]
  | count + 1, piece, byte :: rest =>
    if byte = semicolon then
      if piece = [] then splitString (count + 1) [] rest
      else piece :: splitString count [] rest
    else splitString (count + 1) (piece ++ [byte]) rest

def messageParamCommandEventReportSize : Nat := 6

/-- The parts that `HandleCommandEventMessage` works with; none where it refuses the message. -/
def reportParts (body : Bytes) : Option (List Bytes) :=
  let parts := splitString (messageParamCommandEventReportSize - 1) [] body
  if parts.length ≠ messageParamCommandEventReportSize then none else some parts

/-- From the reporter to the parts in the service. -/
def deliverReport (userId time : Nat) (caller : Caller) (isIntercepted : Bool)
    (command raw : Bytes) : Option (List Bytes) := do
  let message ← formatMessage userId time caller isIntercepted command raw
  let body ← (CredentialMessage.new.init true (serverRead (splicMessageStr message 1 2))).getMessageBody
  reportParts body

/-- The report arrives: six fields, the content whole or cut. -/
def Arrives (userId time : Nat) (caller : Caller) (isIntercepted : Bool) (command raw : Bytes) :
    Prop :=
  ∃ content, content <:+ raw ∧
    deliverReport userId time caller isIntercepted command raw =
      some (reportFields userId time caller isIntercepted command ++ [content])

/-! ### Splitting -/

theorem splitString_piece {count : Nat} {field : Bytes} (free : semicolon ∉ field) {piece : Bytes}
    (some_piece : piece ++ field ≠ []) (rest : Bytes) :
    splitString (count + 1) piece (field ++ semicolon :: rest) =
    (piece ++ field) :: splitString count [] rest := by
  induction field generalizing piece with
  | nil =>
    rw [append_nil] at some_piece ⊢
    rw [nil_append, splitString, if_pos rfl, if_neg some_piece]
  | cons byte field ih =>
    rw [mem_cons, not_or] at free
    rw [cons_append, splitString, if_neg (Ne.symm free.1), ih free.2 (by simp),
      append_assoc, singleton_append]

/-- Fields that are not empty and hold no separator are split off one by one; what is left is not
looked at. -/
theorem splitString_fields {fields : List Bytes}
    (plain : ∀ field ∈ fields, field ≠ [] ∧ semicolon ∉ field) (content : Bytes) :
    splitString fields.length [] (fields.flatMap (· ++ [semicolon]) ++ content) =
    fields ++ [content] := by
  induction fields with
  | nil => cases content <;> rfl
  | cons field fields ih =>
    obtain ⟨⟨full, free⟩, later⟩ := forall_mem_cons.mp plain
    rw [flatMap_cons, append_assoc, append_assoc, singleton_append,
      length_cons, splitString_piece free (by simpa using full), ih later]
    rfl

theorem semicolon_notMem_decimal (n : Nat) : semicolon ∉ decimal n := by
  intro mem
  have digit := digit_of_mem_decimal mem
  rw [show semicolon.toNat = 59 from rfl] at digit
  omega

theorem plain_reportFields {userId time : Nat} {caller : Caller} {isIntercepted : Bool}
    {command : Bytes} (full : command ≠ []) (free : semicolon ∉ command) :
    ∀ field ∈ reportFields userId time caller isIntercepted command,
    field ≠ [] ∧ semicolon ∉ field := by
  have number : ∀ n, decimal n ≠ [] ∧ semicolon ∉ decimal n := fun n =>
    ⟨decimal_ne_nil n, semicolon_notMem_decimal n⟩
  simp only [reportFields, forall_mem_cons]
  refine ⟨number _, ?_, number _, ?_, ⟨full, free⟩, by simp⟩
  · cases caller <;> decide
  · cases isIntercepted <;> decide

/-! ### At the limit -/

/-- A message that the service does not read to its end has no body. -/
theorem getMessageBody_cut {body : Bytes} (fields : Fields 2 1 body)
    (long : messageStrMaxLen - 1 < (text 2 1 body).length) :
    (CredentialMessage.new.init true (serverRead (text 2 1 body))).getMessageBody = none := by
  by_cases unread : Unread (serverRead (text 2 1 body))
  · rw [init_unread true .new unread]
    rfl
  have lengthField : bodyLengthOf (serverRead (text 2 1 body)) = body.length := by
    rw [bodyLengthOf, serverRead, drop_take, take_take,
      show min messageLengthLen (messageStrMaxLen - 1 - messageLengthPos) = messageLengthLen from rfl,
      fields.reads.lengthField, leadingNat_padded]
  have bad : BadLength (serverRead (text 2 1 body)) := by
    right; right
    rw [lengthField, serverRead, length_take, ← fields.reads.length]
    omega
  rw [init_badLength true .new unread bad]
  rfl

section Arrival

variable (userId time : Nat) (caller : Caller) (isIntercepted : Bool) (command raw : Bytes)

/-- The fields in front of the content, each with its separator. -/
def headLength : Nat :=
  ((reportFields userId time caller isIntercepted command).map fun field => field.length + 1).sum

theorem length_head : ((reportFields userId time caller isIntercepted command).flatMap
    (· ++ [semicolon])).length = headLength userId time caller isIntercepted command := by
  rw [headLength]
  simp

/-- A report that has to be cut is as long as a message can be, and the service reads one byte
less. -/
theorem not_arrives_of_long (long : messageStrMaxLen - messageBodyPos ≤
    headLength userId time caller isIntercepted command + raw.length) :
    ¬ Arrives userId time caller isIntercepted command raw := by
  rintro ⟨_, -, delivered⟩
  have some_head : 0 < headLength userId time caller isIntercepted command := by
    simp [headLength, reportFields]
  rw [deliverReport, formatMessage] at delivered
  rw [← length_head] at long some_head
  generalize (reportFields userId time caller isIntercepted command).flatMap
    (· ++ [semicolon]) = result at delivered long some_head
  rw [if_pos long] at delivered
  split at delivered
  case isTrue => cases delivered
  case isFalse fits =>
    generalize shape : result ++ raw.drop (raw.length -
      (messageStrMaxLen - messageBodyPos - result.length)) = message
    have exact : message.length = messageStrMaxLen - messageBodyPos := by
      rw [← shape, length_append, length_drop]
      omega
    have formed : Fields 2 1 message := by
      refine ⟨by decide, by decide, ?_, ?_⟩ <;> rw [exact] <;> decide
    have cut := getMessageBody_cut formed (by rw [formed.reads.length, exact]; decide)
    rw [← splicMessageStr_eq formed, ← shape] at cut
    simp [cut] at delivered

theorem arrives_of_short {command : Bytes} (full : command ≠ []) (free : semicolon ∉ command)
    (short : headLength userId time caller isIntercepted command + raw.length <
    messageStrMaxLen - messageBodyPos) : Arrives userId time caller isIntercepted command raw := by
  have plain : ∀ field ∈ reportFields userId time caller isIntercepted command,
      field ≠ [] ∧ semicolon ∉ field := plain_reportFields full free
  have split := splitString_fields plain raw
  have five : (reportFields userId time caller isIntercepted command ++ [raw]).length =
      messageParamCommandEventReportSize := rfl
  have some_head : 0 < headLength userId time caller isIntercepted command := by
    simp [headLength, reportFields]
  rw [← length_head] at short some_head
  rw [show (reportFields userId time caller isIntercepted command).length =
    messageParamCommandEventReportSize - 1 from rfl] at split
  refine ⟨_, suffix_rfl, ?_⟩
  rw [deliverReport, formatMessage]
  generalize (reportFields userId time caller isIntercepted command).flatMap
    (· ++ [semicolon]) = result at split short some_head
  have bound : (result ++ raw).length < messageStrMaxLen - messageBodyPos := by
    rwa [length_append]
  have formed : Fields 2 1 (result ++ raw) := by
    refine ⟨by decide, by decide, ?_, ?_⟩
    · rw [length_append]
      omega
    · omega
  have whole : serverRead (splicMessageStr (result ++ raw) 1 2) = text 2 1 (result ++ raw) := by
    rw [splicMessageStr_eq formed, serverRead_text formed bound]
  rw [if_neg (Nat.not_le.mpr short)]
  simp only [Option.bind_eq_bind, Option.bind_some, whole,
    getMessageBody_text formed (by decide), reportParts]
  rw [split, if_neg (not_not.mpr five)]

end Arrival

/-- A report arrives exactly if its fields and the whole content leave one byte of the message
free; one that has to be cut does not. -/
theorem report_arrives_iff (userId time : Nat) (caller : Caller) (isIntercepted : Bool)
    {command : Bytes} (full : command ≠ []) (free : semicolon ∉ command) (raw : Bytes) :
    Arrives userId time caller isIntercepted command raw ↔
      headLength userId time caller isIntercepted command + raw.length <
        messageStrMaxLen - messageBodyPos := by
  constructor
  · intro arrives
    by_contra long
    exact not_arrives_of_long _ _ _ _ _ _ (Nat.not_lt.mp long) arrives
  · exact arrives_of_short _ _ _ _ _ full free

/-- A short report that holds separators arrives. -/
theorem report_arrives_separators :
    Arrives 100 1 .server true (str "shell") (str ";a;b") := by
  refine (report_arrives_iff 100 1 .server true (by decide) (by decide) _).mpr ?_
  decide +kernel

/-- The content that fills a message to its last byte is lost with its report, and one byte less
is not. -/
theorem report_at_limit_lost :
    ¬ Arrives 100 1 .server true (str "shell") (List.replicate 4059 97) ∧
      Arrives 100 1 .server true (str "shell") (List.replicate 4058 97) := by
  constructor
  · apply not_arrives_of_long
    rw [length_replicate]
    decide +kernel
  · apply arrives_of_short
    · decide
    · decide
    · rw [length_replicate]
      decide +kernel

end Hdc.Credential
