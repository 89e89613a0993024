import Mathlib.Algebra.Order.BigOperators.Group.List
import Hdc.Usb.Blocks

/-!
Blocks from one end of the cable to the other.

The transfers of a block reach the daemon in order: its heads as they are, its body in
pieces. A piece that looks like a head is taken for one, although the body is not complete,
and one that looks like an antique packet ends the reading; the bytes of either are lost.

* `blocks_arrive_iff`: exactly what arrives.
-/

namespace Hdc.Usb

open RetErrCode List UInt32

/-! ### Heads and pieces -/

section

variable (sessionId : UInt32) (option : UInt8) (dataSize : UInt32)
include sessionId option dataSize

theorem isUsbPacketHeader_usbHead (announces : dataSize = 0 ∨ hasOption option usbOptionHeader = true) :
    isUsbPacketHeader (usbHead sessionId option dataSize) = true := by
  have flag : (usbHead sessionId option dataSize).take 2 = usbPacketFlag := rfl
  rw [isUsbPacketHeader, decide_eq_true (length_usbHead ..), decide_eq_true flag,
    headDataSize_usbHead, headOption_usbHead, Bool.and_self, Bool.true_and]
  rcases announces with none | option
  · rw [decide_eq_true none, Bool.true_or]
  · rw [option, Bool.or_true]

theorem usbHead_ne_nil : usbHead sessionId option dataSize ≠ [] := by
  intro empty
  have long := length_usbHead sessionId option dataSize
  rw [empty] at long
  cases long

theorem jumpAntiquePacket_usbHead :
    HdcDaemonUSB.jumpAntiquePacket (usbHead sessionId option dataSize) = false := by
  rfl

end

variable {data : Bytes} {events : List (UsbRead × ReadAnswer)}

namespace HdcDaemonUSB

theorem takes_header (sessionId size payload : UInt32) (stream : Bytes) :
    Takes sessionId (usbHead sessionId usbOptionHeader size) payload stream size stream := by
  intro usb mine expected got
  refine ⟨{ usb with payloadSize := size }, ?_, mine, rfl, got⟩
  have head := isUsbPacketHeader_usbHead sessionId usbOptionHeader size (.inr (by decide))
  have option : hasOption (headOption (usbHead sessionId usbOptionHeader size))
      usbOptionHeader = true := by
    rw [headOption_usbHead]
    decide
  rw [UsbSession.sendToHdcStream_head _ _ head, UsbSession.checkPacketOption,
    headSessionId_usbHead, if_neg (not_not.mpr mine.symm), if_pos option, headDataSize_usbHead]

theorem takes_dummy (sessionId payload : UInt32) (stream : Bytes) :
    Takes sessionId (usbHead sessionId 0 0) payload stream payload stream := by
  intro usb mine expected got
  refine ⟨usb, ?_, mine, expected, got⟩
  have head := isUsbPacketHeader_usbHead sessionId 0 0 (.inl rfl)
  have option : ¬ hasOption (headOption (usbHead sessionId 0 0)) usbOptionHeader = true := by
    rw [headOption_usbHead]
    decide
  rw [UsbSession.sendToHdcStream_head _ _ head, UsbSession.checkPacketOption,
    headSessionId_usbHead, if_neg (not_not.mpr mine.symm), if_neg option, expected]
  exact Prod.ext rfl (by rw [← expected])

variable {missing : Nat}

theorem takes_piece (sessionId : UInt32) {piece : Bytes} (body : isUsbPacketHeader piece = false)
    (full : piece ≠ []) (small : missing < 2 ^ 31) (fits : piece.length ≤ missing)
    (stream : Bytes) :
    Takes sessionId piece (ofNat missing) stream (ofNat (missing - piece.length))
    (stream ++ piece) := by
  intro usb mine expected got
  have positive := length_pos_iff.mpr full
  have more : usb.payloadSize ≠ 0 := by
    rw [expected]
    intro none
    have zero := congrArg toNat none
    rw [toNat_ofNat_of_lt' (show _ < 4294967296 by omega)] at zero
    change missing = 0 at zero
    omega
  refine ⟨{ usb with
    stream := usb.stream ++ piece, payloadSize := ofNat (missing - piece.length) },
    ?_, mine, rfl, by rw [got]⟩
  have whole : usbToHdcProtocol (.daemon .written) piece = ⟨piece.length, piece.length⟩ := rfl
  rw [UsbSession.sendToHdcStream_body _ body more, whole]
  dsimp only
  rw [if_neg (by omega), Int.toNat_natCast, expected, ← ofNat_sub fits, take_length]

/-- A session that is up, or that the first head will set up. -/
inductive Ready (sessionId : UInt32) (stream : Bytes) (daemon : HdcDaemonUSB) : Prop where
  | up {payload : UInt32} (standing : daemon.Standing sessionId payload stream)
  | fresh (nobody : daemon.currentSessionId = 0) (alive : daemon.isAlive = true)
      (reading : daemon.nextReadSize ≠ none) (unknown : daemon.query sessionId = none)
      (named : sessionId ≠ 0) (nothing : stream = [])

variable {daemon : HdcDaemonUSB} {sessionId : UInt32} {stream : Bytes}

theorem Ready.streamOf (ready : Ready sessionId stream daemon) :
    daemon.streamOf sessionId = stream := by
  cases ready with
  | up standing =>
    obtain ⟨_, found, -, -, -, got⟩ := standing.found
    rw [HdcDaemonUSB.streamOf, found, Option.map_some, Option.getD_some, got]
  | fresh nobody alive reading unknown named nothing =>
    rw [HdcDaemonUSB.streamOf, unknown, nothing]
    rfl

/-- The reads of a run that are taken for heads. -/
def headsTaken : HdcDaemonUSB → List (UsbRead × ReadAnswer) → List Bytes
  | _, [] => []
  | daemon, event :: events =>
    (match event.1 with
      | .bytes data =>
        if daemon.nextReadSize ≠ none ∧ daemon.isAlive = true ∧ jumpAntiquePacket data = false ∧
          isUsbPacketHeader data = true then [data] else []
      | _ => []) ++ headsTaken (daemon.readStep event) events

theorem headsTaken_append (daemon : HdcDaemonUSB) (events more : List (UsbRead × ReadAnswer)) :
    daemon.headsTaken (events ++ more) =
    daemon.headsTaken events ++ (daemon.runReads events).headsTaken more := by
  induction events generalizing daemon with
  | nil => rfl
  | cons event events ih =>
    rw [cons_append, headsTaken, headsTaken, ih, append_assoc]
    rfl

theorem headsTaken_cons (daemon : HdcDaemonUSB) (event : UsbRead × ReadAnswer)
    (events : List (UsbRead × ReadAnswer)) :
    daemon.headsTaken (event :: events) =
    daemon.headsTaken [event] ++ (daemon.readStep event).headsTaken events :=
  headsTaken_append _ [event] events

theorem headsTaken_head (reading : daemon.nextReadSize ≠ none) (alive : daemon.isAlive = true)
    (head : isUsbPacketHeader data = true)
    (modern : jumpAntiquePacket data = false) (answer : ReadAnswer) :
    daemon.headsTaken [(.bytes data, answer)] = [data] := by
  rw [headsTaken]
  dsimp only
  rw [if_pos ⟨reading, alive, modern, head⟩]
  rfl

theorem headsTaken_body (daemon : HdcDaemonUSB)
    (body : isUsbPacketHeader data = false) (answer : ReadAnswer)
    (events : List (UsbRead × ReadAnswer)) :
    daemon.headsTaken ((.bytes data, answer) :: events) =
    (daemon.readStep (.bytes data, answer)).headsTaken events := by
  rw [headsTaken]
  dsimp only
  rw [if_neg (fun all => absurd (body.symm.trans all.2.2.2) (by decide))]
  rfl

/-! ### A block -/

variable {answer : ReadAnswer}

/-- The head of a block finds its session, or sets it up. -/
theorem Ready.header (ready : Ready sessionId stream daemon) {size : UInt32}
    (small : size.toNat < 2 ^ 31) (works : answer.Works) :
    let event := (UsbRead.bytes (usbHead sessionId usbOptionHeader size), answer)
    (daemon.readStep event).Standing sessionId size stream ∧
      daemon.headsTaken [event] = [usbHead sessionId usbOptionHeader size] := by
  have full := usbHead_ne_nil sessionId usbOptionHeader size
  have modern := jumpAntiquePacket_usbHead sessionId usbOptionHeader size
  have head := isUsbPacketHeader_usbHead sessionId usbOptionHeader size (.inr (by decide))
  have own := headSessionId_usbHead sessionId usbOptionHeader size
  have plain : hasOption (headOption (usbHead sessionId usbOptionHeader size))
      usbOptionReset = false := by
    rw [headOption_usbHead]
    decide
  cases ready with
  | @up payload standing =>
    have takes := takes_header sessionId size payload stream
    exact ⟨standing.readStep full modern (fun _ => ⟨own, plain⟩) takes small works,
      headsTaken_head standing.reading standing.alive head modern _⟩
  | fresh nobody alive reading unknown named nothing =>
    refine ⟨?_, headsTaken_head reading alive head modern _⟩
    obtain ⟨pseudoUid, prepare⟩ := works.comesUp
    -- the daemon with the session that `PrepareNewSession` made
    let up : HdcDaemonUSB := { daemon with
      currentSessionId := sessionId
      sessions := daemon.sessions ++ [newSession sessionId pseudoUid] }
    have started : up.query sessionId = some (newSession sessionId pseudoUid) := by
      rw [query] at unknown ⊢
      rw [find?_append, unknown, Option.none_or, find?_singleton, newSession,
        if_neg named, if_pos (decide_eq_true rfl)]
    have mine : (newSession sessionId pseudoUid).usb.sessionId = sessionId := if_neg named
    have current : up.currentSessionId = sessionId := rfl
    have takes := takes_header sessionId size 0 stream
    obtain ⟨after, sent, next⟩ := sendToSession_standing current alive started rfl mine rfl
      nothing.symm takes small works
    have dispatched : daemon.dispatchToWorkThread sessionId answer
        (usbHead sessionId usbOptionHeader size) = (asInt size, after) := by
      have stays : daemon.endOther sessionId = daemon := by
        rw [endOther, nobody, if_neg (fun both => both.1 rfl)]
      rw [dispatchToWorkThread, target, if_neg named, stays, unknown, prepare]
      exact sent
    have available : daemon.availablePacket (usbHead sessionId usbOptionHeader size) =
        (retSuccess, sessionId, daemon) := by
      rw [availablePacket, head, if_pos rfl, plain, if_neg (by decide), own]
    rw [HdcDaemonUSB.readStep, if_neg reading,
      onUSBRead_bytes alive full modern available dispatched (asInt_nonneg small)]
    exact next

theorem Standing.dummy {sessionId payload : UInt32}
    (standing : daemon.Standing sessionId payload stream) (small : payload.toNat < 2 ^ 31)
    (works : answer.Works) :
    let event := (UsbRead.bytes (usbHead sessionId 0 0), answer)
    (daemon.readStep event).Standing sessionId payload stream ∧
      daemon.headsTaken [event] = [usbHead sessionId 0 0] := by
  have full := usbHead_ne_nil sessionId 0 0
  have modern := jumpAntiquePacket_usbHead sessionId 0 0
  have head := isUsbPacketHeader_usbHead sessionId 0 0 (.inl rfl)
  have own := headSessionId_usbHead sessionId 0 0
  have takes := takes_dummy sessionId payload stream
  have plain : hasOption (headOption (usbHead sessionId 0 0)) usbOptionReset = false := by
    rw [headOption_usbHead]
    decide
  exact ⟨standing.readStep full modern (fun _ => ⟨own, plain⟩) takes small works,
    headsTaken_head standing.reading standing.alive head modern _⟩

theorem Standing.nothing {sessionId payload : UInt32}
    (standing : daemon.Standing sessionId payload stream) (works : answer.Works) :
    (daemon.readStep (.bytes [], answer)).Standing sessionId payload stream := by
  obtain ⟨current, alive, reading, found⟩ := standing
  rw [HdcDaemonUSB.readStep, if_neg reading, onUSBRead, alive]
  rw [loopUSBRead, works.queued]
  exact ⟨current, alive, Option.some_ne_none _, found⟩

section

variable (standing : daemon.Standing sessionId (UInt32.ofNat missing) stream)
  (small : missing < 2 ^ 31)
include standing small

/-- A part of the body that was announced. -/
theorem Standing.piece {piece : Bytes} (body : isUsbPacketHeader piece = false)
    (modern : jumpAntiquePacket piece = false) (fits : piece.length ≤ missing)
    (works : answer.Works) :
    (daemon.readStep (.bytes piece, answer)).Standing sessionId
    (ofNat (missing - piece.length)) (stream ++ piece) := by
  by_cases full : piece = []
  · rw [full, append_nil]
    exact standing.nothing works
  · have takes := takes_piece sessionId body full small fits stream
    refine standing.readStep full modern ?_ takes ?_ works
    · intro head
      cases body.symm.trans head
    · rw [toNat_ofNat_of_lt' (show _ < 4294967296 by omega)]
      omega

/-- The body of a block, piece by piece. -/
theorem Standing.pieces {pieces : List Bytes} (fits : pieces.flatten.length ≤ missing)
    (plain : ∀ piece ∈ pieces, isUsbPacketHeader piece = false ∧ jumpAntiquePacket piece = false)
    (works : ∀ event ∈ events, event.2.Works)
    (order : events.map Prod.fst = pieces.map .bytes) :
    (daemon.runReads events).Standing sessionId (ofNat (missing - pieces.flatten.length))
    (stream ++ pieces.flatten) ∧ daemon.headsTaken events = [] := by
  induction pieces generalizing daemon missing stream events with
  | nil =>
    obtain rfl := map_eq_nil_iff.mp order
    rw [flatten_nil, append_nil]
    exact ⟨standing, rfl⟩
  | cons piece pieces ih =>
    obtain ⟨⟨read, _⟩, rest, rfl, same, later⟩ := map_eq_cons_iff.mp order
    obtain rfl : read = .bytes piece := same
    rw [flatten_cons, length_append] at fits
    obtain ⟨body, modern⟩ := plain piece mem_cons_self
    have step := standing.piece small body modern (by omega) (works _ mem_cons_self)
    obtain ⟨after, heads⟩ := ih step (by omega) (by omega)
      (fun other mem => plain other (mem_cons_of_mem _ mem))
      (fun event mem => works event (mem_cons_of_mem _ mem)) later
    rw [flatten_cons, length_append, ← append_assoc, ← Nat.sub_sub]
    exact ⟨after, (headsTaken_body _ body _ rest).trans heads⟩

end

end HdcDaemonUSB

/-- A block, and how its body comes in. Its length is an `int`. -/
structure CutBlock where
  pieces : List Bytes
  small : pieces.flatten.length < 2 ^ 31

namespace CutBlock

def block (cut : CutBlock) : Bytes := cut.pieces.flatten

/-- The pieces look neither like heads nor like antique packets. -/
def Plain (cut : CutBlock) : Prop :=
  ∀ piece ∈ cut.pieces,
    isUsbPacketHeader piece = false ∧ HdcDaemonUSB.jumpAntiquePacket piece = false

section Transfers

variable (sendUSBRaw : Bytes → Int) (sessionId : UInt32) (wMaxPacketSizeSend : UInt16)

/-- The reads of a block: its transfers, the body in pieces. -/
def reads (cut : CutBlock) : List Bytes :=
  match (sendUSBBlock sendUSBRaw sessionId wMaxPacketSizeSend cut.block).2 with
  | header :: _ :: rest => header :: (cut.pieces ++ rest)
  | transfers => transfers

/-- The transfers of a block that are heads. -/
def heads (cut : CutBlock) : List Bytes :=
  match (sendUSBBlock sendUSBRaw sessionId wMaxPacketSizeSend cut.block).2 with
  | header :: _ :: rest => header :: rest
  | transfers => transfers

variable {sendUSBRaw} {wMaxPacketSizeSend}

/-- With an endpoint that takes everything: a block without a byte has no second transfer. -/
theorem reads_eq (goesOut : ∀ data, sendUSBRaw data = data.length)
    (packets : wMaxPacketSizeSend ≠ 0) (cut : CutBlock) : ∃ body tail,
    cut.reads sendUSBRaw sessionId wMaxPacketSizeSend =
    usbHead sessionId usbOptionHeader (ofNat cut.block.length) :: (body ++ tail) ∧
    cut.heads sendUSBRaw sessionId wMaxPacketSizeSend =
    usbHead sessionId usbOptionHeader (ofNat cut.block.length) :: tail ∧
    body.flatten = cut.block ∧ (body = cut.pieces ∨ body = [] ∧ cut.block = []) ∧
    (tail = [] ∨ tail = [usbHead sessionId 0 0]) := by
  have header : ¬ sendUSBRaw (usbHead sessionId usbOptionHeader (ofNat cut.block.length)) ≤
      0 := by
    rw [goesOut, length_usbHead]
    decide
  have dummy : ¬ sendUSBRaw (usbHead sessionId 0 0) ≤ 0 := by
    rw [goesOut, length_usbHead]
    decide
  rw [reads, heads, sendUSBBlock]
  rw [if_neg packets, if_neg header, goesOut cut.block]
  by_cases none : (cut.block.length : Int) ≤ 0
  · have empty : cut.block = [] := length_eq_zero_iff.mp (by omega)
    rw [if_pos none]
    exact ⟨[], [], rfl, rfl, empty.symm, .inr ⟨rfl, empty⟩, .inl rfl⟩
  rw [if_neg none, if_neg dummy]
  by_cases whole : (cut.block.length : Int) % wMaxPacketSizeSend.toNat = 0
  · rw [if_pos whole]
    exact ⟨cut.pieces, [usbHead _ 0 0], rfl, rfl, rfl, .inl rfl, .inr rfl⟩
  · rw [if_neg whole]
    exact ⟨cut.pieces, [], rfl, rfl, rfl, .inl rfl, .inl rfl⟩

end Transfers

end CutBlock

namespace HdcDaemonUSB

section Blocks

variable {sendUSBRaw : Bytes → Int} {wMaxPacketSizeSend : UInt16} {sessionId : UInt32}

section

variable (goesOut : ∀ data, sendUSBRaw data = data.length) (packets : wMaxPacketSizeSend ≠ 0)
  {stream : Bytes} {daemon : HdcDaemonUSB} (ready : Ready sessionId stream daemon)
include goesOut packets ready

theorem Ready.block {cut : CutBlock} (plain : cut.Plain)
    (works : ∀ event ∈ events, event.2.Works)
    (order : events.map Prod.fst = (cut.reads sendUSBRaw sessionId wMaxPacketSizeSend).map .bytes) :
    Ready sessionId (stream ++ cut.block) (daemon.runReads events) ∧
    daemon.headsTaken events = cut.heads sendUSBRaw sessionId wMaxPacketSizeSend := by
  obtain ⟨body, _, reads, heads, whole, bodyIs, tailIs⟩ := cut.reads_eq sessionId goesOut packets
  have small : (ofNat cut.block.length).toNat < 2 ^ 31 := by
    have bound : cut.block.length < 2 ^ 31 := cut.small
    rw [toNat_ofNat_of_lt' (show _ < 4294967296 by omega)]
    exact bound
  rw [reads, map_cons, map_append] at order
  obtain ⟨⟨read, _⟩, _, rfl, same, later⟩ := map_eq_cons_iff.mp order
  obtain rfl : read = .bytes _ := same
  obtain ⟨_, _, rfl, bodyOrder, tailOrder⟩ := map_eq_append_iff.mp later
  obtain ⟨standing, first⟩ := ready.header small (works _ mem_cons_self)
  have plainBody : ∀ piece ∈ body,
      isUsbPacketHeader piece = false ∧ jumpAntiquePacket piece = false := by
    rcases bodyIs with rfl | ⟨rfl, -⟩
    · exact plain
    · exact nofun
  obtain ⟨filled, none⟩ := standing.pieces cut.small (Nat.le_of_eq (congrArg List.length whole))
    plainBody
    (fun event mem => works event (mem_cons_of_mem _ (mem_append_left _ mem))) bodyOrder
  -- everything that was announced has come
  rw [whole, Nat.sub_self] at filled
  rw [heads, headsTaken_cons, first, headsTaken_append, none]
  rcases tailIs with rfl | rfl
  · obtain rfl := map_eq_nil_iff.mp tailOrder
    rw [append_nil]
    exact ⟨.up filled, rfl⟩
  · obtain ⟨⟨read, last⟩, _, rfl, same, nothing⟩ := map_eq_cons_iff.mp tailOrder
    obtain rfl : read = .bytes _ := same
    obtain rfl := map_eq_nil_iff.mp nothing
    obtain ⟨after, taken⟩ := filled.dummy (by decide)
      (works (_, last) (mem_cons_of_mem _ (mem_append_right _ mem_cons_self)))
    refine ⟨?_, congrArg _ taken⟩
    rw [← cons_append, runReads, foldl_append]
    exact .up after

/-- Blocks one after the other, none of them with a piece that is taken for something else. -/
theorem Ready.blocks {sent : List CutBlock} (plain : ∀ cut ∈ sent, cut.Plain)
    (works : ∀ event ∈ events, event.2.Works)
    (order : events.map Prod.fst =
    (sent.flatMap (·.reads sendUSBRaw sessionId wMaxPacketSizeSend)).map .bytes) :
    (daemon.runReads events).streamOf sessionId = stream ++ (sent.map (·.block)).flatten ∧
    daemon.headsTaken events = sent.flatMap (·.heads sendUSBRaw sessionId wMaxPacketSizeSend) := by
  induction sent generalizing daemon stream events with
  | nil =>
    obtain rfl := map_eq_nil_iff.mp order
    rw [map_nil, flatten_nil, append_nil]
    exact ⟨ready.streamOf, rfl⟩
  | cons cut sent ih =>
    rw [flatMap_cons, map_append] at order
    obtain ⟨_, _, rfl, firstOrder, restOrder⟩ := map_eq_append_iff.mp order
    obtain ⟨after, heads⟩ := ready.block goesOut packets (plain cut mem_cons_self)
      (fun event mem => works event (mem_append_left _ mem)) firstOrder
    obtain ⟨arrived, others⟩ := ih after (fun other mem => plain other (mem_cons_of_mem _ mem))
      (fun event mem => works event (mem_append_right _ mem)) restOrder
    rw [map_cons, flatten_cons, ← append_assoc, flatMap_cons,
      headsTaken_append, heads, others, runReads, foldl_append]
    exact ⟨arrived, rfl⟩

end

/-! ### What cannot arrive -/

theorem weight_le (data : Bytes) : weight (.bytes data) ≤ data.length := by
  rw [weight]
  split
  · exact Nat.zero_le _
  · exact Nat.le_refl _

/-- What looks like something else is not empty, and adds nothing. -/
theorem weight_lt (odd : ¬ (isUsbPacketHeader data = false ∧ jumpAntiquePacket data = false)) :
    weight (.bytes data) < data.length := by
  have something : data.length ≠ 0 := by
    intro none
    obtain rfl := length_eq_zero_iff.mp none
    exact odd ⟨rfl, rfl⟩
  have taken : (isUsbPacketHeader data || jumpAntiquePacket data) = true := by
    simpa [imp_iff_or_not, or_comm] using odd
  rw [weight, if_pos taken]
  omega

theorem weight_usbHead {option : UInt8} {dataSize : UInt32}
    (announces : dataSize = 0 ∨ hasOption option usbOptionHeader = true) :
    weight (.bytes (usbHead sessionId option dataSize)) = 0 := by
  rw [weight, isUsbPacketHeader_usbHead sessionId option dataSize announces, Bool.true_or,
    if_pos rfl]

theorem weights_pieces_le (pieces : List Bytes) :
    (pieces.map fun piece => weight (.bytes piece)).sum ≤ pieces.flatten.length := by
  rw [length_flatten]
  exact sum_le_sum fun piece _ => weight_le _

theorem weights_pieces_lt {cut : CutBlock} (odd : ¬ cut.Plain) :
    (cut.pieces.map fun piece => weight (.bytes piece)).sum < cut.block.length := by
  rw [CutBlock.Plain] at odd
  push Not at odd
  obtain ⟨piece, mem, odd⟩ := odd
  rw [CutBlock.block, length_flatten]
  refine sum_lt_sum _ _ (fun piece _ => weight_le _) ⟨_, mem, weight_lt ?_⟩
  exact fun plain => odd plain.1 plain.2

/-- What the reads of a block can add is its body, less what is taken for something else. -/
theorem weights_reads (goesOut : ∀ data, sendUSBRaw data = data.length)
    (packets : wMaxPacketSizeSend ≠ 0) (cut : CutBlock) :
    let weights := ((cut.reads sendUSBRaw sessionId wMaxPacketSizeSend).map fun data =>
      weight (.bytes data)).sum
    weights ≤ cut.block.length ∧ (¬ cut.Plain → weights < cut.block.length) := by
  obtain ⟨body, tail, reads, -, whole, bodyIs, tailIs⟩ := cut.reads_eq sessionId goesOut packets
  have light : (tail.map fun data => weight (.bytes data)).sum = 0 := by
    rcases tailIs with rfl | rfl
    · rfl
    · rw [map_singleton, sum_singleton, weight_usbHead (.inl rfl)]
  rw [reads, map_cons, sum_cons, weight_usbHead (.inr (by decide)), Nat.zero_add,
    map_append, sum_append, light, Nat.add_zero]
  refine ⟨?_, fun odd => ?_⟩
  · rw [← whole]
    exact weights_pieces_le body
  · have less := weights_pieces_lt odd
    rcases bodyIs with rfl | ⟨-, empty⟩
    · exact less
    · rw [empty] at less
      cases less

/-- Blocks sent on one session, in whatever pieces their bodies are read: the session gets
exactly the blocks, and only heads are taken for heads, if and only if no piece looks like
a head or an antique packet. -/
theorem blocks_arrive_iff (goesOut : ∀ data, sendUSBRaw data = data.length)
    (packets : wMaxPacketSizeSend ≠ 0) (sent : List CutBlock) {stream : Bytes}
    {daemon : HdcDaemonUSB} (ready : Ready sessionId stream daemon)
    {events : List (UsbRead × ReadAnswer)} (works : ∀ event ∈ events, event.2.Works)
    (order : events.map Prod.fst =
      (sent.flatMap (·.reads sendUSBRaw sessionId wMaxPacketSizeSend)).map .bytes) :
    ((daemon.runReads events).streamOf sessionId = stream ++ (sent.map (·.block)).flatten ∧
        daemon.headsTaken events =
          sent.flatMap (·.heads sendUSBRaw sessionId wMaxPacketSizeSend)) ↔
      ∀ cut ∈ sent, ∀ piece ∈ cut.pieces,
        isUsbPacketHeader piece = false ∧ jumpAntiquePacket piece = false := by
  constructor
  · rintro ⟨arrived, -⟩
    by_contra odd
    have some : ∃ cut ∈ sent, ¬ cut.Plain := by
      by_contra none
      push Not at none
      exact odd none
    have bound := streamOf_runReads_le daemon events sessionId
    have less : (sent.map fun cut => ((cut.reads sendUSBRaw sessionId wMaxPacketSizeSend).map
        fun data => weight (.bytes data)).sum).sum < (sent.map (·.block.length)).sum := by
      obtain ⟨cut, mem, odd⟩ := some
      exact sum_lt_sum _ _ (fun cut _ => (weights_reads goesOut packets _).1)
        ⟨_, mem, (weights_reads goesOut packets _).2 odd⟩
    have total : ((sent.flatMap (·.reads sendUSBRaw sessionId wMaxPacketSizeSend)).map
        fun data => weight (.bytes data)).sum =
        (sent.map fun cut => ((cut.reads sendUSBRaw sessionId wMaxPacketSizeSend).map
          fun data => weight (.bytes data)).sum).sum := by
      rw [map_flatMap, List.flatMap, sum_flatten, map_map]
      rfl
    rw [arrived, ready.streamOf, order, length_append, length_flatten, map_map,
      map_map] at bound
    change _ + (sent.map (·.block.length)).sum ≤
      _ + ((sent.flatMap _).map fun data => weight (.bytes data)).sum at bound
    omega
  · intro plain
    exact ready.blocks goesOut packets plain works order

end Blocks

/-- A daemon before its first session. -/
def idle : HdcDaemonUSB where
  currentSessionId := 0
  sessions := []
  isAlive := true
  nextReadSize := some maxPacketSizeHispeed

/-- The reads of blocks sent to session 7, with everything working. -/
def readsOf (sent : List CutBlock) : List (UsbRead × ReadAnswer) :=
  (sent.flatMap (·.reads (fun data => data.length) 7 512)).map fun data =>
    (.bytes data, { prepare := .up 1, stream := .written, loopOk := true })

/-- Two blocks, one of them in two pieces. -/
def twoBlocks : List CutBlock := [⟨[[1, 2], [3]], by decide⟩, ⟨[[4]], by decide⟩]

theorem blocks_arrive_two :
    (idle.runReads (readsOf twoBlocks)).streamOf 7 = [1, 2, 3, 4] := by
  have ready : Ready 7 [] idle := .fresh rfl rfl (by decide) rfl (by decide) rfl
  have works : ∀ event ∈ readsOf twoBlocks, event.2.Works := by
    intro event mem
    obtain ⟨_, -, rfl⟩ := mem_map.mp mem
    exact ⟨rfl, rfl, 1, rfl⟩
  have packets : (512 : UInt16) ≠ 0 := by decide
  have arrives := blocks_arrive_iff (fun _ => rfl) packets twoBlocks ready works rfl
  exact (arrives.mpr (by decide)).1

/-- A block of eleven bytes that looks like a head. -/
def headLike : CutBlock where
  pieces := [usbHead 7 usbOptionHeader 100]
  small := by decide

theorem headLike_taken_for_head :
    (idle.runReads (readsOf [headLike])).streamOf 7 = [] ∧ headLike.block.length = 11 ∧
      idle.headsTaken (readsOf [headLike]) =
        [usbHead 7 usbOptionHeader 11, usbHead 7 usbOptionHeader 100] := by
  decide

end HdcDaemonUSB

end Hdc.Usb
