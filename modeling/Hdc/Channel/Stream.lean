import Hdc.Session.Stream

/-!
The byte stream between the client and the server (`channel.cpp`): how `SendChannel` frames what it
is given, and how `AllocCallback` and `ReadStream` take the frames apart again.

A frame is the size in network byte order and the data. The receiver keeps what it could not use yet
at the front of one buffer, which is allocated once, reads behind it and hands frames to
`ReadChannel` while more than a size is available. A size of zero and one that does not fit an `int`
end the channel. `ReadChannel` is a parameter.

* `Stands.run`: the channel is freed exactly if an error was read or the bytes are not `Good`.
-/

namespace Hdc.Channel

open List Framing Endian Nat

open Session (storeAt)

/-! ### Frames -/

def dwordSerializeSize : Nat := 4
def bufExtendSize : Nat := 4

/-- `GetMaxBufSize() * BUF_EXTEND_SIZE`, what `AllocCallback` wants. -/
def channelBufSize : Nat := maxSizeIobuf * bufExtendSize

/-- The bytes that `SendChannel` makes of some data. -/
def frame (data : Bytes) : Bytes := toBE 4 data.length ++ data

/-- `SendChannel`: what goes to the stream, if it can be written at all. `emptyCopy` is
whether `memcpy_s` of no bytes into no room succeeds; the copy is not guarded here as it is
in `SendChannelWithCmd`. -/
def sendChannel (emptyCopy writable : Bool) (data : Bytes) : Option Bytes :=
  if hdcBufMaxBytes - dwordSerializeSize < data.length then none
  else if data.length = 0 ∧ emptyCopy = false then none
  else if writable then some (frame data)
  else none

/-! ### The receiving channel -/

/-- A channel as its reader sees it; the size of the buffer is `bufSize`. `closing` and
`freeRequested` record that `TryCloseHandle` and `FreeChannel` were called. -/
structure HChannel where
  ioBuf : Bytes
  availTailIndex : Nat
  isSuccess : Bool
  faultInfo : Bytes
  closing : Bool
  freeRequested : Bool
deriving DecidableEq, Repr

/-- A channel with what `ReadChannel` got from it. -/
structure Receiver where
  channel : HChannel
  calls : List Bytes
deriving DecidableEq, Repr

/-- What `ReadChannel` returns, and the channel's `keepAlive` at that time. -/
structure ReadOutcome where
  childRet : Int
  keepAlive : Bool
deriving DecidableEq, Repr

/-- The channel is not read any further. -/
def ReadOutcome.ends (outcome : ReadOutcome) : Bool :=
  decide (outcome.childRet < 0) && !outcome.keepAlive

/-- `FillChannelResult`. -/
def HChannel.fillChannelResult (channel : HChannel) (isSuccess : Bool) (faultInfo : Bytes) :
    HChannel :=
  { channel with isSuccess := isSuccess, faultInfo := channel.faultInfo ++ faultInfo }

/-- Where the loop of `ReadStream` leaves off. -/
structure LoopExit where
  receiver : Receiver
  indexBuf : Nat
  needExit : Bool
deriving DecidableEq, Repr

open LoopExit

section

variable (readChannel : List Bytes → Bytes → ReadOutcome)

/-- The loop of `ReadStream`. A turn that goes on consumes a frame, so as many turns as
there are bytes available are enough. -/
def readLoop : Nat → Receiver → Nat → LoopExit
  | 0, receiver, indexBuf => ⟨receiver, indexBuf, false⟩
  | turns + 1, receiver, indexBuf =>
    let avail := receiver.channel.availTailIndex
    if avail ≤ dwordSerializeSize then
      ⟨receiver, indexBuf, false⟩
    else
      let size := ofBE ((receiver.channel.ioBuf.drop indexBuf).take 4)
      if size = 0 ∨ hdcBufMaxBytes < size then
        ⟨{ receiver with
            channel := receiver.channel.fillChannelResult false
              (str "parse error: size field is too big") }, indexBuf, true⟩
      else if avail - dwordSerializeSize < size then
        ⟨receiver, indexBuf, false⟩
      else
        let data := (receiver.channel.ioBuf.drop (dwordSerializeSize + indexBuf)).take size
        let outcome := readChannel receiver.calls data
        let called := { receiver with calls := receiver.calls ++ [data] }
        if outcome.ends then
          ⟨called, indexBuf, true⟩
        else
          readLoop turns
            { called with
              channel := { receiver.channel with
                availTailIndex := avail - dwordSerializeSize - size } }
            (indexBuf + (dwordSerializeSize + size))

/-- What libuv hands to the callback. -/
inductive ReadResult where
  | nobufs
  | idle
  | failed (name : Bytes)
  | bytes (nread : Nat)
deriving DecidableEq, Repr

/-- `memmove_s` of what is left to the front of the buffer; it refuses what does not fit,
and clears the buffer then. -/
def HChannel.compact (channel : HChannel) (indexBuf : Nat) : HChannel × Bool :=
  if 0 < indexBuf ∧ 0 < channel.availTailIndex then
    if channel.ioBuf.length < channel.availTailIndex then
      ({ channel with ioBuf := List.replicate channel.ioBuf.length 0 }, false)
    else
      ({ channel with
        ioBuf := (channel.ioBuf.drop indexBuf).take channel.availTailIndex ++
          channel.ioBuf.drop channel.availTailIndex }, true)
  else
    (channel, true)

/-- What `ReadStream` does at its end. -/
def HChannel.finish (channel : HChannel) (needExit : Bool) : HChannel :=
  if needExit then { channel with freeRequested := true }
  else { channel with isSuccess := channel.faultInfo.length = 0 }

/-- `ReadStream` behind its loop. -/
def LoopExit.finish (exit : LoopExit) : Receiver :=
  let moved := exit.receiver.channel.compact exit.indexBuf
  { exit.receiver with channel := moved.1.finish (exit.needExit || !moved.2) }

/-- `ReadStream`. -/
def readStream (receiver : Receiver) : ReadResult → Receiver
  | .nobufs =>
    { receiver with
      channel := receiver.channel.fillChannelResult false (str "no buffer space available") }
  | .idle => receiver
  | .failed name =>
    let closed := { receiver.channel with closing := true }
    { receiver with channel := (closed.fillChannelResult false name).finish true }
  | .bytes nread =>
    let avail := receiver.channel.availTailIndex + nread
    (readLoop readChannel avail
      { receiver with channel := { receiver.channel with availTailIndex := avail } } 0).finish

/-- `AllocCallback`: the buffer is allocated on the first read, and the room behind the
bytes that are left is offered. `ReallocBuf` does nothing for a buffer that is there. -/
def allocCallback (channel : HChannel) (sizeWanted : Nat) : HChannel × Nat :=
  let channel :=
    if channel.ioBuf.length = 0 then
      -- A fresh allocation holds whatever was there; no byte of it is read
      -- before a read has filled it.
      { channel with ioBuf := List.replicate channelBufSize 0 }
    else
      channel
  (channel, min (channel.ioBuf.length - channel.availTailIndex) (min sizeWanted hdcBufMaxBytes))

/-- What the socket has when the event loop reads it. -/
inductive Arrival where
  | data (chunk : Bytes)
  | idle
  | failed (name : Bytes)
deriving DecidableEq, Repr

def Arrival.chunk : Arrival → Bytes
  | .data chunk => chunk
  | _ => []

/-- One turn of the event loop: the size it suggests, and what is there. -/
structure ReadEvent where
  sizeWanted : Nat
  arrival : Arrival
deriving DecidableEq, Repr

/-- A read. Without room libuv does not look at the socket and reports `UV_ENOBUFS`. -/
def readStep (receiver : Receiver) (event : ReadEvent) : Receiver :=
  let alloc := allocCallback receiver.channel event.sizeWanted
  if alloc.2 = 0 then
    readStream readChannel { receiver with channel := alloc.1 } .nobufs
  else
    match event.arrival with
    | .data chunk =>
      let filled := { alloc.1 with
        ioBuf := storeAt alloc.1.ioBuf alloc.1.availTailIndex chunk }
      readStream readChannel { receiver with channel := filled } (.bytes chunk.length)
    | .idle => readStream readChannel { receiver with channel := alloc.1 } .idle
    | .failed name => readStream readChannel { receiver with channel := alloc.1 } (.failed name)

/-- A channel before its first read. -/
def Receiver.initial : Receiver where
  channel :=
    { ioBuf := [], availTailIndex := 0, isSuccess := false, faultInfo := [], closing := false
      freeRequested := false }
  calls := []

/-- The channel after a list of reads. -/
def runReads (events : List ReadEvent) : Receiver :=
  events.foldl (readStep readChannel) Receiver.initial

/-- The bytes of a list of reads. -/
def received (events : List ReadEvent) : Bytes := events.flatMap (·.arrival.chunk)

/-- Data comes in a non-empty piece no larger than what `AllocCallback` offers, and an error
of the socket shows when it offers something. -/
def Fits (receiver : Receiver) (event : ReadEvent) : Prop :=
  let room := (allocCallback receiver.channel event.sizeWanted).2
  match event.arrival with
  | .data chunk => 0 < chunk.length ∧ chunk.length ≤ room
  | .idle => True
  | .failed _ => 0 < room

/-- Every turn of the event loop meets the room that is there. -/
def Served (receiver : Receiver) : List ReadEvent → Prop
  | [] => True
  | event :: events =>
    Fits receiver event ∧ Served (readStep readChannel receiver event) events

end

/-! ### What stands at the front of the buffer -/

/-- The size that some bytes start with. -/
def announced (bytes : Bytes) : Nat := ofBE (bytes.take 4)

/-- What `ReadStream` hands over: not nothing, and a size that fits an `int`. -/
def Legal (data : Bytes) : Prop := data ≠ [] ∧ data.length ≤ hdcBufMaxBytes

/-- The bytes do not hold a frame yet. -/
def Waiting (rest : Bytes) : Prop :=
  rest.length ≤ dwordSerializeSize ∨
    (announced rest ≠ 0 ∧ announced rest ≤ hdcBufMaxBytes ∧
      rest.length - dwordSerializeSize < announced rest)

/-- The bytes start with a size that ends the channel. -/
def Refused (rest : Bytes) : Prop :=
  dwordSerializeSize < rest.length ∧ (announced rest = 0 ∨ hdcBufMaxBytes < announced rest)

theorem length_frame (data : Bytes) : (frame data).length = 4 + data.length := by
  rw [frame, length_append, length_toBE]

theorem frame_ne_nil (data : Bytes) : frame data ≠ [] := by
  intro empty
  have long := length_frame data
  rw [empty, length_nil] at long
  omega

theorem take_frame (data rest : Bytes) : (frame data ++ rest).take 4 = toBE 4 data.length := by
  rw [frame]
  exact take_left' (length_toBE ..)

theorem drop_frame (data rest : Bytes) : (frame data ++ rest).drop 4 = data ++ rest := by
  exact drop_left' (length_toBE ..)

theorem announced_frame {data : Bytes} (short : data.length ≤ hdcBufMaxBytes) (rest : Bytes) :
    announced (frame data ++ rest) = data.length := by
  have small : data.length < 256 ^ 4 := lt_of_le_of_lt short (by decide)
  rw [announced, take_frame, ofBE_toBE, mod_eq_of_lt small]

/-- The front of the bytes tells the frame. -/
theorem frame_tells {a b x y : Bytes} (aLegal : Legal a) (bLegal : Legal b)
    (same : frame a ++ x = frame b ++ y) : a = b := by
  have size : a.length = b.length := by
    rw [← announced_frame aLegal.2 x, same, announced_frame bLegal.2]
  have data : a ++ x = b ++ y := by
    rw [← drop_frame a x, same, drop_frame]
  exact append_inj_left data size

variable {rest : Bytes}

theorem noFrame_of_waiting (waiting : Waiting rest) : Framing.NoFrame frame Legal rest := by
  rintro data legal ⟨behind, rfl⟩
  have long : (frame data ++ behind).length = 4 + data.length + behind.length := by
    rw [length_append, length_frame]
  have positive := length_pos_iff.mpr legal.1
  rw [Waiting, announced_frame legal.2] at waiting
  change _ ≤ 4 ∨ (_ ∧ _ ∧ _ - 4 < _) at waiting
  omega

theorem noFrame_of_refused (refused : Refused rest) : Framing.NoFrame frame Legal rest := by
  rintro data legal ⟨behind, rfl⟩
  have positive := length_pos_iff.mpr legal.1
  rcases refused.2 with zero | large
  · rw [announced_frame legal.2] at zero
    omega
  · rw [announced_frame legal.2] at large
    exact absurd legal.2 (not_le.mpr large)

/-- Where no frame stands, the loop waits or ends the channel. -/
theorem stops_of_noFrame (noFrame : Framing.NoFrame frame Legal rest) :
    Waiting rest ∨ Refused rest := by
  by_cases short : rest.length ≤ dwordSerializeSize
  · exact .inl (.inl short)
  by_cases wrong : announced rest = 0 ∨ hdcBufMaxBytes < announced rest
  · exact .inr ⟨not_le.mp short, wrong⟩
  obtain ⟨nonzero, small⟩ := not_or.mp wrong
  refine .inl (.inr ⟨nonzero, not_lt.mp small, ?_⟩)
  by_contra whole
  -- all the data is there, so a frame stands at the front
  let data := (rest.drop 4).take (announced rest)
  have size : data.length = announced rest := by
    rw [length_take, length_drop]
    exact min_eq_left (not_lt.mp whole)
  have head : rest.take 4 = toBE 4 data.length := by
    have four : (rest.take 4).length = 4 := by
      rw [length_take]
      exact min_eq_left (le_of_lt (not_le.mp short))
    have bytes := toBE_ofBE (rest.take 4)
    rw [four] at bytes
    rw [size, announced, bytes]
  refine noFrame data ⟨?_, ?_⟩ ⟨rest.drop (4 + announced rest), ?_⟩
  · intro empty
    rw [empty] at size
    exact nonzero size.symm
  · rw [size]
    exact not_lt.mp small
  · rw [frame, ← head, append_assoc, ← drop_drop, take_append_drop,
      take_append_drop]

/-! ### One callback -/

variable {readChannel : List Bytes → Bytes → ReadOutcome}

/-- `ReadChannel` lets all of `frames` pass, after `calls`. -/
def Passes (readChannel : List Bytes → Bytes → ReadOutcome) : List Bytes → List Bytes → Prop
  | _, [] => True
  | calls, data :: frames =>
    (readChannel calls data).ends = false ∧ Passes readChannel (calls ++ [data]) frames

theorem passes_append (calls first second : List Bytes) :
    Passes readChannel calls (first ++ second) ↔
    Passes readChannel calls first ∧ Passes readChannel (calls ++ first) second := by
  induction first generalizing calls with
  | nil => simp [Passes]
  | cons data first ih =>
    simp only [cons_append, nil_append, Passes, ih, and_assoc, append_assoc]

/-- The receiver after `ReadChannel` got `frames` and `avail` bytes are left. -/
def Receiver.took (receiver : Receiver) (frames : List Bytes) (avail : Nat) : Receiver where
  channel := { receiver.channel with availTailIndex := avail }
  calls := receiver.calls ++ frames

variable {receiver : Receiver}

/-- One turn of the loop at a frame. -/
theorem readLoop_frame {turns indexBuf : Nat} {data behind : Bytes} (legal : Legal data)
    (buffer : receiver.channel.ioBuf.drop indexBuf = frame data ++ behind)
    (avail : 4 + data.length ≤ receiver.channel.availTailIndex) :
    readLoop readChannel (turns + 1) receiver indexBuf =
      if (readChannel receiver.calls data).ends then
        ⟨{ receiver with calls := receiver.calls ++ [data] }, indexBuf, true⟩
      else
        readLoop readChannel turns
          (receiver.took [data] (receiver.channel.availTailIndex - 4 - data.length))
          (indexBuf + (4 + data.length)) := by
  have size : ofBE ((receiver.channel.ioBuf.drop indexBuf).take 4) = data.length := by
    rw [buffer]
    exact announced_frame legal.2 _
  have body : (receiver.channel.ioBuf.drop (dwordSerializeSize + indexBuf)).take data.length =
      data := by
    rw [add_comm, ← drop_drop, buffer]
    change ((frame data ++ behind).drop 4).take data.length = data
    rw [drop_frame, take_left]
  have positive := length_pos_iff.mpr legal.1
  have short := legal.2
  have four : dwordSerializeSize = 4 := rfl
  rw [readLoop, size]
  rw [if_neg (by omega), if_neg (by omega), if_neg (by omega), body]
  rfl

/-- The loop at bytes that hold no frame. -/
theorem readLoop_rest {rest junk : Bytes} {turns indexBuf : Nat} {receiver : Receiver}
    (buffer : receiver.channel.ioBuf.drop indexBuf = rest ++ junk)
    (avail : receiver.channel.availTailIndex = rest.length)
    (enough : receiver.channel.availTailIndex ≤ turns) :
    (Waiting rest → readLoop readChannel turns receiver indexBuf = ⟨receiver, indexBuf, false⟩) ∧
    (Refused rest → (readLoop readChannel turns receiver indexBuf).needExit = true) := by
  have four : dwordSerializeSize = 4 := rfl
  have size : ¬ rest.length ≤ 4 →
      ofBE ((receiver.channel.ioBuf.drop indexBuf).take 4) = announced rest := by
    intro long
    rw [buffer, take_append_of_le_length (le_of_lt (not_le.mp long)), announced]
  cases turns with
  | zero =>
    refine ⟨fun _ => rfl, fun refused => ?_⟩
    have := refused.1
    omega
  | succ turns =>
    rw [readLoop]
    rw [avail, four]
    constructor
    · intro waiting
      split
      · rfl
      next long =>
        rw [size long]
        obtain ⟨_, _, short⟩ := waiting.resolve_left long
        rw [four] at short
        rw [if_neg (by omega), if_pos short]
    · intro refused
      have long : ¬ rest.length ≤ 4 := not_le.mpr refused.1
      rw [if_neg long, size long, if_pos refused.2]

/-- Complete frames that all pass are handed over, and the loop stops at the rest. In any
other case the channel is freed. -/
theorem readLoop_stream {frames : List Bytes} {rest junk : Bytes} {turns indexBuf : Nat}
    {receiver : Receiver} (legal : ∀ data ∈ frames, Legal data)
    (stops : Waiting rest ∨ Refused rest)
    (buffer : receiver.channel.ioBuf.drop indexBuf =
    stream frame frames ++ (rest ++ junk))
    (avail : receiver.channel.availTailIndex =
    (stream frame frames).length + rest.length)
    (enough : receiver.channel.availTailIndex ≤ turns) :
    (Passes readChannel receiver.calls frames ∧ Waiting rest →
    readLoop readChannel turns receiver indexBuf =
    ⟨receiver.took frames rest.length, indexBuf + (stream frame frames).length, false⟩) ∧
    (¬ (Passes readChannel receiver.calls frames ∧ Waiting rest) →
    (readLoop readChannel turns receiver indexBuf).needExit = true) := by
  induction frames generalizing turns receiver indexBuf with
  | nil =>
    rw [stream_nil, length_nil, zero_add] at avail
    obtain ⟨waits, exits⟩ := @readLoop_rest readChannel rest junk turns indexBuf receiver
      buffer avail enough
    constructor
    · rintro ⟨-, waiting⟩
      rw [waits waiting, Receiver.took, ← avail, append_nil]
      rfl
    · intro ends
      exact exits (stops.resolve_left fun waiting => ends ⟨trivial, waiting⟩)
  | cons data frames ih =>
    rw [stream_cons, append_assoc] at buffer
    rw [stream_cons, length_append, length_frame] at avail
    have here := legal _ mem_cons_self
    obtain ⟨turns, rfl⟩ : ∃ k, turns = k + 1 := ⟨turns - 1, by omega⟩
    rw [readLoop_frame here buffer (by omega), stream_cons, length_append,
      length_frame]
    by_cases last : (readChannel receiver.calls data).ends = true
    · rw [if_pos last]
      refine ⟨fun passes => ?_, fun _ => rfl⟩
      rw [passes.1.1] at last
      cases last
    · rw [if_neg last]
      -- the rest of the loop, behind this frame
      obtain ⟨waits, exits⟩ := @ih turns (indexBuf + (4 + data.length))
        (receiver.took [data] (receiver.channel.availTailIndex - 4 - data.length))
        (fun other mem => legal other (mem_cons_of_mem _ mem))
        (by
          change receiver.channel.ioBuf.drop _ = _
          rw [← drop_drop, buffer, drop_left' (length_frame data)])
        (by change receiver.channel.availTailIndex - 4 - data.length = _; omega)
        (by change receiver.channel.availTailIndex - 4 - data.length ≤ _; omega)
      constructor
      · rintro ⟨⟨-, passes⟩, waiting⟩
        rw [waits ⟨passes, waiting⟩, add_assoc]
        simp only [Receiver.took, append_assoc, singleton_append]
      · intro ends
        refine exits fun ⟨passes, waiting⟩ => ends ⟨⟨?_, passes⟩, waiting⟩
        simpa using last

/-! ### Streams that keep the channel -/

/-- The bytes are frames that `ReadChannel` lets pass, and the part of another one. -/
def Good (readChannel : List Bytes → Bytes → ReadOutcome) (bytes : Bytes) : Prop :=
  ∃ frames rest, bytes = Framing.stream frame frames ++ rest ∧ (∀ data ∈ frames, Legal data) ∧
    Passes readChannel [] frames ∧ Waiting rest

theorem waiting_not_refused (waiting : Waiting rest) : ¬ Refused rest := by
  rintro ⟨_, _⟩
  rcases waiting with short | ⟨nonzero, small, -⟩
  · omega
  · omega

theorem Refused.append (refused : Refused rest) (more : Bytes) : Refused (rest ++ more) := by
  have long : 4 < rest.length := refused.1
  have same : announced (rest ++ more) = announced rest := by
    rw [announced, take_append_of_le_length (Nat.le_of_lt long), announced]
  refine ⟨?_, same ▸ refused.2⟩
  rw [length_append]
  exact Nat.lt_add_right _ long

/-- A split of the bytes decides whether they are good. -/
theorem good_iff {frames : List Bytes} {rest : Bytes} (legal : ∀ data ∈ frames, Legal data)
    (stops : Waiting rest ∨ Refused rest) : Good readChannel (stream frame frames ++ rest) ↔
    Passes readChannel [] frames ∧ Waiting rest := by
  constructor
  · rintro ⟨_, _, same, othersLegal, passes, waiting⟩
    obtain ⟨rfl, rfl⟩ := split_unique frame_tells legal othersLegal
      (stops.elim noFrame_of_waiting noFrame_of_refused) (noFrame_of_waiting waiting) same
    exact ⟨passes, waiting⟩
  · rintro ⟨passes, waiting⟩
    exact ⟨_, _, rfl, legal, passes, waiting⟩

theorem exists_frames (bytes : Bytes) :
    ∃ frames rest, bytes = stream frame frames ++ rest ∧ (∀ data ∈ frames, Legal data) ∧
    (Waiting rest ∨ Refused rest) := by
  obtain ⟨frames, rest, same, legal, noFrame⟩ := exists_split Legal frame_ne_nil bytes
  exact ⟨_, _, same, legal, stops_of_noFrame noFrame⟩

/-- What keeps the channel did so from the start. -/
theorem Good.front {first second : Bytes} (good : Good readChannel (first ++ second)) :
    Good readChannel first := by
  obtain ⟨frames, rest, rfl, legal, stops⟩ := exists_frames first
  obtain ⟨more, _, behind, moreLegal, moreStops⟩ := exists_frames (rest ++ second)
  rw [append_assoc, behind, ← append_assoc, ← stream_append] at good
  have allLegal : ∀ data ∈ frames ++ more, Legal data := by
    exact forall_mem_append.mpr ⟨legal, moreLegal⟩
  obtain ⟨passes, waiting⟩ := (good_iff allLegal moreStops).mp good
  refine (good_iff legal stops).mpr ⟨((passes_append _ _ _).mp passes).1, ?_⟩
  refine stops.resolve_right fun refused => ?_
  -- a size that ends the channel would still stand there
  have still := refused.append second
  have noFrames := split_unique (x := rest ++ second) frame_tells
    (fun data mem => absurd mem not_mem_nil) moreLegal (noFrame_of_refused still)
    (noFrame_of_waiting waiting) behind
  exact waiting_not_refused waiting (noFrames.2 ▸ still)

/-! ### Runs -/

/-- The bytes at the front of the buffer. -/
def Receiver.held (receiver : Receiver) : Bytes :=
  receiver.channel.ioBuf.take receiver.channel.availTailIndex

/-- Where a channel stands that has got `bytes` and was not freed. -/
structure Stands (readChannel : List Bytes → Bytes → ReadOutcome) (bytes : Bytes)
    (receiver : Receiver) : Prop where
  unfreed : receiver.channel.freeRequested = false
  split : bytes = Framing.stream frame receiver.calls ++ receiver.held
  legal : ∀ data ∈ receiver.calls, Legal data
  passes : Passes readChannel [] receiver.calls
  waiting : Waiting receiver.held
  inside : receiver.channel.availTailIndex ≤ receiver.channel.ioBuf.length
  sized : receiver.channel.ioBuf = [] ∨ receiver.channel.ioBuf.length = channelBufSize

theorem Stands.initial : Stands readChannel [] Receiver.initial where
  unfreed := rfl
  split := rfl
  legal := by simp [Receiver.initial]
  passes := trivial
  waiting := .inl (zero_le _)
  inside := le_refl _
  sized := .inl rfl

variable {bytes : Bytes}

theorem Stands.good (stands : Stands readChannel bytes receiver) : Good readChannel bytes :=
  ⟨_, _, stands.split, stands.legal, stands.passes, stands.waiting⟩

theorem Stands.length_held (stands : Stands readChannel bytes receiver) :
    receiver.held.length = receiver.channel.availTailIndex := by
  rw [Receiver.held, length_take, min_eq_left stands.inside]

/-- The room is what lies behind the bytes that are left. -/
theorem allocCallback_room (channel : HChannel) (sizeWanted : Nat) :
    (allocCallback channel sizeWanted).2 =
    min ((allocCallback channel sizeWanted).1.ioBuf.length -
    (allocCallback channel sizeWanted).1.availTailIndex) (min sizeWanted hdcBufMaxBytes) := rfl

/-- Allocation keeps what is there, and makes the buffer as large as it gets. -/
theorem Stands.alloc (stands : Stands readChannel bytes receiver) (sizeWanted : Nat) :
    Stands readChannel bytes
        { receiver with channel := (allocCallback receiver.channel sizeWanted).1 } ∧
      (allocCallback receiver.channel sizeWanted).1.ioBuf.length = channelBufSize ∧
      (allocCallback receiver.channel sizeWanted).1.availTailIndex =
        receiver.channel.availTailIndex := by
  rcases stands.sized with empty | full
  · have none : receiver.channel.availTailIndex = 0 := by
      have := stands.inside
      rw [empty] at this
      exact le_zero.mp this
    have fresh : (allocCallback receiver.channel sizeWanted).1 =
        { receiver.channel with ioBuf := List.replicate channelBufSize 0 } := by
      rw [allocCallback, empty]
      rfl
    have noBytes : receiver.held = [] := by rw [Receiver.held, none, take_zero]
    have stillNone : ({ receiver with channel :=
        { receiver.channel with ioBuf := List.replicate channelBufSize 0 } } : Receiver).held = [] := by
      change List.take receiver.channel.availTailIndex _ = []
      rw [none, take_zero]
    rw [fresh]
    refine ⟨⟨stands.unfreed, ?_, stands.legal, stands.passes, ?_, ?_, .inr length_replicate⟩,
      length_replicate, rfl⟩
    · rw [stillNone, ← noBytes]
      exact stands.split
    · rw [stillNone]
      exact .inl (zero_le _)
    · change receiver.channel.availTailIndex ≤ _
      rw [none]
      exact zero_le _
  · have same : (allocCallback receiver.channel sizeWanted).1 = receiver.channel := by
      rw [allocCallback, full]
      rfl
    rw [same]
    exact ⟨stands, full, rfl⟩

/-- Moving what is left to the front keeps it. -/
theorem HChannel.compact_spec {channel : HChannel} {indexBuf : Nat} {rest junk : Bytes}
    (buffer : channel.ioBuf.drop indexBuf = rest ++ junk)
    (avail : channel.availTailIndex = rest.length) :
    ∃ ioBuf, channel.compact indexBuf = ({ channel with ioBuf := ioBuf }, true) ∧
      ioBuf.take rest.length = rest ∧ ioBuf.length = channel.ioBuf.length := by
  have long : rest.length ≤ channel.ioBuf.length := by
    have length := congrArg List.length buffer
    rw [length_drop, length_append] at length
    omega
  have front : (channel.ioBuf.drop indexBuf).take rest.length = rest := by
    rw [buffer, take_left]
  rw [HChannel.compact]
  split
  case isTrue moves =>
    refine ⟨_, if_neg (by omega), ?_, ?_⟩
    · rw [avail, front, take_left]
    · rw [avail, front, length_append, length_drop]
      omega
  case isFalse stays =>
    refine ⟨_, rfl, ?_, rfl⟩
    rcases Nat.eq_zero_or_pos indexBuf with rfl | moved
    · rwa [drop_zero] at front
    · have none : rest.length = 0 := by omega
      rw [none, take_zero, length_eq_zero_iff.mp none]

theorem LoopExit.finish_exit {exit : LoopExit} (needExit : exit.needExit = true) :
    exit.finish.channel.freeRequested = true := by
  rw [finish, needExit]
  rfl

/-- A loop that stops to wait leaves what it waits with at the front. -/
theorem LoopExit.finish_waits {receiver : Receiver} {indexBuf : Nat} {rest junk : Bytes}
    (buffer : receiver.channel.ioBuf.drop indexBuf = rest ++ junk)
    (avail : receiver.channel.availTailIndex = rest.length) :
    let after := finish ⟨receiver, indexBuf, false⟩
    after.held = rest ∧ after.calls = receiver.calls ∧
      after.channel.ioBuf.length = receiver.channel.ioBuf.length ∧
      after.channel.availTailIndex = rest.length ∧
      after.channel.freeRequested = receiver.channel.freeRequested := by
  intro after
  obtain ⟨ioBuf, moved, front, length⟩ := HChannel.compact_spec buffer avail
  have reached : after = { receiver with
      channel := ({ receiver.channel with ioBuf := ioBuf } : HChannel).finish false } := by
    simp only [after, finish, moved]
    rfl
  rw [reached]
  refine ⟨?_, rfl, length, avail, rfl⟩
  change ioBuf.take receiver.channel.availTailIndex = rest
  rw [avail, front]

/-- A chunk that fits is taken up to the frames that are complete now, or the channel is
freed, as the bytes say. -/
theorem Stands.readStream (stands : Stands readChannel bytes receiver)
    (full : receiver.channel.ioBuf.length = channelBufSize) {chunk : Bytes}
    (room : receiver.channel.availTailIndex + chunk.length ≤ channelBufSize) :
    let filled := { receiver with
      channel := { receiver.channel with
        ioBuf := storeAt receiver.channel.ioBuf receiver.channel.availTailIndex chunk } }
    let after := readStream readChannel filled (.bytes chunk.length)
    (Good readChannel (bytes ++ chunk) → Stands readChannel (bytes ++ chunk) after ∧
        after.channel.ioBuf.length = channelBufSize) ∧
      (¬ Good readChannel (bytes ++ chunk) → after.channel.freeRequested = true) := by
  intro filled after
  obtain ⟨frames, rest, split, legal, stops⟩ := exists_frames (receiver.held ++ chunk)
  have length := congrArg List.length split
  rw [length_append, length_append, stands.length_held] at length
  -- the buffer holds what was left, the chunk and whatever is behind them
  have buffer : filled.channel.ioBuf.drop 0 = stream frame frames ++
      (rest ++ receiver.channel.ioBuf.drop (receiver.channel.availTailIndex + chunk.length)) := by
    rw [← append_assoc, ← split]
    rfl
  have size : filled.channel.ioBuf.length = channelBufSize := by
    rw [← full]
    exact Session.length_storeAt (full ▸ room)
  have allLegal : ∀ data ∈ receiver.calls ++ frames, Legal data := by
    exact forall_mem_append.mpr ⟨stands.legal, legal⟩
  have all : bytes ++ chunk = stream frame (receiver.calls ++ frames) ++ rest := by
    rw [stream_append, append_assoc, ← split, ← append_assoc, ← stands.split]
  obtain ⟨waits, exits⟩ := @readLoop_stream readChannel frames rest _
    (receiver.channel.availTailIndex + chunk.length) 0
    { filled with
      channel := { filled.channel with
        availTailIndex := receiver.channel.availTailIndex + chunk.length } }
    legal stops buffer length (le_refl _)
  have good : Good readChannel (bytes ++ chunk) ↔
      Passes readChannel receiver.calls frames ∧ Waiting rest := by
    rw [all, good_iff allLegal stops, passes_append, nil_append,
      and_iff_right stands.passes]
  rw [good]
  constructor
  · intro fine
    rw [drop_zero] at buffer
    obtain ⟨held, calls, sameLength, avail, freed⟩ := @finish_waits
      (filled.took frames rest.length) (stream frame frames).length rest _
      (by
        change filled.channel.ioBuf.drop _ = _
        rw [buffer, drop_left]) rfl
    have exit := waits fine
    rw [zero_add] at exit
    have reached : after = finish
        ⟨filled.took frames rest.length, (stream frame frames).length, false⟩ :=
      congrArg finish exit
    rw [← reached] at held calls sameLength avail freed
    have whole : after.channel.ioBuf.length = channelBufSize := sameLength.trans size
    have callsAll : after.calls = receiver.calls ++ frames := calls
    refine ⟨⟨freed.trans stands.unfreed, ?_, ?_, ?_, ?_, ?_, .inr whole⟩, whole⟩
    · rw [held, callsAll, all]
    · rw [callsAll]
      exact allLegal
    · rw [callsAll, passes_append]
      exact ⟨stands.passes, fine.1⟩
    · rw [held]
      exact fine.2
    · rw [avail]
      omega
  · intro wrong
    exact finish_exit (exits wrong)

theorem readLoop_freeRequested (turns : Nat) (receiver : Receiver) (indexBuf : Nat) :
    (readLoop readChannel turns receiver indexBuf).receiver.channel.freeRequested =
    receiver.channel.freeRequested := by
  induction turns generalizing receiver indexBuf with
  | zero => rfl
  | succ turns ih =>
    rw [readLoop]
    dsimp only
    split
    · rfl
    split
    · rfl
    split
    · rfl
    split
    · rfl
    · exact ih _ _

theorem LoopExit.finish_freed {exit : LoopExit}
    (freed : exit.receiver.channel.freeRequested = true) :
    exit.finish.channel.freeRequested = true := by
  have moved : (exit.receiver.channel.compact exit.indexBuf).1.freeRequested = true := by
    rw [HChannel.compact]
    split
    · split
      · exact freed
      · exact freed
    · exact freed
  change (HChannel.finish _ _).freeRequested = true
  rw [HChannel.finish]
  split
  · rfl
  · exact moved

/-- A channel that was freed stays so. -/
theorem readStep_freed (freed : receiver.channel.freeRequested = true) (event : ReadEvent) :
    (readStep readChannel receiver event).channel.freeRequested = true := by
  have allocated : (allocCallback receiver.channel event.sizeWanted).1.freeRequested = true := by
    rw [allocCallback]
    split
    · exact freed
    · exact freed
  rw [Channel.readStep]
  split
  · exact allocated
  · split
    · refine finish_freed ?_
      rw [readLoop_freeRequested]
      exact allocated
    · exact allocated
    · rfl

/-- One turn of the event loop. -/
theorem Stands.readStep (stands : Stands readChannel bytes receiver) {event : ReadEvent}
    (fits : Fits receiver event) :
    let after := Channel.readStep readChannel receiver event
    let fine := Good readChannel (bytes ++ event.arrival.chunk) ∧
      ∀ name, event.arrival ≠ .failed name
    (fine → Stands readChannel (bytes ++ event.arrival.chunk) after ∧
        after.channel.ioBuf.length = channelBufSize) ∧
      (¬ fine → after.channel.freeRequested = true) := by
  obtain ⟨allocated, full, _⟩ := stands.alloc event.sizeWanted
  have room := allocCallback_room receiver.channel event.sizeWanted
  rw [Fits] at fits
  rw [Channel.readStep]
  cases arrival : event.arrival with
  | data chunk =>
    rw [arrival] at fits
    rw [if_neg (by omega)]
    have inside : (allocCallback receiver.channel event.sizeWanted).1.availTailIndex +
        chunk.length ≤ channelBufSize := by
      omega
    have step := allocated.readStream full inside
    refine ⟨fun fine => step.1 fine.1, fun wrong => step.2 fun good => wrong ⟨good, ?_⟩⟩
    exact nofun
  | idle =>
    have nothing : bytes ++ Arrival.idle.chunk = bytes := append_nil _
    rw [nothing]
    refine ⟨fun _ => ?_, fun wrong => absurd ⟨stands.good, fun _ => nofun⟩ wrong⟩
    -- without room the callback is told so, and nothing that matters changes
    split
    · exact ⟨{ allocated with }, full⟩
    · exact ⟨allocated, full⟩
  | failed name =>
    rw [arrival] at fits
    rw [if_neg (ne_of_gt fits)]
    refine ⟨fun fine => absurd rfl (fine.2 name), fun _ => rfl⟩

theorem foldl_readStep_freed {receiver : Receiver} (freed : receiver.channel.freeRequested = true)
    (events : List ReadEvent) :
    (events.foldl (readStep readChannel) receiver).channel.freeRequested = true := by
  induction events generalizing receiver with
  | nil => exact freed
  | cons event events ih => exact ih (readStep_freed freed _)

/-- No error of the socket is among the events. -/
def Unbroken (events : List ReadEvent) : Prop :=
  ∀ event ∈ events, ∀ name, event.arrival ≠ .failed name

/-- The channel is freed exactly if an error was read or the bytes are not good, and until
then it has what the bytes say. -/
theorem Stands.run (stands : Stands readChannel bytes receiver) {events : List ReadEvent}
    (served : Served readChannel receiver events) :
    let after := events.foldl (Channel.readStep readChannel) receiver
    (after.channel.freeRequested = false →
      Stands readChannel (bytes ++ received events) after ∧ Unbroken events ∧
        (events ≠ [] → after.channel.ioBuf.length = channelBufSize)) ∧
    (Good readChannel (bytes ++ received events) → Unbroken events →
      after.channel.freeRequested = false) := by
  induction events generalizing bytes receiver with
  | nil =>
    rw [received, flatMap_nil, append_nil]
    exact ⟨fun _ => ⟨stands, by simp [Unbroken], fun none => absurd rfl none⟩,
      fun _ _ => stands.unfreed⟩
  | cons event events ih =>
    obtain ⟨keeps, frees⟩ := stands.readStep served.1
    have bytesAll : bytes ++ received (event :: events) =
        bytes ++ event.arrival.chunk ++ received events := by
      rw [append_assoc]
      rfl
    rw [bytesAll, foldl_cons]
    by_cases fine : Good readChannel (bytes ++ event.arrival.chunk) ∧
        ∀ name, event.arrival ≠ .failed name
    · obtain ⟨next, sized⟩ := keeps fine
      obtain ⟨stays, unfreed⟩ := ih next served.2
      constructor
      · intro kept
        obtain ⟨reached, unbroken, laterSized⟩ := stays kept
        refine ⟨reached, forall_mem_cons.mpr ⟨fine.2, unbroken⟩, fun _ => ?_⟩
        cases events with
        | nil => exact sized
        | cons second events => exact laterSized (cons_ne_nil _ _)
      · intro good unbroken
        exact unfreed good fun other mem => unbroken other (mem_cons_of_mem _ mem)
    · have freed := @foldl_readStep_freed readChannel _ (frees fine) events
      constructor
      · intro kept
        rw [freed] at kept
        cases kept
      · intro good unbroken
        exact absurd ⟨good.front, unbroken _ mem_cons_self⟩ fine

end Hdc.Channel
