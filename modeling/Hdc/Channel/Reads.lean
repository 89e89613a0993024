import Hdc.Channel.Stream

/-!
What a channel does over a whole run of reads.

* `calls_exact_iff`: what was sent arrives in order and once, unless a piece of it is
  empty: `SendChannel` frames an empty piece, and `ReadStream` takes a size of zero for an
  error or, at the end of what it has, for the beginning of something;
* `never_full_iff`: the buffer is never full after a callback, unless a frame announces more
  than the buffer takes. Such a frame is waited for until there is no room left.
-/

namespace Hdc.Channel

open List Receiver Framing Nat


variable {readChannel : List Bytes → Bytes → ReadOutcome}

/-! ### Reads that are served -/

variable {events : List ReadEvent}

/-- Reads of bytes that fit the buffer all together are served, however they are cut. -/
theorem Stands.served {bytes : Bytes} {receiver : Receiver}
    (stands : Stands readChannel bytes receiver)
    (asked : ∀ event ∈ events, ∃ chunk, event.arrival = .data chunk ∧ 0 < chunk.length ∧
    chunk.length ≤ min event.sizeWanted hdcBufMaxBytes)
    (small : (bytes ++ received events).length ≤ channelBufSize)
    (good : Good readChannel (bytes ++ received events)) : Served readChannel receiver events := by
  induction events generalizing bytes receiver with
  | nil => trivial
  | cons event events ih =>
    have bytesAll : bytes ++ received (event :: events) =
        bytes ++ event.arrival.chunk ++ received events := by
      rw [append_assoc]
      rfl
    rw [bytesAll] at small good
    obtain ⟨chunk, arrival, some, _⟩ := asked event mem_cons_self
    obtain ⟨-, _, _⟩ := stands.alloc event.sizeWanted
    have fits : Fits receiver event := by
      have held := congrArg List.length stands.split
      rw [length_append, stands.length_held] at held
      rw [arrival, Arrival.chunk, length_append, length_append] at small
      rw [Fits, arrival]
      rw [allocCallback_room]
      omega
    have next := ((stands.readStep fits).1 ⟨good.front, fun name => by simp [arrival]⟩).1
    exact ⟨fits, ih next (fun other mem => asked other (mem_cons_of_mem _ mem)) small good⟩

theorem Served.take {receiver : Receiver} (served : Served readChannel receiver events) (k : Nat) :
    Served readChannel receiver (events.take k) := by
  induction events generalizing receiver k with
  | nil => simpa using served
  | cons event events ih =>
    cases k with
    | zero => trivial
    | succ k => exact ⟨served.1, ih served.2 k⟩

/-- A run from the start: what the bytes say holds until the channel is freed. -/
theorem runReads_stands (served : Served readChannel initial events) :
    ((runReads readChannel events).channel.freeRequested = false →
    Stands readChannel (received events) (runReads readChannel events) ∧ Unbroken events ∧
    (events ≠ [] → (runReads readChannel events).channel.ioBuf.length = channelBufSize)) ∧
    (Good readChannel (received events) → Unbroken events →
    (runReads readChannel events).channel.freeRequested = false) :=
  Stands.initial.run served

/-! ### Delivery -/

theorem sendChannel_of_fits (emptyCopy : Bool) {data : Bytes} (full : data ≠ [])
    (fits : data.length ≤ channelBufSize - dwordSerializeSize) :
    sendChannel emptyCopy true data = some (frame data) := by
  have small : ¬ hdcBufMaxBytes - dwordSerializeSize < data.length :=
    not_lt.mpr (fits.trans (by decide))
  have positive : ¬ (data.length = 0 ∧ emptyCopy = false) :=
    fun empty => full (length_eq_zero_iff.mp empty.1)
  rw [sendChannel, if_neg small, if_neg positive, if_pos rfl]

/-- What goes over the wire for pieces that fit and are not empty. -/
theorem sent_eq_stream (emptyCopy : Bool) {messages : List Bytes} (full : [] ∉ messages)
    (fits : ∀ data ∈ messages, data.length ≤ channelBufSize - dwordSerializeSize) :
    (messages.filterMap (sendChannel emptyCopy true)).flatten = stream frame messages := by
  induction messages with
  | nil => rfl
  | cons data messages ih =>
    obtain ⟨here, later⟩ := not_or.mp (fun either => full (mem_cons.mpr either))
    rw [filterMap_cons_some (sendChannel_of_fits emptyCopy (Ne.symm here)
      (fits data mem_cons_self)), flatten_cons, stream_cons,
      ih later fun other mem => fits other (mem_cons_of_mem _ mem)]

/-- A `ReadChannel` that does not fail lets everything pass. -/
theorem passes_of_nonneg (answers : ∀ calls data, 0 ≤ (readChannel calls data).childRet)
    (calls frames : List Bytes) : Passes readChannel calls frames := by
  induction frames generalizing calls with
  | nil => trivial
  | cons data frames ih =>
    refine ⟨?_, ih _⟩
    rw [ReadOutcome.ends, decide_eq_false (Int.not_lt.mpr (answers calls data)), Bool.false_and]

/-- What was sent is handed to `ReadChannel`, in order and once, and the channel is kept,
exactly if nothing that was sent is empty. -/
theorem calls_exact_iff (answers : ∀ calls data, 0 ≤ (readChannel calls data).childRet)
    (emptyCopy : Bool) {messages : List Bytes}
    (fits : ∀ data ∈ messages, data.length ≤ channelBufSize - dwordSerializeSize)
    {reads : List ReadEvent}
    (cut : received reads = (messages.filterMap (sendChannel emptyCopy true)).flatten)
    (served : Served readChannel initial reads) (unbroken : Unbroken reads) :
    ((runReads readChannel reads).calls = messages ∧
        (runReads readChannel reads).channel.freeRequested = false) ↔ [] ∉ messages := by
  obtain ⟨stays, unfreed⟩ := runReads_stands served
  constructor
  · rintro ⟨same, kept⟩ empty
    exact ((stays kept).1.legal [] (same ▸ empty)).1 rfl
  · intro full
    rw [sent_eq_stream emptyCopy full fits] at cut
    have legal : ∀ data ∈ messages, Legal data := by
      intro data mem
      refine ⟨fun empty => full (empty ▸ mem), (fits _ mem).trans (by decide)⟩
    have good : Good readChannel (received reads) :=
      ⟨messages, [], by rw [cut, append_nil], legal, passes_of_nonneg answers _ _,
        .inl (zero_le _)⟩
    have kept := unfreed good unbroken
    have stands := (stays kept).1
    have split := stands.split
    rw [cut, ← append_nil (stream frame messages)] at split
    have same := split_unique frame_tells legal stands.legal
      (noFrame_of_waiting (.inl (zero_le _))) (noFrame_of_waiting stands.waiting) split
    exact ⟨same.1.symm, kept⟩

/-- A `ReadChannel` that is content with everything. -/
def content : List Bytes → Bytes → ReadOutcome := fun _ _ => ⟨0, true⟩

theorem passes_content (calls frames : List Bytes) : Passes content calls frames :=
  passes_of_nonneg (fun _ _ => Int.le_refl 0) _ _

/-- A frame in two reads, cut inside its size. -/
def twoReads : List ReadEvent := [⟨65536, .data [0, 0]⟩, ⟨65536, .data [0, 2, 7, 8]⟩]

theorem good_twoReads : Good content (received twoReads) :=
  ⟨[[7, 8]], [], by decide, by simp [Legal, hdcBufMaxBytes], passes_content _ _,
    .inl (zero_le _)⟩

theorem served_twoReads : Served content initial twoReads := by
  refine Stands.initial.served ?_ (by decide) good_twoReads
  intro event mem
  simp only [twoReads, mem_cons, not_mem_nil, or_false] at mem
  rcases mem with rfl | rfl
  · exact ⟨_, rfl, by decide, by decide⟩
  · exact ⟨_, rfl, by decide, by decide⟩

theorem unbroken_twoReads : Unbroken twoReads := by
  intro event mem name
  simp only [twoReads, mem_cons, not_mem_nil, or_false] at mem
  rcases mem with rfl | rfl
  · exact nofun
  · exact nofun

theorem calls_exact_two_reads :
    (runReads content twoReads).calls = [[7, 8]] ∧
      (runReads content twoReads).channel.freeRequested = false :=
  (calls_exact_iff (fun _ _ => Int.le_refl 0) false (by decide) (by decide) served_twoReads
    unbroken_twoReads).mpr (by decide)

/-- One read of everything. -/
def oneRead (bytes : Bytes) : List ReadEvent := [⟨65536, .data bytes⟩]

theorem served_oneRead {bytes : Bytes} (some : 0 < bytes.length)
    (small : bytes.length ≤ 65536) : Served readChannel initial (oneRead bytes) := by
  obtain ⟨-, full, _⟩ := (@Stands.initial readChannel).alloc 65536
  refine ⟨?_, trivial⟩
  change 0 < bytes.length ∧ bytes.length ≤ _
  rw [allocCallback_room, full]
  exact ⟨some, small.trans (show 65536 ≤ min (channelBufSize - 0) (min 65536 hdcBufMaxBytes) by
    decide)⟩

/-- An empty piece that is framed ends the channel as soon as something follows it. One
that is not framed, because its copy fails, does not arrive either. -/
theorem empty_piece_not_delivered :
    (Served content initial (oneRead (frame [] ++ frame [1])) ∧
        received (oneRead (frame [] ++ frame [1])) =
          ([[], [1]].filterMap (sendChannel true true)).flatten ∧
        (runReads content (oneRead (frame [] ++ frame [1]))).channel.freeRequested = true) ∧
      (Served content initial (oneRead (frame [1])) ∧
        received (oneRead (frame [1])) =
          ([[], [1]].filterMap (sendChannel false true)).flatten ∧
        (runReads content (oneRead (frame [1]))).calls ≠ [[], [1]]) := by
  constructor
  · have served := @served_oneRead content (frame [] ++ frame [1]) (by decide) (by decide)
    refine ⟨served, by decide, ?_⟩
    by_contra kept
    have stands := ((runReads_stands served).1 (by simpa using kept)).1
    have refused : Refused (frame [] ++ frame [1]) := ⟨by decide, .inl (by decide)⟩
    have good := stands.good
    have waiting := ((@good_iff content [] _ (by simp) (.inr refused)).mp good).2
    exact waiting_not_refused waiting refused
  · have served := @served_oneRead content (frame [1]) (by decide) (by decide)
    refine ⟨served, by decide, fun calls => ?_⟩
    have good : Good content (received (oneRead (frame [1]))) :=
      ⟨[[1]], [], by decide, by simp [Legal, hdcBufMaxBytes], passes_content _ _,
        .inl (zero_le _)⟩
    have unbroken : Unbroken (oneRead (frame [1])) := by
      intro event mem name
      obtain rfl := mem_singleton.mp mem
      exact nofun
    have kept := (runReads_stands served).2 good unbroken
    have legal := ((runReads_stands served).1 kept).1.legal
    rw [calls] at legal
    exact (legal [] mem_cons_self).1 rfl

/-! ### Room in the buffer -/

/-- The bytes end with a bufferful of a frame that announces more than the buffer takes. -/
def Overfull (readChannel : List Bytes → Bytes → ReadOutcome) (bytes : Bytes) : Prop :=
  ∃ frames rest, bytes = stream frame frames ++ rest ∧ (∀ data ∈ frames, Legal data) ∧
    Passes readChannel [] frames ∧ rest.length = channelBufSize ∧
    channelBufSize - dwordSerializeSize < announced rest ∧ announced rest ≤ hdcBufMaxBytes

/-- After every callback that keeps the channel there is room in the buffer, so that the
next `AllocCallback` offers some, exactly if no error was read before a frame larger than
the buffer filled it. -/
theorem never_full_iff {reads : List ReadEvent}
    (served : Served readChannel initial reads) :
    (∀ k, k < reads.length →
      let after := runReads readChannel (reads.take (k + 1))
      after.channel.freeRequested = false →
        after.channel.availTailIndex < after.channel.ioBuf.length ∧
          ∀ sizeWanted, 0 < sizeWanted → 0 < (allocCallback after.channel sizeWanted).2) ↔
      ∀ k, k < reads.length → Unbroken (reads.take (k + 1)) →
        ¬ Overfull readChannel (received (reads.take (k + 1))) := by
  have four : dwordSerializeSize = 4 := rfl
  have large : 4 < channelBufSize := by decide
  have some : ∀ k, k < reads.length → reads.take (k + 1) ≠ [] := by
    intro k inside none
    have short := congrArg List.length none
    rw [length_take, length_nil] at short
    omega
  constructor
  · rintro room k inside unbroken ⟨frames, rest, split, legal, passes, size, more, small⟩
    obtain ⟨stays, unfreed⟩ := runReads_stands (served.take (k + 1))
    have waiting : Waiting rest := .inr ⟨by omega, small, by omega⟩
    have kept := unfreed ⟨_, rest, split, legal, passes, waiting⟩ unbroken
    obtain ⟨stands, -, sized⟩ := stays kept
    -- the bytes are split in one way only, so the buffer holds all of `rest`
    have same := split_unique frame_tells legal stands.legal (noFrame_of_waiting waiting)
      (noFrame_of_waiting stands.waiting) (split.symm.trans stands.split)
    have avail := stands.length_held
    rw [← same.2, size] at avail
    have left := (room k inside kept).1
    rw [sized (some k inside), ← avail] at left
    exact lt_irrefl _ left
  · intro fine k inside after kept
    obtain ⟨stands, unbroken, sized⟩ := (runReads_stands (served.take (k + 1))).1 kept
    have whole : after.channel.ioBuf.length = channelBufSize := sized (some k inside)
    have room : after.channel.availTailIndex < after.channel.ioBuf.length := by
      refine lt_of_le_of_ne stands.inside fun full => ?_
      have length := stands.length_held
      change after.held.length = _ at length
      rw [full, whole] at length
      obtain short | ⟨nonzero, small, more⟩ := stands.waiting
      · change after.held.length ≤ _ at short
        omega
      · refine fine k inside unbroken
          ⟨after.calls, after.held, stands.split, stands.legal, stands.passes, length, ?_, small⟩
        rwa [length] at more
    refine ⟨room, fun sizeWanted positive => ?_⟩
    obtain ⟨-, full, sameAvail⟩ := stands.alloc sizeWanted
    rw [allocCallback_room, full, sameAvail]
    have int : 0 < hdcBufMaxBytes := by decide
    change 0 < min (channelBufSize - after.channel.availTailIndex) _
    omega

theorem room_after_two_reads :
    (runReads content twoReads).channel.availTailIndex <
      (runReads content twoReads).channel.ioBuf.length := by
  have kept := (runReads_stands served_twoReads).2 good_twoReads unbroken_twoReads
  have all : twoReads.take (1 + 1) = twoReads := rfl
  have room := (never_full_iff served_twoReads).mpr ?_ 1 (by decide)
  · rw [all] at room
    exact (room kept).1
  rintro k - - ⟨frames, rest, split, -, -, size, -⟩
  have length := congrArg List.length split
  rw [length_append] at length
  have few : (received (twoReads.take (k + 1))).length ≤ 6 := by
    cases k with
    | zero => decide
    | succ k =>
      rw [take_of_length_le (show twoReads.length ≤ k + 1 + 1 from le_add_left 2 k)]
      decide
  have large : 6 < channelBufSize := by decide
  omega

/-- A bufferful of a frame that is larger than the buffer. -/
theorem buffer_filled {reads : List ReadEvent} (some : reads ≠ [])
    (asked : ∀ event ∈ reads, ∃ chunk, event.arrival = .data chunk ∧ 0 < chunk.length ∧
    chunk.length ≤ min event.sizeWanted hdcBufMaxBytes)
    (length : (received reads).length = channelBufSize)
    (more : channelBufSize - dwordSerializeSize < announced (received reads))
    (small : announced (received reads) ≤ hdcBufMaxBytes) (sizeWanted : Nat) :
    Served readChannel initial reads ∧
    (runReads readChannel reads).channel.freeRequested = false ∧
    (runReads readChannel reads).channel.availTailIndex = channelBufSize ∧
    (runReads readChannel reads).channel.ioBuf.length = channelBufSize ∧
    (allocCallback (runReads readChannel reads).channel sizeWanted).2 = 0 := by
  have waiting : Waiting (received reads) := by
    refine .inr ⟨?_, small, ?_⟩
    · omega
    · rwa [length]
  have split : received reads = stream frame [] ++ received reads := by
    rw [stream_nil, nil_append]
  have good : Good readChannel (received reads) := ⟨[], _, split, by simp, trivial, waiting⟩
  have served := Stands.initial.served asked (Nat.le_of_eq length) good
  have unbroken : Unbroken reads := by
    intro event mem name broken
    obtain ⟨chunk, arrival, -⟩ := asked event mem
    rw [arrival] at broken
    cases broken
  have kept := (runReads_stands served).2 good unbroken
  obtain ⟨stands, -, sized⟩ := (runReads_stands served).1 kept
  -- nothing was handed over, all of it is still there
  have same := split_unique frame_tells (by simp) stands.legal
    (noFrame_of_waiting waiting) (noFrame_of_waiting stands.waiting)
    (split.symm.trans stands.split)
  have avail := stands.length_held
  rw [← same.2, length] at avail
  obtain ⟨-, full, sameAvail⟩ := stands.alloc sizeWanted
  refine ⟨served, kept, avail.symm, sized some, ?_⟩
  rw [allocCallback_room, full, sameAvail, ← avail, Nat.sub_self, Nat.zero_min]

/-- Some data of no interest. -/
@[irreducible]
def padding (size : Nat) : Bytes := List.replicate size 0

theorem length_padding (size : Nat) : (padding size).length = size := by
  rw [padding, length_replicate]

/-- A client announces three million bytes and sends two of them, sixty-four kilobytes at a
time. -/
def largeFrameReads : List ReadEvent :=
  ⟨65536, .data (Endian.toBE 4 3000000 ++ padding 61436)⟩ ::
    List.replicate 31 ⟨65536, .data (padding 65536)⟩

theorem length_received_replicate (count : Nat) (event : ReadEvent) :
    (received (List.replicate count event)).length = count * event.arrival.chunk.length := by
  induction count with
  | zero => rw [zero_mul]; rfl
  | succ count ih =>
    rw [replicate_succ, received, flatMap_cons, length_append, ← received, ih,
      succ_mul, add_comm]

theorem largeFrame_waits : (received largeFrameReads).length = channelBufSize ∧
    announced (received largeFrameReads) = 3000000 := by
  have bytes : received largeFrameReads = Endian.toBE 4 3000000 ++ (padding 61436 ++
      received (List.replicate 31 ⟨65536, .data (padding 65536)⟩)) := by
    exact append_assoc ..
  constructor
  · have chunk : (Arrival.data (padding 65536)).chunk.length = 65536 := length_padding 65536
    rw [bytes, length_append, length_append, Endian.length_toBE, length_padding,
      length_received_replicate, chunk]
    decide
  · rw [bytes]
    decide

theorem largeFrame_asked : ∀ event ∈ largeFrameReads, ∃ chunk, event.arrival = .data chunk ∧
    0 < chunk.length ∧ chunk.length ≤ min event.sizeWanted hdcBufMaxBytes := by
  intro event mem
  rcases mem_cons.mp mem with rfl | mem
  · refine ⟨_, rfl, ?_⟩
    rw [length_append, length_padding]
    decide
  · obtain rfl := eq_of_mem_replicate mem
    refine ⟨_, rfl, ?_⟩
    rw [length_padding]
    decide

/-- The buffer is full, the channel is not freed, and there is no room for another read. -/
theorem large_frame_fills_buffer :
    Served content initial largeFrameReads ∧
      (runReads content largeFrameReads).channel.freeRequested = false ∧
      (runReads content largeFrameReads).channel.availTailIndex = channelBufSize ∧
      (runReads content largeFrameReads).channel.ioBuf.length = channelBufSize ∧
      (allocCallback (runReads content largeFrameReads).channel 65536).2 = 0 := by
  obtain ⟨length, size⟩ := largeFrame_waits
  exact buffer_filled (by rw [largeFrameReads]; exact cons_ne_nil _ _) largeFrame_asked length
    (by rw [size]; decide) (by rw [size]; decide) 65536

end Hdc.Channel
