import Hdc.Session.Stream

/-!
The encrypted session stream (`hdc_ssl.cpp` and `FetchIOBuf` with `isEncrypt`).

A read brings ciphertext into the room behind the plaintext in `ioBuf`. `Decrypt` moves it to the
input BIO and calls `SSL_read` into the same room until the BIO is empty or a record is not
complete. Then the plain `FetchIOBuf` takes the frames off the front, unless the last record was not
complete and there are at most 16 K of plaintext: then it waits for the next read.

The TLS layer is abstract: it opens a record when all of its ciphertext is in the BIO.

The loop of `Decrypt` asks for the ciphertext that is pending. When the buffer is full `SSL_read`
releases nothing and the loop goes on forever, unless the BIO is just empty.

* `decryptLoop_hangs`: it does not end if the buffer is full before the BIO is empty;
* `Kept.readStep`, `encrypted_exact`: one read, and all reads, as long as the plaintext fits.
-/

namespace Hdc.Ssl

open Session RetErrCode List Framing Nat

def bufSizeDefault16 : Nat := 16 * 1024
def errDecryptWantRead : Int := -23002

/-! ### The TLS layer -/

/-- A record: its bytes on the wire, and what they say. -/
structure TlsRecord where
  cipher : Bytes
  plain : Bytes
  sealed : cipher ≠ []
  carries : plain ≠ []
  bounded : plain.length ≤ bufSizeDefault16

open TlsRecord

/-- The layer on the receiving side: the records that are not opened yet, the ciphertext in the input
BIO, and what is left of the record that was opened last. -/
structure Tls where
  records : List TlsRecord
  inBIO : Bytes
  held : Bytes

/-- What `SSL_read` returns: bytes, or a negative number with the error to it. -/
inductive SslResult where
  | data (bytes : Bytes)
  | wantRead
  | failed
deriving DecidableEq, Repr

/-- `SSL_read` with room for so many bytes. -/
def Tls.sslRead (tls : Tls) (room : Nat) : SslResult × Tls :=
  if room = 0 then (.data [], tls)
  else if tls.held ≠ [] then
    (.data (tls.held.take room), { tls with held := tls.held.drop room })
  else
    match tls.records with
    | [] => (if tls.inBIO = [] then .wantRead else .failed, tls)
    | record :: records =>
      if record.cipher.isPrefixOf tls.inBIO then
        (.data (record.plain.take room),
          ⟨records, tls.inBIO.drop record.cipher.length, record.plain.drop room⟩)
      else (if tls.inBIO.isPrefixOf record.cipher then .wantRead else .failed, tls)

/-! ### The receiver -/

/-- A session with its TLS layer, after the handshake. -/
structure Connection where
  receiver : Receiver
  tls : Tls

/-- Plaintext is stored behind what is there. -/
def Connection.stored (c : Connection) (bytes : Bytes) (tls : Tls) : Connection :=
  let session := c.receiver.session
  { receiver := { c.receiver with session := { session with
      ioBuf := storeAt session.ioBuf session.availTailIndex bytes
      availTailIndex := session.availTailIndex + bytes.length } }
    tls }

/-- `DoSSLRead` into the buffer of the session. -/
def doSSLRead (c : Connection) : Int × Connection :=
  let bufLen := c.receiver.session.ioBuf.length
  let index := c.receiver.session.availTailIndex
  -- `SSL_read` refuses a negative length
  if bufLen < index then (errGeneric, c)
  else
    match c.tls.sslRead (min bufSizeDefault16 (bufLen - index)) with
    | (.failed, tls) => (errGeneric, { c with tls })
    | (.wantRead, tls) =>
      (if bufSizeDefault16 < index then retSuccess else errDecryptWantRead, { c with tls })
    | (.data bytes, tls) => ((tls.inBIO.length : Int), c.stored bytes tls)

/-- The loop of `Decrypt`; none if it has not ended after so many turns. -/
def decryptLoop : Nat → Int → Connection → Option (Int × Connection)
  | 0, _, _ => none
  | turns + 1, left, c =>
    if left ≤ 0 then some (retSuccess, c)
    else
      let read := doSSLRead c
      if read.1 < 0 then some read else decryptLoop turns read.1 read.2

/-- `BIO_write` of the bytes that have been read into the buffer. -/
def Connection.bioWrite (c : Connection) (nread : Nat) : Connection :=
  let session := c.receiver.session
  { c with tls := { c.tls with
      inBIO := c.tls.inBIO ++ (session.ioBuf.drop session.availTailIndex).take nread } }

/-- `Decrypt`. -/
def decrypt (turns : Nat) (c : Connection) (nread : Nat) : Option (Int × Connection) :=
  decryptLoop turns nread (c.bioWrite nread)

section

variable (fetchCommand : List FetchCall → FetchCall → FetchOutcome)

/-- What `FetchIOBuf` does with the result of `Decrypt`. -/
def afterDecrypt (build : Build) (heartbeat : Heartbeat) (ret : Int) (c : Connection) :
    Int × Connection :=
  if ret = errDecryptWantRead then (retSuccess, c)
  else if ret = retSuccess then
    let fetched := fetchIOBuf fetchCommand build heartbeat c.receiver 0
    (if fetched.1 < 0 then errGeneric else retSuccess, { c with receiver := fetched.2 })
  else (ret, c)

/-- A read: ciphertext is stored in the room that `AllocCallback` offered, and `FetchIOBuf` is called
with `isEncrypt`. -/
def readStep (turns : Nat) (build : Build) (c : Connection) (event : ReadEvent) :
    Option (Int × Connection) :=
  let session := (allocCallback c.receiver.session event.sizeWanted).1
  let filled := { session with
    ioBuf := storeAt session.ioBuf session.availTailIndex event.chunk }
  (decrypt turns { c with receiver := { c.receiver with session := filled } }
    event.chunk.length).map fun decrypted =>
      afterDecrypt fetchCommand build event.heartbeat decrypted.1 decrypted.2

/-- A read ends, and leaves the connection so. -/
def Reads (build : Build) (c : Connection) (event : ReadEvent) (after : Connection) : Prop :=
  ∃ turns ret, readStep fetchCommand turns build c event = some (ret, after)

/-- All reads end, and leave the connection so. -/
def Run (build : Build) : Connection → List ReadEvent → Connection → Prop
  | c, [], after => after = c
  | c, event :: events, after =>
    ∃ middle, Reads fetchCommand build c event middle ∧ Run build middle events after

end

/-- A connection before its first read, to a peer that seals these records. -/
def Connection.initial (records : List TlsRecord) : Connection := ⟨Receiver.initial, records, [], []⟩

/-- The plaintext of records. -/
def plaintext (records : List TlsRecord) : Bytes := Framing.stream TlsRecord.plain records

@[simp] theorem plaintext_nil : plaintext [] = [] := rfl

@[simp] theorem plaintext_cons (record : TlsRecord) (records : List TlsRecord) :
    plaintext (record :: records) = record.plain ++ plaintext records :=
  Framing.stream_cons ..

@[simp] theorem plaintext_append (first second : List TlsRecord) :
    plaintext (first ++ second) = plaintext first ++ plaintext second :=
  Framing.stream_append ..

/-! ### One call of `SSL_read` -/

theorem Tls.sslRead_full (tls : Tls) : tls.sslRead 0 = (.data [], tls) := rfl

/-- A record whose ciphertext is in the BIO. -/
theorem sslRead_record (record : TlsRecord) (records : List TlsRecord) (rest : Bytes) {room : Nat}
    (some_room : 0 < room) :
    Tls.sslRead ⟨record :: records, record.cipher ++ rest, []⟩ room =
    (.data (record.plain.take room), ⟨records, rest, record.plain.drop room⟩) := by
  have complete : record.cipher.isPrefixOf (record.cipher ++ rest) = true :=
    List.isPrefixOf_iff_prefix.mpr (prefix_append ..)
  simp only [Tls.sslRead, if_neg (ne_of_gt some_room), complete, if_true, ne_eq,
    not_true_eq_false, if_false, drop_left]

variable {tail : Bytes}

/-- A record that is not complete. -/
theorem sslRead_waits {records : List TlsRecord}
    (waits : Framing.Waits cipher records tail) {room : Nat} (some_room : 0 < room) :
    Tls.sslRead ⟨records, tail, []⟩ room = (.wantRead, ⟨records, tail, []⟩) := by
  rw [Tls.sslRead, if_neg (ne_of_gt some_room)]
  cases records with
  | nil =>
    obtain rfl : tail = [] := waits
    rfl
  | cons record records =>
    obtain ⟨part, _⟩ := waits
    have incomplete : record.cipher.isPrefixOf tail = false := by
      rw [Bool.eq_false_iff]
      intro complete
      have long := (List.isPrefixOf_iff_prefix.mp complete).length_le
      omega
    simp only [incomplete, List.isPrefixOf_iff_prefix.mpr part]
    rfl

/-! ### The loop -/

namespace Connection

def index (c : Connection) : Nat := c.receiver.session.availTailIndex

def bufSize (c : Connection) : Nat := c.receiver.session.ioBuf.length

theorem index_stored (c : Connection) (bytes : Bytes) (tls : Tls) :
    (c.stored bytes tls).index = c.index + bytes.length := rfl

theorem bufSize_stored {c : Connection} {bytes : Bytes} (room : c.index + bytes.length ≤ c.bufSize)
    (tls : Tls) : (c.stored bytes tls).bufSize = c.bufSize :=
  length_storeAt room

theorem stored_nil (c : Connection) (tls : Tls) : c.stored [] tls = { c with tls } := by
  have same : storeAt c.receiver.session.ioBuf c.receiver.session.availTailIndex [] =
      c.receiver.session.ioBuf := by
    rw [storeAt, append_nil, length_nil, add_zero, take_append_drop]
  rw [stored]
  simp only [same, length_nil, add_zero]

variable {offset : Nat}

theorem storeAt_storeAt {buffer first second : Bytes} (inside : offset ≤ buffer.length) :
    storeAt (storeAt buffer offset first) (offset + first.length) second =
    storeAt buffer offset (first ++ second) := by
  have front : (buffer.take offset ++ first).length = offset + first.length := by
    rw [length_append, length_take_of_le inside]
  have behind : (storeAt buffer offset first).drop (offset + first.length + second.length) =
      buffer.drop (offset + (first ++ second).length) := by
    rw [storeAt, ← front, ← drop_drop, drop_left, drop_drop, front,
      length_append, add_assoc]
  rw [storeAt, behind, storeAt, ← front, take_left, storeAt]
  simp only [append_assoc]

theorem take_storeAt {buffer : Bytes} (inside : offset ≤ buffer.length) (chunk : Bytes) :
    (storeAt buffer offset chunk).take offset = buffer.take offset := by
  rw [storeAt, append_assoc, take_left' (length_take_of_le inside)]

theorem drop_storeAt {buffer : Bytes} (inside : offset ≤ buffer.length) (chunk : Bytes) :
    ((storeAt buffer offset chunk).drop offset).take chunk.length = chunk := by
  rw [storeAt, append_assoc, drop_left' (length_take_of_le inside), take_left]

theorem stored_stored {c : Connection} (inside : c.index ≤ c.bufSize) (first second : Bytes)
    (tls tls' : Tls) : (c.stored first tls).stored second tls' = c.stored (first ++ second) tls' := by
  have buffers : storeAt (storeAt c.receiver.session.ioBuf c.receiver.session.availTailIndex first)
      (c.receiver.session.availTailIndex + first.length) second = _ := storeAt_storeAt inside
  simp only [stored, buffers, length_append, add_assoc]

end Connection

variable {c : Connection}

theorem doSSLRead_data (inside : c.index ≤ c.bufSize) {bytes : Bytes} {tls : Tls}
    (read : c.tls.sslRead (min bufSizeDefault16 (c.bufSize - c.index)) = (.data bytes, tls)) :
    doSSLRead c = ((tls.inBIO.length : Int), c.stored bytes tls) := by
  rw [Connection.bufSize, Connection.index] at read inside
  rw [doSSLRead, if_neg (not_lt.mpr inside), read]

theorem doSSLRead_wantRead (inside : c.index ≤ c.bufSize) {tls : Tls}
    (read : c.tls.sslRead (min bufSizeDefault16 (c.bufSize - c.index)) = (.wantRead, tls)) :
    doSSLRead c = (if bufSizeDefault16 < c.index then retSuccess else errDecryptWantRead,
      { c with tls }) := by
  rw [Connection.bufSize, Connection.index] at read inside
  rw [doSSLRead, if_neg (not_lt.mpr inside), read]
  rfl

theorem decryptLoop_done (turns : Nat) (c : Connection) :
    decryptLoop (turns + 1) 0 c = some (retSuccess, c) := rfl

variable {left : Int}

section

variable (turns : Nat) (some_left : 0 < left) {c after : Connection} {result : Int}
  (read : doSSLRead c = (result, after))
include turns some_left read

theorem decryptLoop_next (fine : 0 ≤ result) :
    decryptLoop (turns + 1) left c = decryptLoop turns result after := by
  rw [decryptLoop, if_neg (Int.not_le.mpr some_left), read]
  exact if_neg (Int.not_lt.mpr fine)

theorem decryptLoop_stop (negative : result < 0) :
    decryptLoop (turns + 1) left c = some (result, after) := by
  rw [decryptLoop, if_neg (Int.not_le.mpr some_left), read]
  exact if_pos negative

end

/-- What `Decrypt` returns when all complete records have been released and `tail` is left. -/
def resultOf (tail : Bytes) (index : Nat) : Int :=
  if tail = [] ∨ bufSizeDefault16 < index then retSuccess else errDecryptWantRead

/-- The loop releases every complete record if there is room for all of them, and for one byte more
if a part of a record is left. -/
theorem decryptLoop_fits {complete records : List TlsRecord}
    (waits : Framing.Waits cipher records tail)
    (tls : c.tls = ⟨complete ++ records, stream cipher complete ++ tail, []⟩)
    (inside : c.index ≤ c.bufSize) (room : c.index + (plaintext complete).length ≤ c.bufSize)
    (spare : tail ≠ [] → c.index + (plaintext complete).length < c.bufSize)
    (pending : stream cipher complete ++ tail ≠ []) (some_left : 0 < left) :
    ∃ turns, decryptLoop turns left c = some (resultOf tail (c.index + (plaintext complete).length),
    c.stored (plaintext complete) ⟨records, tail, []⟩) := by
  induction complete generalizing c left with
  | nil =>
    have some_tail : tail ≠ [] := pending
    have free := spare some_tail
    rw [plaintext_nil, length_nil, add_zero] at free ⊢
    have read : doSSLRead c = (_, { c with tls := ⟨records, tail, []⟩ }) :=
      doSSLRead_wantRead inside (by
        rw [tls]
        exact sslRead_waits waits (by rw [bufSizeDefault16]; omega))
    rw [c.stored_nil, resultOf]
    by_cases far : bufSizeDefault16 < c.index
    · rw [if_pos far] at read
      rw [if_pos (.inr far)]
      exact ⟨2, (decryptLoop_next 1 some_left read (Int.le_refl 0)).trans (decryptLoop_done 0 _)⟩
    · rw [if_neg far] at read
      rw [if_neg (not_or.mpr ⟨some_tail, far⟩)]
      exact ⟨1, decryptLoop_stop 0 some_left read (by decide)⟩
  | cons record complete ih =>
    have bounded := record.bounded
    have carries := length_pos_iff.mpr record.carries
    rw [plaintext_cons, length_append] at room spare
    have read : doSSLRead c = (_, c.stored record.plain
        ⟨complete ++ records, stream cipher complete ++ tail, []⟩) :=
      doSSLRead_data inside (by
        have enough : record.plain.length ≤ min bufSizeDefault16 (c.bufSize - c.index) := by omega
        rw [tls, stream_cons, append_assoc, cons_append,
          sslRead_record _ _ _ (by omega), take_of_length_le enough,
          drop_of_length_le enough])
    have next (turns : Nat) := decryptLoop_next turns some_left read (Int.natCast_nonneg _)
    by_cases last : stream cipher complete ++ tail = []
    · obtain ⟨noCipher, rfl⟩ := append_eq_nil_iff.mp last
      obtain rfl : complete = [] := by
        cases complete with
        | nil => rfl
        | cons other others =>
          rw [stream_cons, append_eq_nil_iff] at noCipher
          exact absurd noCipher.1 other.sealed
      refine ⟨2, (next 1).trans ?_⟩
      simp [resultOf, decryptLoop_done]
    · have size := c.bufSize_stored (show c.index + record.plain.length ≤ c.bufSize by omega)
        ⟨complete ++ records, stream cipher complete ++ tail, []⟩
      have some_next : (0 : Int) < (stream cipher complete ++ tail).length := by
        exact_mod_cast length_pos_iff.mpr last
      obtain ⟨turns, ended⟩ := ih rfl (by rw [size, c.index_stored]; omega)
        (by rw [c.index_stored]; omega)
        (by rw [c.index_stored]; intro some_tail; have := spare some_tail; omega)
        last some_next
      refine ⟨turns + 1, (next _).trans (ended.trans ?_)⟩
      rw [Connection.stored_stored inside, c.index_stored, plaintext_cons, length_append,
        add_assoc]

/-- With the buffer full and ciphertext in the BIO, the loop does not end. -/
theorem decryptLoop_full (full : c.index = c.bufSize) (pending : c.tls.inBIO ≠ []) (turns : Nat)
    (some_left : 0 < left) : decryptLoop turns left c = none := by
  have read : doSSLRead c = (_, c.stored [] c.tls) := doSSLRead_data (Nat.le_of_eq full) (by
    rw [full, Nat.sub_self]
    exact c.tls.sslRead_full)
  rw [c.stored_nil] at read
  have some_next : (0 : Int) < c.tls.inBIO.length := by
    exact_mod_cast length_pos_iff.mpr pending
  induction turns generalizing left with
  | zero => rfl
  | succ turns ih =>
    rw [decryptLoop_next turns some_left read (Int.le_of_lt some_next)]
    exact ih some_next

/-- The loop does not end if the complete records fill the buffer and a part of one is left. -/
theorem decryptLoop_hangs {complete records : List TlsRecord}
    (tls : c.tls = ⟨complete ++ records, stream cipher complete ++ tail, []⟩)
    (inside : c.index ≤ c.bufSize) (some_tail : tail ≠ [])
    (filled : c.bufSize ≤ c.index + (plaintext complete).length) (turns : Nat)
    (some_left : 0 < left) : decryptLoop turns left c = none := by
  induction complete generalizing c left turns with
  | nil =>
    refine decryptLoop_full (le_antisymm inside filled) ?_ _ some_left
    rw [tls]
    exact some_tail
  | cons record complete ih =>
    have rest : stream cipher complete ++ tail ≠ [] :=
      append_ne_nil_of_right_ne_nil _ some_tail
    have some_rest : (0 : Int) < (stream cipher complete ++ tail).length := by
      exact_mod_cast length_pos_iff.mpr rest
    rw [plaintext_cons, length_append] at filled
    by_cases full : c.index = c.bufSize
    · refine decryptLoop_full full ?_ _ some_left
      rw [tls]
      exact append_ne_nil_of_right_ne_nil _ some_tail
    cases turns with
    | zero => rfl
    | succ turns =>
      have bounded := record.bounded
      have room : min bufSizeDefault16 (c.bufSize - c.index) ≤ c.bufSize - c.index :=
        min_le_right ..
      have some_room : 0 < min bufSizeDefault16 (c.bufSize - c.index) := by
        rw [bufSizeDefault16]
        omega
      have read : doSSLRead c = (_, c.stored _ ⟨_, _, _⟩) := doSSLRead_data inside (by
        rw [tls, stream_cons, append_assoc, cons_append,
          sslRead_record _ _ _ some_room])
      rw [decryptLoop_next turns some_left read (Int.le_of_lt some_rest)]
      have taken : (record.plain.take (min bufSizeDefault16 (c.bufSize - c.index))).length ≤
          c.bufSize - c.index := (length_take_le ..).trans room
      have within : c.index + (record.plain.take (min bufSizeDefault16
          (c.bufSize - c.index))).length ≤ c.bufSize := by omega
      have size := c.bufSize_stored within
        ⟨complete ++ records, stream cipher complete ++ tail,
          record.plain.drop (min bufSizeDefault16 (c.bufSize - c.index))⟩
      by_cases fits : record.plain.length ≤ c.bufSize - c.index
      · have enough : record.plain.length ≤ min bufSizeDefault16 (c.bufSize - c.index) := by
          omega
        rw [take_of_length_le enough, drop_of_length_le enough] at size ⊢
        refine ih rfl ?_ ?_ _ some_rest
        · rw [c.index_stored]
          omega
        · rw [c.index_stored]
          omega
      · refine decryptLoop_full ?_ rest _ some_rest
        rw [c.index_stored, length_take]
        omega

/-! ### One read -/

section

variable {fetchCommand : List FetchCall → FetchCall → FetchOutcome}

/-- A receiver that has got the plaintext `received`: it has handed over some of the packets, and the
rest of what it got is at the front of the buffer. -/
structure Holding (packets : List FetchCall) (received : Bytes) (receiver : Receiver) : Prop where
  alive : receiver.session.isDead = false
  size : receiver.session.ioBuf.length = 0 ∧ receiver.session.availTailIndex = 0 ∨
    receiver.session.ioBuf.length = hdcSocketpairSize
  delivered : receiver.calls <+: packets
  bytes : received = Framing.stream send receiver.calls ++
    receiver.session.ioBuf.take receiver.session.availTailIndex
  part : received <+: Framing.stream send packets
  inside : receiver.session.availTailIndex ≤ receiver.session.ioBuf.length

variable {packets : List FetchCall} {received : Bytes} {receiver : Receiver}

theorem Holding.of_stands (stands : Stands packets received receiver) :
    Holding packets received receiver := by
  have avail := stands.avail
  obtain ⟨pending, split, waits⟩ := stands.progress.rest
  refine ⟨stands.alive, stands.size, ⟨pending, split.symm⟩, stands.progress.bytes, ?_, ?_⟩
  · rw [stands.progress.bytes, split, stream_append]
    exact (prefix_append_right_inj _).mpr waits.isPrefix
  · rw [length_take] at avail
    omega

/-- `FetchIOBuf` does not ask for the session to be freed, unless the heartbeat is missing. -/
theorem fetchIOBuf_freeRequested (build : Build) {heartbeat : Heartbeat}
    (passed : (heartbeat.supportHeartbeat && !handleMessageCount build heartbeat.silence) = false)
    (receiver : Receiver) (read : Nat) :
    (fetchIOBuf fetchCommand build heartbeat receiver read).2.session.freeRequested =
    receiver.session.freeRequested := by
  rw [fetchIOBuf, if_neg (by rw [passed]; exact Bool.false_ne_true)]
  dsimp only
  split_ifs with moved past
  · simp [fetchLoop_freeRequested]
  · simp [fetchLoop_freeRequested, HSession.compact]
  · simp [fetchLoop_freeRequested]

/-- `FetchIOBuf` without new bytes hands over every packet that is complete. -/
theorem Holding.fetch (holding : Holding packets received receiver)
    (handles : Handles fetchCommand)
    (fits : ∀ call ∈ packets, (send call).length ≤ hdcSocketpairSize)
    (allocated : receiver.session.ioBuf.length = hdcSocketpairSize) (build : Build)
    {heartbeat : Heartbeat}
    (passed : (heartbeat.supportHeartbeat && !handleMessageCount build heartbeat.silence) = false)
    (unfreed : receiver.session.freeRequested = false) :
    Stands packets received (fetchIOBuf fetchCommand build heartbeat receiver 0).2 := by
  obtain ⟨_, split⟩ := holding.delivered
  have front := holding.part
  rw [holding.bytes, ← split, stream_append, prefix_append_right_inj] at front
  obtain ⟨complete, _, tail, pendingEq, frontEq, waits⟩ := exists_complete front
  have progress : Framing.Progress send packets (received ++ []) (receiver.calls ++ complete) tail := by
    refine ⟨?_, _, ?_, waits⟩
    · rw [append_nil, holding.bytes, frontEq, stream_append, append_assoc]
    · rw [← split, pendingEq, append_assoc]
  have lengths := congrArg List.length frontEq
  rw [length_take_of_le holding.inside, length_append] at lengths
  have stands := fetchIOBuf_stands handles build heartbeat fits progress holding.alive rfl
    (receiver.session.ioBuf.drop receiver.session.availTailIndex)
    (by rw [← frontEq, take_append_drop]) allocated lengths
  rw [append_nil] at stands
  refine stands.resolve_left ?_
  rw [fetchIOBuf_freeRequested build passed, unfreed]
  exact Bool.false_ne_true

/-- What a read finds in the buffer: room, and the plaintext before it. -/
theorem Holding.alloc (holding : Holding packets received receiver) (sizeWanted : Nat) :
    Holding packets received
        { receiver with session := (allocCallback receiver.session sizeWanted).1 } ∧
      (allocCallback receiver.session sizeWanted).1.ioBuf.length = hdcSocketpairSize := by
  obtain ⟨ioBuf, after, long, same⟩ := allocCallback_spec holding.size sizeWanted
  have inside := holding.inside
  rw [after]
  refine ⟨{ holding with size := .inr long, bytes := ?_, inside := ?_ }, long⟩
  · exact same ▸ holding.bytes
  · dsimp only
    rcases holding.size with fresh | allocated <;> omega

theorem allocCallback_index (session : HSession) (sizeWanted : Nat) :
    (allocCallback session sizeWanted).1.availTailIndex = session.availTailIndex := by
  unfold allocCallback
  split_ifs <;> rfl

variable {c : Connection}

/-- The plaintext of more records, stored behind the rest. -/
theorem Holding.stored {received more : Bytes} (holding : Holding packets received c.receiver)
    (allocated : c.bufSize = hdcSocketpairSize) (room : c.index + more.length ≤ c.bufSize)
    (part : received ++ more <+: stream send packets) (tls : Tls) :
    Holding packets (received ++ more) (c.stored more tls).receiver := by
  have size := c.bufSize_stored room tls
  have front : (c.stored more tls).receiver.session.ioBuf.take (c.stored more tls).index =
      c.receiver.session.ioBuf.take c.index ++ more := by
    have length : (c.receiver.session.ioBuf.take c.index ++ more).length =
        (c.stored more tls).index := by
      rw [length_append, length_take_of_le (show c.index ≤ _ from holding.inside),
        c.index_stored]
    change (storeAt c.receiver.session.ioBuf c.index more).take (c.stored more tls).index = _
    rw [storeAt, take_left' length]
  exact
    { holding with
      size := .inr (size.trans allocated)
      bytes := by
        change _ = stream send c.receiver.calls ++
          (c.stored more tls).receiver.session.ioBuf.take (c.stored more tls).index
        rw [front, ← append_assoc]
        exact congrArg (· ++ more) holding.bytes
      part
      inside := by
        change (c.stored more tls).index ≤ (c.stored more tls).bufSize
        rw [size]
        exact room }

/-! ### A whole run -/

/-- Where a connection stands that has got `received` of the ciphertext: the records that are complete
are opened and released, and once nothing is left in the BIO their packets are handed over. -/
structure Kept (packets : List FetchCall) (records : List TlsRecord) (received : Bytes)
    (c : Connection) : Prop where
  held : c.tls.held = []
  unfreed : c.receiver.session.freeRequested = false
  opened : ∃ opened, records = opened ++ c.tls.records ∧
    Framing.Progress TlsRecord.cipher records received opened c.tls.inBIO ∧
    Holding packets (plaintext opened) c.receiver ∧
    (c.tls.inBIO = [] → Stands packets (plaintext opened) c.receiver)

theorem Kept.initial (packets : List FetchCall) (records : List TlsRecord) :
    Kept packets records [] (.initial records) where
  held := rfl
  unfreed := rfl
  opened := ⟨[], rfl, .start records sealed, .of_stands (Stands.initial packets),
    fun _ => Stands.initial packets⟩

/-- The plaintext of the records that are complete with these bytes fits the buffer, and leaves room
if there is a part of another record. -/
def Fits (c : Connection) (chunk : Bytes) : Prop :=
  ∀ complete rest tail, c.tls.records = complete ++ rest →
    c.tls.inBIO ++ chunk = Framing.stream TlsRecord.cipher complete ++ tail →
    Framing.Waits TlsRecord.cipher rest tail →
      c.index + (plaintext complete).length ≤ hdcSocketpairSize ∧
        (tail ≠ [] → c.index + (plaintext complete).length < hdcSocketpairSize)

/-- The connection when `Decrypt` has moved a chunk to the BIO. -/
def Connection.offered (c : Connection) (event : ReadEvent) : Connection :=
  let session := (allocCallback c.receiver.session event.sizeWanted).1
  Connection.bioWrite { c with receiver := { c.receiver with session := { session with
    ioBuf := storeAt session.ioBuf session.availTailIndex event.chunk } } } event.chunk.length

theorem readStep_eq (turns : Nat) (build : Build) (c : Connection) (event : ReadEvent) :
    readStep fetchCommand turns build c event =
      (decryptLoop turns event.chunk.length (c.offered event)).map fun decrypted =>
        afterDecrypt fetchCommand build event.heartbeat decrypted.1 decrypted.2 := rfl

variable {build : Build} {event : ReadEvent}

theorem reads_of_decryptLoop {turns : Nat} {c middle : Connection} {ret : Int}
    (ended : decryptLoop turns event.chunk.length (c.offered event) = some (ret, middle)) :
    Reads fetchCommand build c event
    (afterDecrypt fetchCommand build event.heartbeat ret middle).2 := by
  refine ⟨turns, (afterDecrypt fetchCommand build event.heartbeat ret middle).1, ?_⟩
  rw [readStep_eq, ended]
  rfl

/-- What the loop finds: the chunk in the BIO, and the plaintext before it as it was. -/
theorem Holding.offered (holding : Holding packets received c.receiver)
    (served : event.chunk.length ≤ (allocCallback c.receiver.session event.sizeWanted).2) :
    Holding packets received (c.offered event).receiver ∧
    (c.offered event).bufSize = hdcSocketpairSize ∧ (c.offered event).index = c.index ∧
    (c.offered event).tls = ⟨c.tls.records, c.tls.inBIO ++ event.chunk, c.tls.held⟩ ∧
    (c.offered event).receiver.session.freeRequested = c.receiver.session.freeRequested := by
  obtain ⟨ready, size⟩ := holding.alloc event.sizeWanted
  let session := (allocCallback c.receiver.session event.sizeWanted).1
  have index : session.availTailIndex = c.index := allocCallback_index ..
  have freed : session.freeRequested = c.receiver.session.freeRequested := by
    unfold session allocCallback
    split_ifs <;> rfl
  have room : event.chunk.length ≤ session.ioBuf.length - session.availTailIndex :=
    served.trans (min_le_left ..)
  have inside : session.availTailIndex ≤ session.ioBuf.length := ready.inside
  have fits : session.availTailIndex + event.chunk.length ≤ session.ioBuf.length := by omega
  have bufSize : (c.offered event).bufSize = hdcSocketpairSize := (length_storeAt fits).trans size
  refine ⟨?_, bufSize, index, ?_, freed⟩
  · exact
      { ready with
        size := .inr bufSize
        bytes := ready.bytes.trans
          (congrArg (stream send c.receiver.calls ++ ·)
            (Connection.take_storeAt inside event.chunk).symm)
        inside := by
          change session.availTailIndex ≤ (c.offered event).bufSize
          rw [bufSize, ← size]
          exact inside }
  · have chunk := Connection.drop_storeAt inside event.chunk
    exact congrArg (fun bytes => Tls.mk c.tls.records (c.tls.inBIO ++ bytes) c.tls.held) chunk

section

variable {packets : List FetchCall} {records opened : List TlsRecord} {received : Bytes}
  {c : Connection}

section Fetch

variable (handles : Handles fetchCommand)
  (fits : ∀ call ∈ packets, (send call).length ≤ hdcSocketpairSize)
  (allocated : c.bufSize = hdcSocketpairSize) (build : Build) {heartbeat : Heartbeat}
  (passed : (heartbeat.supportHeartbeat && !handleMessageCount build heartbeat.silence) = false)
  (held : c.tls.held = []) (unfreed : c.receiver.session.freeRequested = false)
  (split : records = opened ++ c.tls.records)
  (progress : Framing.Progress TlsRecord.cipher records received opened c.tls.inBIO)
  (holding : Holding packets (plaintext opened) c.receiver)

include handles fits allocated passed held unfreed split progress holding

/-- `FetchIOBuf` after `Decrypt` has returned success. -/
theorem Kept.fetched : Kept packets records received
    (afterDecrypt fetchCommand build heartbeat retSuccess c).2 := by
  have stands := holding.fetch handles fits allocated _ passed unfreed
  refine ⟨held, ?_, opened, split, progress, .of_stands stands, fun _ => stands⟩
  exact (fetchIOBuf_freeRequested _ passed ..).trans unfreed

/-- `FetchIOBuf` after a loop that released all it could. -/
theorem Kept.released : Kept packets records received
    (afterDecrypt fetchCommand build heartbeat (resultOf c.tls.inBIO c.index) c).2 := by
  by_cases ready : c.tls.inBIO = [] ∨ bufSizeDefault16 < c.index
  · rw [resultOf, if_pos ready]
    exact .fetched handles fits allocated _ passed held unfreed split progress holding
  · rw [resultOf, if_neg ready]
    exact ⟨held, unfreed, opened, split, progress, holding, fun none => absurd (.inl none) ready⟩

end Fetch

/-- One read ends, and moves the connection on by the records that are complete now. -/
theorem Kept.readStep (kept : Kept packets records received c)
    (handles : Handles fetchCommand)
    (fits : ∀ call ∈ packets, (send call).length ≤ hdcSocketpairSize)
    (plain : plaintext records = stream send packets) (build : Build) {event : ReadEvent}
    (served : event.chunk.length ≤ (allocCallback c.receiver.session event.sizeWanted).2)
    (passed : event.refused build = false) (room : Fits c event.chunk)
    (part : received ++ event.chunk <+: stream cipher records) :
    ∃ after, Reads fetchCommand build c event after ∧
    Kept packets records (received ++ event.chunk) after := by
  obtain ⟨held, unfreed, opened, split, progress, holding, -⟩ := kept
  obtain ⟨before, allocated, index, tls, freed⟩ := holding.offered served
  rw [unfreed] at freed
  by_cases nothing : event.chunk = []
  · -- The loop has no turn, and `FetchIOBuf` looks at the buffer once more.
    rw [nothing, append_nil] at tls ⊢
    have same : (c.offered event).tls = c.tls := tls
    rw [← same] at held split progress
    have ended : decryptLoop 1 event.chunk.length (c.offered event) =
        some (retSuccess, c.offered event) := by
      rw [nothing]
      exact decryptLoop_done 0 _
    exact ⟨_, reads_of_decryptLoop ended,
      .fetched handles fits allocated build passed held freed split progress before⟩
  obtain ⟨complete, tail, bytes, moved⟩ := progress.step part
  obtain ⟨rest, rests, waits⟩ := moved.rest
  have recordsEq : c.tls.records = complete ++ rest := by
    rw [split, append_assoc] at rests
    exact append_cancel_left rests
  obtain ⟨within, spare⟩ := room complete rest tail recordsEq bytes waits
  rw [recordsEq, bytes, held] at tls
  rw [← index, ← allocated] at within spare
  have pending : stream cipher complete ++ tail ≠ [] := by
    rw [← bytes]
    exact append_ne_nil_of_right_ne_nil _ nothing
  have some_left : (0 : Int) < event.chunk.length := by
    exact_mod_cast length_pos_iff.mpr nothing
  obtain ⟨_, ended⟩ := decryptLoop_fits waits tls before.inside within spare pending some_left
  have plainPart : plaintext opened ++ plaintext complete <+: stream send packets := by
    rw [← plain, rests, plaintext_append, plaintext_append]
    exact prefix_append ..
  have after := before.stored allocated within plainPart ⟨rest, tail, []⟩
  rw [← plaintext_append] at after
  have size := ((c.offered event).bufSize_stored within ⟨rest, tail, []⟩).trans allocated
  exact ⟨_, reads_of_decryptLoop ended,
    .released handles fits size build passed rfl freed rests moved after⟩

end

variable (fetchCommand) in
/-- Every read brings no more than what was offered to it, meets a live heartbeat, and completes
records whose plaintext fits the buffer. -/
def Fine (build : Build) : Connection → List ReadEvent → Prop
  | _, [] => True
  | c, event :: events =>
    (event.chunk.length ≤ (allocCallback c.receiver.session event.sizeWanted).2 ∧
      event.refused build = false ∧ Fits c event.chunk) ∧
    ∀ after, Reads fetchCommand build c event after → Fine build after events

theorem Fine.take {events : List ReadEvent} (fine : Fine fetchCommand build c events) (k : Nat) :
    Fine fetchCommand build c (events.take k) := by
  induction events generalizing c k with
  | nil =>
    rw [take_nil]
    trivial
  | cons event events ih =>
    cases k with
    | zero => trivial
    | succ k => exact ⟨fine.1, fun after reads => ih (fine.2 _ reads) k⟩

theorem Kept.run {records : List TlsRecord} (handles : Handles fetchCommand)
    (fits : ∀ call ∈ packets, (send call).length ≤ hdcSocketpairSize)
    (plain : plaintext records = stream send packets) (build : Build)
    {events : List ReadEvent} (kept : Kept packets records received c)
    (fine : Fine fetchCommand build c events)
    (part : received ++ events.flatMap (·.chunk) <+: stream cipher records) :
    ∃ after, Run fetchCommand build c events after ∧
    Kept packets records (received ++ events.flatMap (·.chunk)) after := by
  induction events generalizing received c with
  | nil =>
    rw [flatMap_nil, append_nil]
    exact ⟨c, rfl, kept⟩
  | cons event events ih =>
    obtain ⟨⟨served, passed, room⟩, later⟩ := fine
    rw [flatMap_cons, ← append_assoc] at part ⊢
    obtain ⟨middle, reads, next⟩ := kept.readStep handles fits plain build served passed room
      ((prefix_append ..).trans part)
    obtain ⟨after, run, last⟩ := ih next (later middle reads) part
    exact ⟨_, ⟨_, reads, run⟩, last⟩

/-- The encrypted path is exact as long as the plaintext fits. For every list of packets, every way to
seal their bytes in records and every cut of the ciphertext into reads, every read ends, within the
buffer; what the complete records say is in the calls that have been made and at the front of the
buffer; and with the last byte of the ciphertext every packet has been handed over. -/
theorem encrypted_exact (handles : Handles fetchCommand) (build : Build)
    {packets : List FetchCall} (fits : ∀ call ∈ packets, (send call).length ≤ hdcSocketpairSize)
    {records : List TlsRecord} (plain : plaintext records = stream send packets)
    {events : List ReadEvent}
    (cut : events.flatMap (·.chunk) <+: stream cipher records)
    (fine : Fine fetchCommand build (.initial records) events) (k : Nat) :
    ∃ c, Run fetchCommand build (.initial records) (events.take k) c ∧ c.index ≤ c.bufSize ∧
      (∃ opened, Framing.Progress cipher records ((events.take k).flatMap (·.chunk)) opened
          c.tls.inBIO ∧
        plaintext opened = stream send c.receiver.calls ++
          c.receiver.session.ioBuf.take c.index) ∧
      ((events.take k).flatMap (·.chunk) = stream cipher records →
        c.receiver.calls = packets) := by
  have part : [] ++ (events.take k).flatMap (·.chunk) <+: stream cipher records := by
    refine List.IsPrefix.trans ?_ cut
    conv_rhs => rw [← take_append_drop k events, flatMap_append]
    exact prefix_append ..
  obtain ⟨c, run, kept⟩ := (Kept.initial packets records).run handles fits plain build (fine.take k)
    part
  obtain ⟨opened, -, progress, holding, ready⟩ := kept.opened
  refine ⟨c, run, holding.inside, ⟨_, progress, holding.bytes⟩, ?_⟩
  intro all
  rw [all] at progress
  obtain ⟨rfl, empty⟩ := progress.delivered_all
  have stands := (ready empty).progress
  rw [plain] at stands
  exact stands.delivered_all.1

/-- Records that all fit the buffer together never fill it. -/
theorem fits_of_small (small : c.index + (plaintext c.tls.records).length < hdcSocketpairSize)
    (chunk : Bytes) : Fits c chunk := by
  intro complete rest tail split _ _
  rw [split, plaintext_append, length_append] at small
  constructor
  · omega
  · intro _
    omega

/-- A packet in one record, in one read. -/
theorem encrypted_exact_one :
    let call : FetchCall := ⟨7, HdcCommand.fileData.code, [1, 2, 3]⟩
    let record : TlsRecord := ⟨[0x17, 3, 3], send call, by decide, by decide, by decide⟩
    let events : List ReadEvent := [⟨65536, [0x17, 3, 3], ⟨true, 10⟩⟩]
    ∃ c, Run (fun _ _ => ⟨true, false⟩) .daemon (.initial [record]) events c ∧
      c.receiver.calls = [call] := by
  intro call record events
  have handles : Handles fun _ _ => ⟨true, false⟩ := ⟨fun _ _ => rfl, fun _ _ => rfl⟩
  have fits : ∀ c ∈ [call], (send c).length ≤ hdcSocketpairSize := by decide
  have served : 3 ≤ (allocCallback Receiver.initial.session 65536).2 := by
    rw [(Stands.initial []).room]
    decide
  have fine : Fine (fun _ _ => ⟨true, false⟩) .daemon (.initial [record]) events :=
    ⟨⟨served, by decide, fits_of_small (by decide) _⟩, fun _ _ => trivial⟩
  obtain ⟨c, run, -, -, all⟩ := encrypted_exact handles .daemon fits
    (show plaintext [record] = stream send [call] from rfl) (prefix_refl _) fine 1
  exact ⟨c, run, all rfl⟩

/-! ### A full buffer -/

theorem run_append {first second : List ReadEvent} {c after : Connection} :
    Run fetchCommand build c (first ++ second) after ↔
      ∃ middle, Run fetchCommand build c first middle ∧
        Run fetchCommand build middle second after := by
  induction first generalizing c with
  | nil => simp [Run]
  | cons event first ih =>
    simp only [cons_append, Run, ih]
    constructor
    · rintro ⟨next, reads, middle, one, two⟩
      exact ⟨middle, ⟨next, reads, one⟩, two⟩
    · rintro ⟨middle, ⟨next, reads, one⟩, two⟩
      exact ⟨next, reads, middle, one, two⟩

/-- A connection that has opened these records, is waiting for the rest of the next one, and is still
inside its first packet. -/
structure Inside (packets : List FetchCall) (records complete rest : List TlsRecord) (tail : Bytes)
    (c : Connection) : Prop where
  split : records = complete ++ rest
  waits : Waits cipher rest tail
  kept : Kept packets records (stream cipher complete ++ tail) c
  tls : c.tls = ⟨rest, tail, []⟩
  index : c.index = (plaintext complete).length

section Inside

variable {call : FetchCall} {packets : List FetchCall} {records complete more rest : List TlsRecord}
  {tail tail' : Bytes} {c : Connection}

/-- Where a connection stands that has got this much. -/
theorem Inside.of_kept (split : records = complete ++ rest) (waits : Waits cipher rest tail)
    (kept : Kept (call :: packets) records (stream cipher complete ++ tail) c)
    (short : (plaintext complete).length < (send call).length) :
    Inside (call :: packets) records complete rest tail c := by
  obtain ⟨opened, recordsEq, progress, holding, -⟩ := kept.opened
  obtain ⟨rfl, inBIO⟩ := progress.unique ⟨rfl, rest, split, waits⟩
  have left : c.tls.records = rest := append_cancel_left (recordsEq.symm.trans split)
  refine ⟨split, waits, kept, ?_, ?_⟩
  · rw [← left, ← inBIO, ← kept.held]
  · have bytes := congrArg List.length holding.bytes
    rw [length_append, length_take_of_le holding.inside] at bytes
    cases handed : c.receiver.calls with
    | nil =>
      rw [handed, stream_nil, length_nil, Nat.zero_add] at bytes
      exact bytes.symm
    | cons first others =>
      -- the first packet would have been handed over
      obtain ⟨_, same⟩ := holding.delivered
      rw [handed] at same
      obtain rfl := (cons.inj same).1
      rw [handed, stream_cons, length_append] at bytes
      omega

/-- What is offered to the next read. -/
theorem Inside.room (inside : Inside packets records complete rest tail c) (sizeWanted : Nat) :
    (allocCallback c.receiver.session sizeWanted).2 =
      min (hdcSocketpairSize - (plaintext complete).length) sizeWanted := by
  obtain ⟨_, -, -, holding, -⟩ := inside.kept.opened
  change min ((allocCallback c.receiver.session sizeWanted).1.ioBuf.length -
    (allocCallback c.receiver.session sizeWanted).1.availTailIndex) sizeWanted = _
  rw [(holding.alloc _).2, allocCallback_index, show c.receiver.session.availTailIndex = _ from
    inside.index]

/-- A read that ends inside the first packet too. -/
theorem Inside.read (inside : Inside (call :: packets) records complete (more ++ rest) tail c)
    (handles : Handles fetchCommand)
    (fits : ∀ other ∈ call :: packets, (send other).length ≤ hdcSocketpairSize)
    (plain : plaintext records = stream send (call :: packets)) {event : ReadEvent}
    (bytes : tail ++ event.chunk = stream cipher more ++ tail') (waits : Waits cipher rest tail')
    (served : event.chunk.length ≤
      min (hdcSocketpairSize - (plaintext complete).length) event.sizeWanted)
    (passed : event.refused build = false)
    (short : (plaintext (complete ++ more)).length < (send call).length) :
    ∃ after, Reads fetchCommand build c event after ∧
      Inside (call :: packets) records (complete ++ more) rest tail' after := by
  have split : records = (complete ++ more) ++ rest := by rw [inside.split, append_assoc]
  have got : stream cipher complete ++ tail ++ event.chunk =
      stream cipher (complete ++ more) ++ tail' := by
    rw [append_assoc, bytes, stream_append, append_assoc]
  have part : stream cipher complete ++ tail ++ event.chunk <+: stream cipher records := by
    rw [got, split, stream_append _ (complete ++ more), prefix_append_right_inj]
    exact waits.isPrefix
  have room : Fits c event.chunk := by
    intro complete' rest' tail'' splits same waiting
    rw [inside.tls] at splits same
    have one : Framing.Progress cipher (more ++ rest) _ more tail' := ⟨bytes, rest, rfl, waits⟩
    obtain ⟨rfl, rfl⟩ := one.unique ⟨same, rest', splits, waiting⟩
    have within := fits call mem_cons_self
    rw [inside.index]
    rw [plaintext_append, length_append] at short
    omega
  obtain ⟨after, reads, kept⟩ := inside.kept.readStep handles fits plain build
    (served.trans (inside.room _).ge) passed room part
  rw [got] at kept
  exact ⟨after, reads, .of_kept split waits kept short⟩

end Inside

/-- A record with the 22 bytes that TLS adds. -/
theorem exists_record {plain : Bytes} (carries : plain ≠ [])
    (bounded : plain.length ≤ bufSizeDefault16) :
    ∃ record : TlsRecord, record.plain = plain ∧
      record.cipher = List.replicate (plain.length + 22) 0 :=
  ⟨⟨List.replicate (plain.length + 22) 0, plain,
    ne_nil_of_length_pos (by rw [length_replicate]; omega), carries, bounded⟩, rfl, rfl⟩

/-- Bytes in full records. -/
theorem exists_fullRecords (count : Nat) {bytes : Bytes}
    (length : bytes.length = count * bufSizeDefault16) :
    ∃ records, plaintext records = bytes ∧
      records.map cipher = List.replicate count (List.replicate (bufSizeDefault16 + 22) 0) ∧
      ∀ record ∈ records, record.plain.length = bufSizeDefault16 := by
  induction count generalizing bytes with
  | zero =>
    rw [zero_mul, length_eq_zero_iff] at length
    exact ⟨[], length.symm, rfl, fun _ mem => absurd mem not_mem_nil⟩
  | succ count ih =>
    rw [succ_mul] at length
    have size : (bytes.take bufSizeDefault16).length = bufSizeDefault16 := by
      rw [length_take]
      omega
    have some : bytes.take bufSizeDefault16 ≠ [] := ne_nil_of_length_pos (by rw [size]; decide)
    obtain ⟨record, here, cipherHere⟩ := exists_record some size.le
    obtain ⟨records, plain, ciphers, full⟩ :=
      @ih (bytes.drop bufSizeDefault16) (by rw [length_drop]; omega)
    refine ⟨record :: records, ?_, ?_, forall_mem_cons.mpr ⟨here ▸ size, full⟩⟩
    · rw [plaintext_cons, plain, here, take_append_drop]
    · rw [map_cons, ciphers, cipherHere, size]
      rfl

/-- A packet whose frame is as long as the buffer, and one that fills a record. -/
def longCall : FetchCall := ⟨1, HdcCommand.fileData.code, List.replicate 1046508 0⟩
def fullCall : FetchCall := ⟨1, HdcCommand.fileData.code, List.replicate 16364 0⟩

theorem length_send_data (count : Nat) :
    (send ⟨1, HdcCommand.fileData.code, List.replicate count 0⟩).length = count + 20 := by
  have protect : protectBuf ⟨1, HdcCommand.fileData.code, List.replicate count 0⟩ =
      ⟨1, HdcCommand.fileData.code.toUInt32, 0, payloadProtectStaticVcode⟩ := by
    simp [protectBuf, enableIoChecksum]
  have inner : (SerialStruct.serializeToString payloadProtectFields
      ⟨1, HdcCommand.fileData.code.toUInt32, 0, payloadProtectStaticVcode⟩).length = 9 := rfl
  rw [length_send, length_replicate, protect, inner, sizeofPayloadHead]
  omega

/-- A read of a full record, and one that takes the room that is left behind 63 of them. -/
def fullRead : ReadEvent := ⟨65536, List.replicate (bufSizeDefault16 + 22) 0, ⟨false, 0⟩⟩
def restRead : ReadEvent := ⟨65536, List.replicate 14336 0, ⟨false, 0⟩⟩

/-- The records of the two packets, as a sender makes them that fills each record. -/
structure TwoPackets where
  full : List TlsRecord
  last : TlsRecord
  next : TlsRecord
  plain : plaintext (full ++ [last, next]) = stream send [longCall, fullCall]
  ciphers : full.map cipher = List.replicate 63 fullRead.chunk
  sizes : ∀ record ∈ full, record.plain.length = bufSizeDefault16
  lastSize : last.plain.length = 14336
  lastCipher : last.cipher = List.replicate 14358 0
  nextCipher : next.cipher = List.replicate (bufSizeDefault16 + 22) 0

def TwoPackets.records (two : TwoPackets) : List TlsRecord := two.full ++ [two.last, two.next]

theorem nonempty_twoPackets : Nonempty TwoPackets := by
  have long : (send longCall).length = 1046528 := length_send_data _
  have small : (send fullCall).length = bufSizeDefault16 := length_send_data _
  obtain ⟨full, plain, ciphers, sizes⟩ := @exists_fullRecords 63
    ((send longCall).take (63 * bufSizeDefault16)) (by
      rw [length_take, long]
      rfl)
  have left : ((send longCall).drop (63 * bufSizeDefault16)).length = 14336 := by
    rw [length_drop, long]
    rfl
  obtain ⟨last, lastPlain, lastCipher⟩ := @exists_record
    ((send longCall).drop (63 * bufSizeDefault16))
    (ne_nil_of_length_pos (by rw [left]; omega)) (by rw [left, bufSizeDefault16]; omega)
  obtain ⟨next, nextPlain, nextCipher⟩ := exists_record (send_ne_nil fullCall) small.le
  rw [left] at lastCipher
  rw [small] at nextCipher
  refine ⟨full, last, next, ?_, ciphers, sizes, lastPlain ▸ left, lastCipher, nextCipher⟩
  rw [plaintext_append, plain, plaintext_cons, plaintext_cons, plaintext_nil, append_nil,
    ← append_assoc, lastPlain, nextPlain, take_append_drop, stream_cons, stream_cons, stream_nil,
    append_nil]

theorem fits_twoPackets :
    ∀ call ∈ [longCall, fullCall], (send call).length ≤ hdcSocketpairSize := by
  simp only [forall_mem_cons, longCall, fullCall, length_send_data]
  exact ⟨by decide, by decide, fun _ mem => absurd mem not_mem_nil⟩

namespace TwoPackets

variable (two : TwoPackets)

theorem length_full : two.full.length = 63 := by
  rw [← length_map cipher, two.ciphers, length_replicate]

theorem length_plaintext_take {k : Nat} (few : k ≤ 63) :
    (plaintext (two.full.take k)).length = k * bufSizeDefault16 := by
  have all : ∀ some : List TlsRecord, (∀ record ∈ some, record.plain.length = bufSizeDefault16) →
      (plaintext some).length = some.length * bufSizeDefault16 := by
    intro some sizes
    induction some with
    | nil => rw [length_nil, zero_mul, plaintext_nil, length_nil]
    | cons record some ih =>
      obtain ⟨here, others⟩ := forall_mem_cons.mp sizes
      rw [plaintext_cons, length_append, ih others, here, length_cons, succ_mul, add_comm]
  rw [all _ fun record mem => two.sizes record (mem_of_mem_take mem), length_take, two.length_full,
    min_eq_left few]

theorem waits_drop (k : Nat) : Waits cipher (two.full.drop k ++ [two.last, two.next]) [] := by
  cases two.full.drop k with
  | nil => exact ⟨List.nil_prefix, length_pos_iff.mpr two.last.sealed⟩
  | cons record _ => exact ⟨List.nil_prefix, length_pos_iff.mpr record.sealed⟩

theorem length_plaintext_full : (plaintext two.full).length = 63 * bufSizeDefault16 := by
  have all := two.length_plaintext_take (Nat.le_refl 63)
  rwa [take_of_length_le two.length_full.le] at all

/-- There is room for each full record, and for the reads that come behind them. -/
theorem served_full {k : Nat} (few : k < 63) : fullRead.chunk.length ≤
    min (hdcSocketpairSize - (plaintext (two.full.take k)).length) fullRead.sizeWanted := by
  rw [two.length_plaintext_take few.le, show fullRead.sizeWanted = 65536 from rfl, fullRead,
    length_replicate, bufSizeDefault16, hdcSocketpairSize, maxSizeIobuf]
  omega

theorem served_rest : restRead.chunk.length ≤
    min (hdcSocketpairSize - (plaintext two.full).length) restRead.sizeWanted := by
  rw [two.length_plaintext_full, show restRead.sizeWanted = 65536 from rfl, restRead,
    length_replicate, bufSizeDefault16, hdcSocketpairSize, maxSizeIobuf]
  omega

/-- Full records are read and released one by one; the packet is not complete. -/
theorem fill {k : Nat} (few : k ≤ 63) :
    ∃ c, Run (fun _ _ => ⟨true, false⟩) .daemon (.initial two.records)
        (List.replicate k fullRead) c ∧
      Inside [longCall, fullCall] two.records (two.full.take k) (two.full.drop k ++ [two.last, two.next])
        [] c := by
  have handles : Handles fun _ _ => ⟨true, false⟩ := ⟨fun _ _ => rfl, fun _ _ => rfl⟩
  have long : (send longCall).length = 1046528 := length_send_data _
  induction k with
  | zero =>
    refine ⟨_, rfl, .of_kept rfl (two.waits_drop 0) (.initial _ _) ?_⟩
    rw [take_zero, plaintext_nil, length_nil, long]
    omega
  | succ k ih =>
    obtain ⟨c, run, inside⟩ := ih (by omega)
    have here : k < two.full.length := by
      rw [two.length_full]
      omega
    have cipherHere : (two.full[k]).cipher = fullRead.chunk := by
      have same : (two.full.map cipher)[k]? = some fullRead.chunk := by
        rw [two.ciphers, getElem?_replicate, if_pos (by omega)]
      rw [getElem?_map, getElem?_eq_getElem here] at same
      exact Option.some.inj same
    have rest : two.full.drop k = [two.full[k]] ++ two.full.drop (k + 1) := drop_eq_getElem_cons here
    rw [rest, append_assoc] at inside
    have more : two.full.take k ++ [two.full[k]] = two.full.take (k + 1) := take_append_getElem here
    have bytes : [] ++ fullRead.chunk = stream cipher [two.full[k]] ++ [] := by
      rw [stream_cons, stream_nil, cipherHere, append_nil, append_nil, nil_append]
    have short : (plaintext (two.full.take k ++ [two.full[k]])).length < (send longCall).length := by
      rw [more, two.length_plaintext_take few, long, bufSizeDefault16]
      omega
    obtain ⟨after, reads, next⟩ := inside.read handles fits_twoPackets two.plain bytes
      (two.waits_drop (k + 1)) (two.served_full few) rfl short
    rw [more] at next
    exact ⟨after, replicate_succ' ▸ run_append.mpr ⟨c, run, after, reads, rfl⟩, next⟩

/-- The next read takes the room that is left, and ends inside the last record of the packet. -/
theorem part :
    ∃ c after, Run (fun _ _ => ⟨true, false⟩) .daemon (.initial two.records)
        (List.replicate 63 fullRead) c ∧
      Inside [longCall, fullCall] two.records two.full [two.last, two.next] [] c ∧
      Reads (fun _ _ => ⟨true, false⟩) .daemon c restRead after ∧
      Inside [longCall, fullCall] two.records two.full [two.last, two.next] restRead.chunk after := by
  have handles : Handles fun _ _ => ⟨true, false⟩ := ⟨fun _ _ => rfl, fun _ _ => rfl⟩
  have long : (send longCall).length = 1046528 := length_send_data _
  obtain ⟨c, run, inside⟩ := two.fill (Nat.le_refl 63)
  rw [take_of_length_le two.length_full.le, drop_of_length_le two.length_full.le, nil_append]
    at inside
  have waits : Waits cipher [two.last, two.next] restRead.chunk := by
    rw [Waits, two.lastCipher, restRead]
    exact ⟨⟨List.replicate 22 0, replicate_append_replicate⟩, by simp only [length_replicate]; omega⟩
  have short : (plaintext (two.full ++ [])).length < (send longCall).length := by
    rw [append_nil, two.length_plaintext_full, long, bufSizeDefault16]
    omega
  obtain ⟨after, reads, next⟩ := @Inside.read _ .daemon _ _ _ _ [] _ _ _ _ inside handles
    fits_twoPackets two.plain restRead rfl waits two.served_rest rfl short
  rw [append_nil] at next
  exact ⟨c, after, run, inside, reads, next⟩

end TwoPackets

/-- 63 reads of a record each, and two that take what is left of the buffer. -/
def bufferReads : List ReadEvent := List.replicate 63 fullRead ++ [restRead, restRead]

theorem TwoPackets.bytes (two : TwoPackets) :
    bufferReads.flatMap (·.chunk) = stream cipher two.full ++
      (two.last.cipher ++ List.replicate 14314 0) := by
  have full : stream cipher two.full = (List.replicate 63 fullRead).flatMap (·.chunk) := by
    rw [stream, flatMap_def, two.ciphers, flatMap_def, map_replicate]
  have rest : restRead.chunk ++ restRead.chunk = two.last.cipher ++ List.replicate 14314 0 := by
    rw [two.lastCipher, restRead, replicate_append_replicate, replicate_append_replicate]
  rw [bufferReads, flatMap_append, full, ← rest, flatMap_cons, flatMap_cons, flatMap_nil, append_nil]

/-- A frame as long as the buffer and a second packet, read in pieces of at most 65536 bytes. Each
read is what `AllocCallback` offered. The last one completes the record with which the buffer is full
and brings a part of another one, and never ends. -/
theorem fullBuffer_hangs :
    ∃ records, plaintext records = stream send [longCall, fullCall] ∧
      bufferReads.flatMap (·.chunk) <+: stream cipher records ∧
      (∀ k event, bufferReads[k]? = some event → event.sizeWanted = 65536 ∧
        ∃ c, Run (fun _ _ => ⟨true, false⟩) .daemon (.initial records) (bufferReads.take k) c ∧
          event.chunk.length ≤ (allocCallback c.receiver.session event.sizeWanted).2) ∧
      ∃ c, Run (fun _ _ => ⟨true, false⟩) .daemon (.initial records) (bufferReads.take 64) c ∧
        ∀ turns, readStep (fun _ _ => ⟨true, false⟩) turns .daemon c restRead = none := by
  obtain ⟨two⟩ := nonempty_twoPackets
  obtain ⟨c, after, run, inside, reads, waiting⟩ := two.part
  have upTo : Run (fun _ _ => ⟨true, false⟩) .daemon (.initial two.records)
      (List.replicate 63 fullRead ++ [restRead]) after :=
    run_append.mpr ⟨c, run, after, reads, rfl⟩
  refine ⟨two.records, two.plain, ?_, ?_, ?_⟩
  · rw [two.bytes, TwoPackets.records, stream_append, stream_cons, stream_cons, stream_nil,
      append_nil, prefix_append_right_inj, prefix_append_right_inj, two.nextCipher]
    exact ⟨List.replicate 2092 0, replicate_append_replicate⟩
  · intro k event here
    rcases Nat.lt_trichotomy k 63 with few | rfl | many
    · obtain ⟨c, run, inside⟩ := two.fill few.le
      rw [bufferReads, getElem?_append_left (by rwa [length_replicate]), getElem?_replicate,
        if_pos few, Option.some.injEq] at here
      subst here
      refine ⟨rfl, c, ?_, (two.served_full few).trans (inside.room _).ge⟩
      rwa [bufferReads, take_append_of_le_length (by rw [length_replicate]; exact few.le),
        take_replicate, min_eq_left few.le]
    · cases here
      exact ⟨rfl, c, run, two.served_rest.trans (inside.room _).ge⟩
    · obtain ⟨inRange, -⟩ := List.getElem?_eq_some_iff.mp here
      obtain rfl : k = 64 := by
        simp only [bufferReads, length_append, length_replicate, length_cons, length_nil] at inRange
        omega
      cases here
      exact ⟨rfl, after, upTo, two.served_rest.trans (waiting.room _).ge⟩
  · refine ⟨after, upTo, fun turns => ?_⟩
    obtain ⟨_, -, -, holding, -⟩ := waiting.kept.opened
    obtain ⟨offered, allocated, index, bio, -⟩ :=
      holding.offered (two.served_rest.trans (waiting.room _).ge)
    have pending : (after.offered restRead).tls = ⟨[two.last] ++ [two.next],
        stream cipher [two.last] ++ List.replicate 14314 0, []⟩ := by
      rw [bio, waiting.tls, stream_cons, stream_nil, append_nil, two.lastCipher]
      simp only [restRead, replicate_append_replicate]
      rfl
    have hangs : decryptLoop turns restRead.chunk.length (after.offered restRead) = none := by
      refine decryptLoop_hangs pending offered.inside ?_ ?_ _ ?_
      · exact ne_nil_of_length_pos (by rw [length_replicate]; omega)
      · rw [allocated, index, waiting.index, two.length_plaintext_full, plaintext_cons, plaintext_nil,
          append_nil, two.lastSize, bufSizeDefault16, hdcSocketpairSize, maxSizeIobuf]
      · rw [restRead, length_replicate]
        omega
    rw [readStep_eq, hangs]
    rfl

end

end Hdc.Ssl
