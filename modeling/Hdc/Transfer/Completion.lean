import Hdc.Transfer.DataRuns
import Hdc.Lib.ExactRuns

/-!
The end of one opened file.

Several requests of a file may be outstanding, and each completion may be the one that ends the
file: it closes the descriptor and calls `WhenTransferFinish`. Two flags are to keep this to one
time. `ioFinish` stops new requests, but a completion that comes when it is set ends the file once
more; and a data frame that is refused closes the descriptor without setting it, so requests go on
to be issued. `strayed` is not in the source: a request was issued when the descriptor was closed.

* `Settled`: what holds as long as no frame is refused and the end comes last;
* `completion_exact`: `WhenTransferFinish` runs at most once and nothing is issued on a closed
  descriptor, up to the first such step.
-/

namespace Hdc.Transfer.Data

open SerialStruct OffsetWrites List

/-! ### One opened file -/

structure OpenFile where
  task : Task
  stopped : Bool := false
  strayed : Bool := false
deriving DecidableEq, Repr

/-- What happens to a file that is open: a command of the peer, a request that is carried
out by a thread, `OnFileIO`, or `StopTask`. -/
inductive FileEvent where
  | receives (command : Command) (answer : Answer)
  | executes (i : Nat) (outcome : Outcome)
  | called (i : Nat) (answer : Answer)
  | stop
deriving DecidableEq, Repr

/-- `ResetCtx`, with the descriptor open as `OnFileOpen` leaves it. -/
def CtxFile.resetCtx (ctx : CtxFile) : CtxFile :=
  { ctx with
    closeNotify := false
    indexIo := 0
    lastErrno := 0
    ioFinish := false
    closeReqSubmitted := false
    isFdOpen := true }

def OpenFile.opened (ctx : CtxFile) (isStableBuf : Bool) (content : Bytes) : OpenFile where
  task := { ctx := ctx.resetCtx, isStableBuf := isStableBuf, file := content }

namespace OpenFile

/-- A request that is issued goes to the descriptor as it stands before the step: where a
step both issues a request and closes, it closes last. -/
def become (file : OpenFile) (task : Task) : OpenFile :=
  { file with
    task := task
    strayed := file.strayed ||
      (!file.task.ctx.isFdOpen && decide (file.task.submitted.length < task.submitted.length)) }

/-- After `StopTask` nothing is sent any more, and `DispatchTaskData` hands on no command. -/
def hears (file : OpenFile) (answer : Answer) : Answer :=
  { answer with sent := answer.sent && !file.stopped }

def step (lz4 : Lz4) (file : OpenFile) : FileEvent → OpenFile
  | .receives command answer =>
    if file.stopped then file
    else file.become (file.task.commandDispatch lz4 command (file.hears answer)).2.1
  -- carrying out a request moves it from one list to the other and issues none
  | .executes i outcome => { file with task := file.task.execute i outcome }
  | .called i answer => file.become (file.task.callback lz4 i (file.hears answer)).1
  | .stop => { file with stopped := true }

def run (lz4 : Lz4) (file : OpenFile) (events : List FileEvent) : OpenFile :=
  events.foldl (step lz4) file

end OpenFile

/-! ### Runs that are fine -/

/-- The requests whose completion is still to come. -/
def Task.outstanding (task : Task) : Nat := task.submitted.length + task.executed.length

/-- The completion that ends the file on its side: an error, a short write, or a write that
reaches the size of the file or moves nothing. -/
def Task.EndsFile (task : Task) (io : CtxFileIo) (result : Int) : Prop :=
  result < 0 ∨ task.ctx.master = false ∧
    ((io.bytes : Int) ≠ result ∨ task.ctx.fileSize ≤ task.ctx.indexIo + result.toNat ∨
      result.toNat = 0)

/-- A data frame that is well formed, fits the buffer of the task and whose write can be
issued. -/
def Accepted (lz4 : Lz4) (bufMaxSize : Nat) (data : Bytes) (io : IoAnswer) : Prop :=
  let pld := parseFromString transferPayloadFields ⟨0, 0, 0, 0⟩ (data.take payloadPrefixReserve)
  payloadPrefixReserve ≤ data.length ∧
    pld.compressSize.toNat ≤ data.length - payloadPrefixReserve ∧
    pld.uncompressSize.toNat ≤ maxSizeIobuf ∧ pld.uncompressSize.toNat ≤ bufMaxSize ∧
    io = .submitted ∧
    ∃ clearBuf,
      clearBody lz4 pld ((data.drop payloadPrefixReserve).take pld.compressSize.toNat) =
        some clearBuf ∧
      clearBuf.length = pld.uncompressSize.toNat ∧
      (pld.compressType = compressNone → clearBuf.length ≤ data.length - payloadPrefixReserve)

/-- No data frame is refused while the file is going on, and the completion that ends the
file is the last one that is outstanding. -/
def OpenFile.Fine (lz4 : Lz4) (file : OpenFile) : FileEvent → Prop
  | .receives (.data payload) answer =>
    file.stopped = true ∨ file.task.ctx.ioFinish = true ∨ hdcBufMaxBytes < payload.length ∨
      Accepted lz4 file.task.ctx.bufMaxSize payload answer.io
  | .called i _ => file.task.ctx.ioFinish = true ∨ file.task.outstanding = 1 ∨
    ∀ io result, file.task.executed[i]? = some (io, result) → ¬ file.task.EndsFile io result
  | _ => True

/-! ### What holds then -/

/-- Nothing asks for `WhenTransferFinish`. -/
structure Task.Quiet (task : Task) : Prop where
  finishes : task.finishes = []
  closeNotify : task.ctx.closeNotify = false
  lastErrno : task.ctx.lastErrno = 0

/-- A closed descriptor is one of a file that is over, and once the end was signalled no
completion is to come. -/
structure Task.Settled (task : Task) : Prop where
  closed : task.ctx.isFdOpen = false → task.ctx.ioFinish = true
  once : task.finishes.length ≤ 1
  quiet : task.outstanding ≠ 0 ∨ task.ctx.ioFinish = false → task.Quiet
  idle : task.ctx.closeReqSubmitted = false

namespace Task

/-- Everything the end of a file depends on is as before. -/
structure Tame (task other : Task) : Prop where
  isFdOpen : other.ctx.isFdOpen = task.ctx.isFdOpen
  ioFinish : other.ctx.ioFinish = task.ctx.ioFinish
  closeReqSubmitted : other.ctx.closeReqSubmitted = task.ctx.closeReqSubmitted
  closeNotify : other.ctx.closeNotify = task.ctx.closeNotify
  lastErrno : other.ctx.lastErrno = task.ctx.lastErrno
  finishes : other.finishes = task.finishes
  executed : other.executed = task.executed

theorem Tame.refl (task : Task) : task.Tame task := by
  constructor <;> rfl

theorem Quiet.of_tame {task after : Task} (quiet : task.Quiet) (tame : task.Tame after) :
    after.Quiet where
  finishes := tame.finishes.trans quiet.finishes
  closeNotify := tame.closeNotify.trans quiet.closeNotify
  lastErrno := tame.lastErrno.trans quiet.lastErrno

/-- A request is issued only while the file is going on. -/
theorem simpleFileIo_tame (task : Task) (index : Nat) (sendBuf : Bytes) (bytes : Nat)
    (answer : IoAnswer) :
    let after := (task.simpleFileIo index sendBuf bytes answer).2
    task.Tame after ∧ (after.submitted = task.submitted ∨ task.ctx.ioFinish = false) := by
  rw [simpleFileIo]
  split_ifs with _ _ _ finished _ _
  all_goals first
    | exact ⟨Tame.refl task, .inl rfl⟩
    | exact ⟨⟨rfl, rfl, rfl, rfl, rfl, rfl, rfl⟩, .inr (Bool.eq_false_iff.mpr finished)⟩

theorem Settled.of_tame {task after : Task} (settled : task.Settled) (tame : task.Tame after)
    (issues : after.submitted = task.submitted ∨ task.ctx.ioFinish = false) : after.Settled where
  closed := by
    rw [tame.isFdOpen, tame.ioFinish]
    exact settled.closed
  once := by
    rw [tame.finishes]
    exact settled.once
  quiet := by
    intro going
    have quiet : task.Quiet := by
      apply settled.quiet
      rcases issues with same | active
      · rw [outstanding, same, tame.executed, tame.ioFinish] at going
        exact going
      · exact .inr active
    exact quiet.of_tame tame
  idle := tame.closeReqSubmitted.trans settled.idle

/-! ### The end of a file -/

theorem onFileClose_ioFinish (task : Task) (answer : Answer) :
    (task.onFileClose answer).1.ctx.ioFinish = task.ctx.ioFinish := by
  rw [onFileClose]
  split <;> rfl

variable {task : Task}

/-- Closing signals the end at most once more, and not at all where nothing asks for it. -/
theorem procressFileIoFinish_signals (idle : task.ctx.closeReqSubmitted = false) (answer : Answer) :
    let after := (task.procressFileIoFinish answer).1
    after.ctx.ioFinish = task.ctx.ioFinish ∧ after.ctx.closeReqSubmitted = false ∧
      after.finishes.length ≤ task.finishes.length + 1 ∧ (task.Quiet → after.Quiet) := by
  by_cases clean : task.ctx.lastErrno = 0
  · obtain ⟨errno, submitted, notify, finishes⟩ := procressFileIoFinish_clean clean idle answer
    have both : task.ctx.closeCtxFd.lastErrno = 0 ∧ task.ctx.closeCtxFd.closeReqSubmitted = false :=
      ⟨clean, idle⟩
    refine ⟨?_, submitted, ?_, fun quiet => ⟨?_, notify.trans quiet.closeNotify, errno⟩⟩
    · rw [procressFileIoFinish]
      rw [if_pos both, onFileClose_ioFinish]
      rfl
    · rw [finishes]
      split <;> simp
    · rw [finishes, quiet.closeNotify, quiet.finishes]
      rfl
  · have unclean : ¬ (task.ctx.closeCtxFd.lastErrno = 0 ∧
        task.ctx.closeCtxFd.closeReqSubmitted = false) := fun both => clean both.1
    rw [procressFileIoFinish]
    rw [if_neg unclean]
    refine ⟨rfl, idle, ?_, fun quiet => absurd quiet.lastErrno clean⟩
    simp [whenTransferFinish]

/-- `OnFileIO` after `ProcressFileIO` has returned `true`. -/
theorem finish_settled (idle : task.ctx.closeReqSubmitted = false)
    (fine : task.Quiet ∨ task.outstanding = 0 ∧ task.finishes = []) (answer : Answer) :
    ({ task with ctx := { task.ctx with ioFinish := true } }.procressFileIoFinish answer).1.Settled := by
  have same := ({ task with ctx := { task.ctx with ioFinish := true } }.procressFileIoFinish_spec
    answer).1
  obtain ⟨past, stillIdle, signals, quiet⟩ := procressFileIoFinish_signals
    (show { task with ctx := { task.ctx with ioFinish := true } }.ctx.closeReqSubmitted = false
      from idle) answer
  have none : task.finishes = [] := fine.elim Quiet.finishes And.right
  refine ⟨fun _ => past, ?_, fun going => ?_, stillIdle⟩
  · refine signals.trans ?_
    simp [none]
  · rcases fine with wasQuiet | ⟨last, -⟩
    · exact quiet { wasQuiet with }
    · rw [outstanding, same.submitted, same.executed, past] at going
      rcases going with more | unfinished
      · exact absurd last more
      · cases unfinished

variable {io : CtxFileIo} {result : Int}

/-- A result that is not a success ends the file. -/
theorem procressFileIoIsSuccess_false {space : Space}
    (failed : (task.procressFileIoIsSuccess io result space).1 = false) :
    task.EndsFile io result := by
  rw [procressFileIoIsSuccess.eq_def] at failed
  split_ifs at failed with negative isMaster whole
  · exact .inl negative
  · exact .inr ⟨Bool.eq_false_iff.mpr isMaster, .inl whole⟩

theorem procressFileIoIsSuccess_keeps (task : Task) (io : CtxFileIo) (result : Int) (space : Space) :
    let after := (task.procressFileIoIsSuccess io result space).2
    after.finishes = task.finishes ∧ after.outstanding = task.outstanding ∧
      after.ctx.closeReqSubmitted = task.ctx.closeReqSubmitted := by
  rw [procressFileIoIsSuccess.eq_def]
  split_ifs
  all_goals first
    | exact ⟨rfl, rfl, rfl⟩
    | cases space <;> exact ⟨rfl, rfl, rfl⟩

/-- What `ProcressFileIO` leaves for the end of the file, or for going on. -/
def Prepared (task : Task) (processed : Bool × Task × List Command) : Prop :=
  if processed.1 then
    processed.2.1.ctx.closeReqSubmitted = false ∧
      (processed.2.1.Quiet ∨ processed.2.1.outstanding = 0 ∧ processed.2.1.finishes = [])
  else
    task.ctx.ioFinish = false ∧ task.Tame processed.2.1

/-- The bytes that were counted are of no account. -/
theorem Prepared.counted {task : Task} {processed : Bool × Task × List Command} {indexIo : Nat}
    (prepared : { task with ctx := { task.ctx with indexIo } }.Prepared processed) :
    task.Prepared processed := by
  rw [Prepared] at prepared ⊢
  split at prepared
  case isTrue past => rwa [if_pos past]
  case isFalse going =>
    rw [if_neg going]
    exact ⟨prepared.1, { prepared.2 with }⟩

variable (lz4 : Lz4)

section

variable (quiet : task.Quiet) (active : task.ctx.ioFinish = false)
  (idle : task.ctx.closeReqSubmitted = false)
include quiet active idle

theorem procressFileIoRead_prepared (io : CtxFileIo) (result : Nat) (answer : Answer) :
    task.Prepared (task.procressFileIoRead lz4 io result answer) := by
  rw [procressFileIoRead]
  split_ifs
  · exact ⟨idle, .inl quiet⟩
  · exact ⟨idle, .inl quiet⟩
  · exact ⟨active, (simpleFileIo_tame ..).1⟩
  · exact ⟨idle, .inl quiet⟩

theorem procressFileIoWrite_prepared (result : Nat) (commands : List Command)
    (last : task.ctx.fileSize ≤ task.ctx.indexIo ∨ result = 0 → task.outstanding = 0) :
    task.Prepared ((task.procressFileIoWrite result).1, (task.procressFileIoWrite result).2,
    commands) := by
  rw [procressFileIoWrite]
  split
  case isTrue complete => exact ⟨idle, .inr ⟨last complete, quiet.finishes⟩⟩
  case isFalse => exact ⟨active, Tame.refl task⟩

end

section

variable (settled : task.Settled) (quiet : task.Quiet) (answer : Answer)
  (fine : task.ctx.ioFinish = true ∨ task.outstanding = 0 ∨ ¬ task.EndsFile io result)
include settled quiet answer fine

theorem procressFileIo_prepared : task.Prepared (task.procressFileIo lz4 io result answer) := by
  rw [procressFileIo]
  split
  case isTrue => exact ⟨settled.idle, .inl quiet⟩
  case isFalse past =>
    have last : task.EndsFile io result → task.outstanding = 0 := by
      intro ends
      rcases fine with finished | none | others
      · exact absurd finished past
      · exact none
      · exact absurd ends others
    dsimp only
    by_cases failed : (task.procressFileIoIsSuccess io result answer.space).1 = false
    · obtain ⟨finishes, outstanding, idle⟩ :=
        task.procressFileIoIsSuccess_keeps io result answer.space
      rw [if_pos failed]
      refine ⟨idle.trans settled.idle, .inr ⟨?_, finishes.trans quiet.finishes⟩⟩
      exact outstanding.trans (last (procressFileIoIsSuccess_false failed))
    · rw [if_neg failed]
      have active : task.ctx.ioFinish = false := Bool.eq_false_iff.mpr past
      have counted : { task with
          ctx := { task.ctx with indexIo := task.ctx.indexIo + result.toNat } }.Quiet := { quiet with }
      split
      case isTrue =>
        exact (procressFileIoRead_prepared _ counted active settled.idle _ _ _).counted
      case isFalse notMaster =>
        refine (procressFileIoWrite_prepared counted active settled.idle _ [] ?_).counted
        intro complete
        exact last (.inr ⟨Bool.eq_false_iff.mpr notMaster, .inr complete⟩)

/-- `OnFileIO` for a request that was taken out of the list. -/
theorem onFileIo_settled : (task.onFileIo lz4 io result answer).1.Settled := by
  have prepared := procressFileIo_prepared lz4 settled quiet answer fine
  rw [onFileIo]
  generalize task.procressFileIo lz4 io result answer = processed at prepared
  obtain ⟨past, after, _⟩ := processed
  cases past with
  | true => exact finish_settled prepared.1 prepared.2 _
  | false =>
    obtain ⟨active, tame⟩ := prepared
    have goes : task.Tame { after with ctx := { after.ctx with ioFinish := false } } :=
      { tame with ioFinish := active.symm }
    exact settled.of_tame goes (.inr active)

end

theorem onFileIo_over (past : task.ctx.ioFinish = true) (io : CtxFileIo)
    (result : Int) (answer : Answer) :
    (task.onFileIo lz4 io result answer).1.submitted = task.submitted := by
  have skipped : task.procressFileIo lz4 io result answer = (true, task, []) := by
    rw [procressFileIo, if_pos past]
  rw [onFileIo, skipped]
  exact (procressFileIoFinish_spec ..).1.submitted

/-! ### Commands of the peer -/

/-- A piece that is received issues one write at most. -/
theorem simpleFileIo_issued (active : task.ctx.ioFinish = false) (index : Nat) (sendBuf : Bytes)
    (io : IoAnswer) : ¬ (task.simpleFileIo index sendBuf sendBuf.length io).1 < 0 ↔
    sendBuf.length ≤ task.ctx.bufMaxSize ∧ io = .submitted := by
  have copied : ¬ (task.ctx.master = false ∧ 0 < sendBuf.length ∧ sendBuf = []) := by
    rintro ⟨-, some, rfl⟩
    exact Nat.lt_irrefl 0 some
  rw [simpleFileIo, if_neg copied, active]
  cases io with
  | submitted => by_cases fits : task.ctx.bufMaxSize < sendBuf.length <;> simp [fits]; omega
  | noBuffer => simp
  | noContext => simp
  | refused => by_cases fits : task.ctx.bufMaxSize < sendBuf.length <;> simp [fits]

/-- `RecvIOPayload` takes exactly the frames that are accepted, while the file is going on. -/
theorem recvIoPayload_accepted (active : task.ctx.ioFinish = false) (payload : Bytes)
    (answer : Answer) : (recvIoPayload lz4 task payload answer).1 = true ↔
    Accepted lz4 task.ctx.bufMaxSize payload answer.io := by
  rw [recvIoPayload, Accepted]
  generalize parseFromString transferPayloadFields ⟨0, 0, 0, 0⟩
    (payload.take payloadPrefixReserve) = pld
  dsimp only
  split
  case isTrue short =>
    simp only [Bool.false_eq_true, false_iff]
    omega
  case isFalse long =>
    split
    case isTrue wrong =>
      simp only [Bool.false_eq_true, false_iff]
      omega
    case isFalse sizes =>
      cases cleared : clearBody lz4 pld
          ((payload.drop payloadPrefixReserve).take pld.compressSize.toNat) with
      | none => simp
      | some clearBuf =>
        have issued := simpleFileIo_issued active pld.index.toNat clearBuf answer.io
        simp only [Option.some.injEq, exists_eq_left']
        split_ifs with differs plain fails
        · simp only [false_iff]
          exact fun all => differs all.2.2.2.2.2.1
        · simp only [false_iff]
          intro all
          have := all.2.2.2.2.2.2 plain.1
          omega
        · simp only [false_iff]
          intro all
          exact issued.mpr ⟨all.2.2.2.2.2.1.trans_le all.2.2.2.1, all.2.2.2.2.1⟩ fails
        · obtain ⟨_, submitted⟩ := issued.mp fails
          simp only [true_iff]
          refine ⟨by omega, by omega, by omega, by omega, submitted, by omega, fun none => ?_⟩
          by_contra past
          exact plain ⟨none, by omega⟩

theorem recvIoPayload_tame (task : Task) (payload : Bytes) (answer : Answer) :
    let after := (recvIoPayload lz4 task payload answer).2
    task.Tame after ∧ (after.submitted = task.submitted ∨ task.ctx.ioFinish = false) := by
  have nothing : task.Tame task ∧ (task.submitted = task.submitted ∨ task.ctx.ioFinish = false) :=
    ⟨Tame.refl task, .inl rfl⟩
  rw [recvIoPayload]
  dsimp only
  split_ifs
  · exact nothing
  · exact nothing
  · split
    · exact nothing
    · split_ifs
      · exact nothing
      · exact nothing
      · exact simpleFileIo_tame ..
      · exact simpleFileIo_tame ..

/-- What a command does that is not a refused data frame and not `CMD_FILE_FINISH`. -/
theorem commandBegin_tame (task : Task) (features : Bytes) (answer : Answer) :
    let after := (task.commandDispatch lz4 (.begin features) answer).2.1
    task.Tame after ∧ (after.submitted = task.submitted ∨ task.ctx.ioFinish = false) := by
  rw [commandDispatch]
  cases checked : task.checkFeatures features with
  | none => exact ⟨Tame.refl task, .inl rfl⟩
  | some known =>
    obtain ⟨_, _, rfl⟩ := checkFeatures_eq checked
    dsimp only
    split
    · exact ⟨{ Tame.refl task with }, .inl rfl⟩
    · split
      · exact (simpleFileIo_tame ..).imp_left fun tame => { tame with }
      · exact (simpleFileIo_tame ..).imp_left fun tame => { tame with }

theorem commandDispatch_over (past : task.ctx.ioFinish = true) (command : Command)
    (answer : Answer) :
    (task.commandDispatch lz4 command answer).2.1.submitted = task.submitted := by
  have kept : ∀ {after : Task}, task.Tame after ∧
      (after.submitted = task.submitted ∨ task.ctx.ioFinish = false) →
      after.submitted = task.submitted := by
    rintro after ⟨-, same | active⟩
    · exact same
    · rw [past] at active
      cases active
  cases command with
  | begin features => exact kept (commandBegin_tame _ task _ _)
  | data payload =>
    have same := kept (recvIoPayload_tame lz4 task payload answer)
    rw [commandDispatch]
    split
    · rfl
    · dsimp only
      split
      · exact same
      · exact same
  | finish flag =>
    rw [commandDispatch]
    split <;> rfl

theorem commandDispatch_settled (settled : task.Settled)
    (command : Command) (answer : Answer)
    (fine : ∀ payload, command = .data payload → task.ctx.ioFinish = true ∨
    hdcBufMaxBytes < payload.length ∨ Accepted lz4 task.ctx.bufMaxSize payload answer.io) :
    (task.commandDispatch lz4 command answer).2.1.Settled := by
  cases command with
  | begin features =>
    obtain ⟨tame, issues⟩ := commandBegin_tame lz4 task features answer
    exact settled.of_tame tame issues
  | data payload =>
    obtain ⟨tame, issues⟩ := recvIoPayload_tame lz4 task payload answer
    have received := settled.of_tame tame issues
    rw [commandDispatch]
    split
    case isTrue => exact settled
    case isFalse inBounds =>
      dsimp only
      split
      case isTrue => exact received
      case isFalse refused =>
        -- a refused frame closes the descriptor, so the file must be over
        have past : task.ctx.ioFinish = true := by
          rcases fine payload rfl with past | large | accepted
          · exact past
          · exact absurd large inBounds
          · by_contra active
            exact refused
              ((recvIoPayload_accepted _ (Bool.eq_false_iff.mpr active) _ _).mpr accepted)
        exact ⟨fun _ => tame.ioFinish.trans past, received.once,
          fun going => { received.quiet going with }, received.idle⟩
  | finish flag =>
    rw [commandDispatch]
    split
    · refine ⟨fun _ => rfl, settled.once, fun going => ?_, settled.idle⟩
      have quiet := settled.quiet (going.imp_right fun unfinished => by cases unfinished)
      exact { quiet with }
    · exact { settled with quiet := fun going => { settled.quiet going with } }

/-! ### Threads -/

/-- Carrying out a request moves it to those that were carried out. -/
theorem execute_moves (task : Task) (i : Nat) (outcome : Outcome) : task.execute i outcome = task ∨
    i < task.submitted.length ∧ (task.execute i outcome).ctx = task.ctx ∧
    (task.execute i outcome).finishes = task.finishes ∧
    (task.execute i outcome).submitted = task.submitted.eraseIdx i ∧
    (task.execute i outcome).executed.length = task.executed.length + 1 := by
  cases here : task.submitted[i]? with
  | none =>
    left
    rw [execute, here]
  | some io =>
    obtain ⟨inside, -⟩ := List.getElem?_eq_some_iff.mp here
    right
    rw [execute, here]
    dsimp only
    split
    · split <;> exact ⟨inside, rfl, rfl, rfl, length_append⟩
    · split <;> exact ⟨inside, rfl, rfl, rfl, length_append⟩

theorem execute_settled (settled : task.Settled) (i : Nat) (outcome : Outcome) :
    (task.execute i outcome).Settled := by
  rcases task.execute_moves i outcome with same | ⟨inside, ctx, finishes, submitted, executed⟩
  · rw [same]
    exact settled
  · have outstanding : (task.execute i outcome).outstanding = task.outstanding := by
      rw [Task.outstanding, Task.outstanding, submitted, executed,
        length_eraseIdx_of_lt inside]
      omega
    refine ⟨?_, ?_, fun going => ?_, ?_⟩
    · rw [ctx]
      exact settled.closed
    · rw [finishes]
      exact settled.once
    · rw [outstanding, ctx] at going
      have quiet := settled.quiet going
      exact ⟨finishes.trans quiet.finishes, by rw [ctx]; exact quiet.closeNotify,
        by rw [ctx]; exact quiet.lastErrno⟩
    · rw [ctx]
      exact settled.idle

theorem callback_settled (settled : task.Settled) (i : Nat)
    (answer : Answer) (fine : task.ctx.ioFinish = true ∨ task.outstanding = 1 ∨
    ∀ io result, task.executed[i]? = some (io, result) → ¬ task.EndsFile io result) :
    (task.callback lz4 i answer).1.Settled := by
  rw [callback]
  cases here : task.executed[i]? with
  | none => exact settled
  | some done =>
    obtain ⟨io, result⟩ := done
    obtain ⟨inside, -⟩ := List.getElem?_eq_some_iff.mp here
    have counted : task.outstanding =
        { task with executed := task.executed.eraseIdx i }.outstanding + 1 := by
      change task.submitted.length + task.executed.length =
        task.submitted.length + (task.executed.eraseIdx i).length + 1
      rw [length_eraseIdx_of_lt inside]
      omega
    have quiet : task.Quiet := settled.quiet (.inl (by omega))
    have taken : { task with executed := task.executed.eraseIdx i }.Settled :=
      { settled with quiet := fun _ => { quiet with } }
    refine onFileIo_settled _ taken { quiet with } _ ?_
    rcases fine with past | last | others
    · exact .inl past
    · exact .inr (.inl (by omega))
    · exact .inr (.inr (others _ _ here))

theorem callback_over (past : task.ctx.ioFinish = true) (i : Nat) (answer : Answer) :
    (task.callback lz4 i answer).1.submitted = task.submitted := by
  rw [callback]
  split
  · rfl
  next io result _ =>
    have overThen : { task with executed := task.executed.eraseIdx i }.ctx.ioFinish = true := past
    exact onFileIo_over _ overThen _ _ _

end Task

/-! ### Runs -/

/-- A file that is settled and has had no request issued on a closed descriptor. -/
structure OpenFile.Settled (file : OpenFile) : Prop where
  task : file.task.Settled
  kept : file.strayed = false

namespace OpenFile

theorem opened_settled (ctx : CtxFile) (isStableBuf : Bool) (content : Bytes) :
    (opened ctx isStableBuf content).Settled where
  task := ⟨fun closed => (nomatch closed), Nat.zero_le _, fun _ => ⟨rfl, rfl, rfl⟩, rfl⟩
  kept := rfl

variable {file : OpenFile} {task : Task}

theorem become_settled (settled : file.Settled) (after : task.Settled)
    (past : file.task.ctx.ioFinish = true → task.submitted = file.task.submitted) :
    (file.become task).Settled := by
  refine ⟨after, ?_⟩
  change (file.strayed || (!file.task.ctx.isFdOpen && decide _)) = false
  rw [settled.kept]
  cases isOpen : file.task.ctx.isFdOpen with
  | true => rfl
  | false =>
    rw [past (settled.task.closed isOpen)]
    simp

variable (lz4 : Lz4)

/-- A step that is fine keeps it. -/
theorem settled_step (settled : file.Settled) {event : FileEvent}
    (fine : file.Fine lz4 event) : (file.step lz4 event).Settled := by
  cases event with
  | receives command answer =>
    rw [step]
    split
    case isTrue => exact settled
    case isFalse listens =>
      apply become_settled settled
      · apply Task.commandDispatch_settled _ settled.task
        rintro payload rfl
        exact fine.resolve_left listens
      · intro past
        exact Task.commandDispatch_over _ past _ _
  | executes i outcome => exact ⟨Task.execute_settled settled.task i _, settled.kept⟩
  | called i answer =>
    apply become_settled settled
    · exact Task.callback_settled _ settled.task i _ fine
    · intro past
      exact Task.callback_over _ past i _
  | stop => exact ⟨settled.task, settled.kept⟩

/-! ### Steps that are not fine -/

/-- The end was signalled, and every further completion signals it again. -/
structure Signalled (task : Task) : Prop where
  past : task.ctx.ioFinish = true
  notify : task.ctx.closeNotify = true
  idle : task.ctx.closeReqSubmitted = false

theorem finish_signals (notify : task.ctx.closeNotify = true)
    (idle : task.ctx.closeReqSubmitted = false) (answer : Answer) :
    let after := ({ task with ctx := { task.ctx with ioFinish := true } }.procressFileIoFinish
      answer).1
    Signalled after ∧ after.finishes.length = task.finishes.length + 1 ∧
      after.outstanding = task.outstanding := by
  have same := ({ task with ctx := { task.ctx with ioFinish := true } }.procressFileIoFinish_spec
    answer).1
  obtain ⟨past, stillIdle, -, -⟩ := Task.procressFileIoFinish_signals
    (show { task with ctx := { task.ctx with ioFinish := true } }.ctx.closeReqSubmitted = false
      from idle) answer
  refine ⟨⟨past, ?_, stillIdle⟩, ?_, by rw [Task.outstanding, same.submitted, same.executed]; rfl⟩
  · rw [Task.procressFileIoFinish]
    split
    · exact (Task.onFileClose_flags ..).2.2.1.trans notify
    · exact notify
  · rw [Task.procressFileIoFinish]
    dsimp only
    split
    · rw [(Task.onFileClose_flags ..).2.2.2]
      simp [CtxFile.closeCtxFd, notify]
    · simp [Task.whenTransferFinish]

variable {io : CtxFileIo} {result : Int}

/-- The completion that ends the file asks for the signal. -/
theorem procressFileIo_ends (active : task.ctx.ioFinish = false)
    (ends : task.EndsFile io result) (answer : Answer) :
    let processed := task.procressFileIo lz4 io result answer
    processed.1 = true ∧ processed.2.1.ctx.closeNotify = true ∧
      processed.2.1.ctx.closeReqSubmitted = task.ctx.closeReqSubmitted ∧
      processed.2.1.finishes = task.finishes ∧ processed.2.1.outstanding = task.outstanding := by
  obtain ⟨finishes, outstanding, idle⟩ := task.procressFileIoIsSuccess_keeps io result answer.space
  rw [Task.procressFileIo, if_neg (Bool.eq_false_iff.mp active)]
  by_cases failed : (task.procressFileIoIsSuccess io result answer.space).1 = false
  · rw [if_pos failed]
    exact ⟨rfl, rfl, idle, finishes, outstanding⟩
  · rw [if_neg failed]
    rw [Task.procressFileIoIsSuccess.eq_def] at failed
    split_ifs at failed with negative isMaster whole
    · exact absurd rfl failed
    · rcases ends with negativeToo | ⟨slave, -⟩
      · exact absurd negativeToo negative
      · rw [slave] at isMaster
        cases isMaster
    · rw [if_neg isMaster]
      have complete : task.ctx.fileSize ≤ task.ctx.indexIo + result.toNat ∨ result.toNat = 0 := by
        rcases ends with negativeToo | ⟨-, short | complete⟩
        · exact absurd negativeToo negative
        · exact absurd whole short
        · exact complete
      rw [Task.procressFileIoWrite, if_pos complete]
      exact ⟨rfl, rfl, rfl, rfl, rfl⟩
    · cases space : answer.space <;> simp [space] at failed

theorem onFileIo_signals (idle : task.ctx.closeReqSubmitted = false)
    (asks : Signalled task ∨ task.ctx.ioFinish = false ∧ task.EndsFile io result)
    (answer : Answer) :
    let after := (task.onFileIo lz4 io result answer).1
    Signalled after ∧ after.finishes.length = task.finishes.length + 1 ∧
      after.outstanding = task.outstanding := by
  rcases asks with signalled | ⟨active, ends⟩
  · have skipped : task.procressFileIo lz4 io result answer = (true, task, []) := by
      rw [Task.procressFileIo, if_pos signalled.past]
    rw [Task.onFileIo, skipped]
    exact finish_signals signalled.notify idle _
  · have processed := procressFileIo_ends lz4 active ends answer
    rw [Task.onFileIo]
    generalize task.procressFileIo lz4 io result answer = out at processed
    obtain ⟨past, after, _⟩ := out
    obtain ⟨rfl, notify, idleThen, finishes, outstanding⟩ := processed
    obtain ⟨signalled, more, rest⟩ := finish_signals notify (idleThen.trans idle) answer
    exact ⟨signalled, more.trans (by rw [finishes]), rest.trans outstanding⟩

/-- `OnFileIO` for a request that was carried out. -/
theorem callback_signals (idle : task.ctx.closeReqSubmitted = false) {i : Nat}
    (here : task.executed[i]? = some (io, result))
    (asks : Signalled task ∨ task.ctx.ioFinish = false ∧ task.EndsFile io result)
    (answer : Answer) :
    let after := (task.callback lz4 i answer).1
    Signalled after ∧ after.finishes.length = task.finishes.length + 1 ∧
      after.outstanding + 1 = task.outstanding := by
  obtain ⟨inside, -⟩ := List.getElem?_eq_some_iff.mp here
  have idleThen : { task with executed := task.executed.eraseIdx i }.ctx.closeReqSubmitted = false :=
    idle
  have asksThen : Signalled { task with executed := task.executed.eraseIdx i } ∨
      { task with executed := task.executed.eraseIdx i }.ctx.ioFinish = false ∧
        { task with executed := task.executed.eraseIdx i }.EndsFile io result :=
    asks.imp_left fun signalled => ⟨signalled.past, signalled.notify, signalled.idle⟩
  obtain ⟨signalled, more, rest⟩ := onFileIo_signals lz4 idleThen asksThen answer
  rw [Task.callback, here]
  refine ⟨signalled, more, ?_⟩
  rw [rest]
  change task.submitted.length + (task.executed.eraseIdx i).length + 1 =
    task.submitted.length + task.executed.length
  rw [length_eraseIdx_of_lt inside]
  omega

/-- What is claimed: the end is signalled once at most, and nothing is issued on a closed
descriptor. -/
def Sound (file : OpenFile) : Prop := file.task.finishes.length ≤ 1 ∧ file.strayed = false

/-- An answer by which everything works. -/
def works : Answer := ⟨.submitted, true, true, true, .free 0⟩

/-- A completion that comes after the end was signalled signals it again. -/
theorem signalled_again (signalled : Signalled file.task)
    (once : file.task.finishes.length = 1) (more : file.task.outstanding ≠ 0) :
    ∃ events, ¬ (file.run lz4 events).Sound := by
  -- the request at the head of those that were carried out
  have call : ∀ {task : Task}, Signalled task → task.finishes.length = 1 → task.executed ≠ [] →
      ¬ (task.callback lz4 0 (file.hears works)).1.finishes.length ≤ 1 := by
    intro task signalled once some
    obtain ⟨⟨io, result⟩, rest, executed⟩ := exists_cons_of_ne_nil some
    have here : task.executed[0]? = .some (io, result) := by rw [executed]; rfl
    have again := (callback_signals lz4 signalled.idle here (.inl signalled) (file.hears works)).2.1
    omega
  by_cases carried : file.task.executed = []
  · have waiting : 0 < file.task.submitted.length := by
      rw [Task.outstanding, carried, length_nil] at more
      omega
    rcases file.task.execute_moves 0 .whole with same | ⟨-, ctx, finishes, -, executed⟩
    · -- a request that waits is carried out
      exfalso
      have moved : (file.task.execute 0 .whole).submitted.length < file.task.submitted.length := by
        obtain ⟨io, rest, submitted⟩ := exists_cons_of_length_pos waiting
        have here : file.task.submitted[0]? = some io := by rw [submitted]; rfl
        rw [Task.execute, here]
        dsimp only
        split
        · split <;> simp [submitted]
        · split <;> simp [submitted]
      rw [same] at moved
      exact Nat.lt_irrefl _ moved
    · refine ⟨[.executes 0 .whole, .called 0 works], fun sound => ?_⟩
      refine @call (file.task.execute 0 .whole) ?_ (by rw [finishes]; exact once) ?_ sound.1
      · exact ⟨by rw [ctx]; exact signalled.past, by rw [ctx]; exact signalled.notify,
          by rw [ctx]; exact signalled.idle⟩
      · intro none
        rw [none] at executed
        cases executed
  · exact ⟨[.called 0 works], fun sound => call signalled once carried sound.1⟩

/-- On a closed descriptor an empty piece is issued all the same. -/
theorem stray_issues (listens : file.stopped = false)
    (closed : file.task.ctx.isFdOpen = false) (active : file.task.ctx.ioFinish = false) :
    ∃ events, ¬ (file.run lz4 events).Sound := by
  have parsed : parseFromString transferPayloadFields ⟨0, 0, 0, 0⟩
      ((List.replicate 64 0).take payloadPrefixReserve) = ⟨0, 0, 0, 0⟩ := by rfl
  have io : file.task.simpleFileIo 0 [] 0 .submitted = (0, { file.task with
      submitted := file.task.submitted ++ [⟨0, 0, []⟩] }) := by
    simp [Task.simpleFileIo, active]
  have received : recvIoPayload lz4 file.task (List.replicate 64 0) (file.hears works) =
      (true, { file.task with submitted := file.task.submitted ++ [⟨0, 0, []⟩] }) := by
    rw [recvIoPayload, parsed]
    simp [payloadPrefixReserve, clearBody, hears, works, io]
  refine ⟨[.receives (.data (List.replicate 64 0)) works], fun sound => ?_⟩
  have strayed : (file.step lz4 (.receives (.data (List.replicate 64 0)) works)).strayed = false :=
    sound.2
  rw [step, if_neg (by rw [listens]; exact Bool.false_ne_true), Task.commandDispatch,
    if_neg (by simp [hdcBufMaxBytes]), received] at strayed
  simp [become, closed] at strayed

/-- A refused data frame leaves the descriptor closed and the file going on. -/
theorem refused_closes {payload : Bytes} (answer : Answer)
    (active : task.ctx.ioFinish = false) (inBounds : ¬ hdcBufMaxBytes < payload.length)
    (bad : ¬ Accepted lz4 task.ctx.bufMaxSize payload answer.io) :
    let after := (task.commandDispatch lz4 (.data payload) answer).2.1
    after.ctx.isFdOpen = false ∧ after.ctx.ioFinish = false := by
  obtain ⟨tame, -⟩ := Task.recvIoPayload_tame lz4 task payload answer
  have refused : ¬ (recvIoPayload lz4 task payload answer).1 = true :=
    fun taken => bad ((Task.recvIoPayload_accepted lz4 active payload answer).mp taken)
  rw [Task.commandDispatch, if_neg inBounds]
  rw [if_neg refused]
  exact ⟨rfl, tame.ioFinish.trans active⟩

/-- A step that is not fine can be followed by a violation. -/
theorem not_fine_breaks (settled : file.Settled) {event : FileEvent}
    (bad : ¬ file.Fine lz4 event) : ∃ more, ¬ ((file.step lz4 event).run lz4 more).Sound := by
  cases event with
  | receives command answer =>
    cases command with
    | data payload =>
      obtain ⟨listens, active, inBounds, refused⟩ : ¬ file.stopped = true ∧
          ¬ file.task.ctx.ioFinish = true ∧ ¬ hdcBufMaxBytes < payload.length ∧
          ¬ Accepted lz4 file.task.ctx.bufMaxSize payload answer.io := by
        simpa only [Fine, not_or] using bad
      obtain ⟨closed, goes⟩ :=
        refused_closes lz4 (file.hears answer) (Bool.eq_false_iff.mpr active) inBounds refused
      have after : file.step lz4 (.receives (.data payload) answer) = file.become
          (file.task.commandDispatch lz4 (.data payload) (file.hears answer)).2.1 := by
        rw [step, if_neg listens]
      rw [after]
      exact stray_issues _ (Bool.eq_false_iff.mpr listens) closed goes
    | begin features => exact absurd trivial bad
    | finish flag => exact absurd trivial bad
  | called i answer =>
    simp only [Fine, not_or, not_forall, not_not] at bad
    obtain ⟨active, _, io, _, here, ends⟩ := bad
    obtain ⟨signalled, once, _⟩ := callback_signals lz4 settled.task.idle here
      (.inr ⟨Bool.eq_false_iff.mpr active, ends⟩) (file.hears answer)
    have none := (settled.task.quiet (.inr (Bool.eq_false_iff.mpr active))).finishes
    rw [none] at once
    have left : (file.task.callback lz4 i (file.hears answer)).1.outstanding ≠ 0 := by omega
    exact signalled_again _ signalled once left
  | executes i outcome => exact absurd trivial bad
  | stop => exact absurd trivial bad

end OpenFile

open OpenFile in
/-- As long as every step is fine the end is signalled once at most and nothing is issued
on a closed descriptor; the first step that is not fine can be followed by a violation. -/
theorem completion_exact (lz4 : Lz4) (ctx : CtxFile) (isStableBuf : Bool) (content : Bytes) :
    (∀ events, ExactRuns.AllFine (step lz4) (Fine lz4) (opened ctx isStableBuf content) events →
      ∀ k, ((opened ctx isStableBuf content).run lz4 (events.take k)).Sound) ∧
    ∀ events event,
      ExactRuns.AllFine (step lz4) (Fine lz4) (opened ctx isStableBuf content) events →
      ¬ ((opened ctx isStableBuf content).run lz4 events).Fine lz4 event →
      ∃ more, ¬ ((opened ctx isStableBuf content).run lz4 (events ++ event :: more)).Sound := by
  have settled : ∀ events,
      ExactRuns.AllFine (step lz4) (Fine lz4) (opened ctx isStableBuf content) events →
      ∀ k, ((opened ctx isStableBuf content).run lz4 (events.take k)).Settled := by
    intro events fine k
    exact ExactRuns.inv_run OpenFile.Settled (opened_settled ctx _ _)
      (fun inv ok => settled_step _ inv ok) fun j _ event here => fine j _ here
  constructor
  · intro events fine k
    exact ⟨(settled _ fine k).task.once, (settled _ fine k).kept⟩
  · intro events event fine bad
    have before := settled _ fine events.length
    rw [take_length] at before
    obtain ⟨more, broken⟩ := not_fine_breaks lz4 before bad
    refine ⟨more, ?_⟩
    rw [OpenFile.run, foldl_append]
    exact broken

/-- The file of two bytes that a slave has opened. -/
def twoBytes : OpenFile := .opened ⟨false, 2, compressNone, false, 0, false, false, false, false,
  false, false, 0⟩ false []

def piece (index : UInt64) (byte : UInt8) : FileEvent :=
  .receives (.data (payloadPrefix ⟨index, compressNone, 1, 1⟩ ++ [byte])) OpenFile.works

/-- Two writes that fail for want of space signal the end twice; and after an empty data
frame the piece that comes next is written to the closed descriptor. -/
theorem ends_twice_and_strays :
    (twoBytes.run noLz4 [piece 0 1, piece 1 2, .executes 0 (.failed 28), .executes 0 (.failed 28),
      .called 0 OpenFile.works, .called 0 OpenFile.works]).task.finishes.length = 2 ∧
    (twoBytes.run noLz4 [.receives (.data []) OpenFile.works, piece 0 1]).strayed = true := by
  constructor
  · decide +kernel
  · decide +kernel

end Hdc.Transfer.Data
