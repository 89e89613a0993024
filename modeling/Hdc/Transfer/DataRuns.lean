import Hdc.Transfer.Pieces

/-!
A transfer delivers the file.

The pieces that the master read follow each other. Each of them is on its way, submitted,
carried out, counted, or lost, and it is in exactly one of these places. The slave counts
bytes: when it has counted as many as the file has, nothing is left in any of the other
places, so every byte was written where it belongs.

* `finish_delivers`: whenever `WhenTransferFinish` runs on the slave, the file is complete.
-/

namespace Hdc.Transfer.Data

open SerialStruct OffsetWrites List Nat

/-! ### What the end of a file changes -/

/-- The tasks differ in flags only. -/
structure Task.Same (task other : Task) : Prop where
  master : other.ctx.master = task.ctx.master
  fileSize : other.ctx.fileSize = task.ctx.fileSize
  indexIo : other.ctx.indexIo = task.ctx.indexIo
  file : other.file = task.file
  submitted : other.submitted = task.submitted
  executed : other.executed = task.executed
  log : other.log = task.log

/-- Only `CMD_FILE_FINISH`. -/
def OnlyFinish (commands : List Command) : Prop := ∀ command ∈ commands, ∃ flag, command = .finish flag

theorem onlyFinish_nil : OnlyFinish [] := fun _ mem => absurd mem not_mem_nil

theorem onlyFinish_sent (sent : Bool) (flag : UInt8) :
    OnlyFinish (if sent then [.finish flag] else []) := by
  cases sent with
  | true =>
    intro command mem
    exact ⟨_, mem_singleton.mp mem⟩
  | false => exact onlyFinish_nil

namespace Task

section

variable (task : Task) (answer : Answer)
include task answer

theorem whenTransferFinish_spec : task.Same (task.whenTransferFinish answer).1 ∧
    OnlyFinish (task.whenTransferFinish answer).2 :=
  ⟨⟨rfl, rfl, rfl, rfl, rfl, rfl, rfl⟩, onlyFinish_sent answer.sent 1⟩

theorem onFileClose_spec :
    task.Same (task.onFileClose answer).1 ∧ OnlyFinish (task.onFileClose answer).2 := by
  rw [onFileClose]
  split
  · obtain ⟨same, only⟩ := whenTransferFinish_spec
      { task with ctx := { task.ctx with closeReqSubmitted := false } } answer
    exact ⟨{ same with }, only⟩
  · exact ⟨⟨rfl, rfl, rfl, rfl, rfl, rfl, rfl⟩, onlyFinish_nil⟩

theorem procressFileIoFinish_spec : task.Same (task.procressFileIoFinish answer).1 ∧
    OnlyFinish (task.procressFileIoFinish answer).2 := by
  rw [procressFileIoFinish]
  split
  · obtain ⟨same, only⟩ := onFileClose_spec { task with
      ctx := { task.ctx.closeCtxFd with closeReqSubmitted := true } } answer
    exact ⟨{ same with }, only⟩
  · obtain ⟨same, only⟩ := whenTransferFinish_spec { task with ctx := task.ctx.closeCtxFd } answer
    exact ⟨{ same with }, only⟩

theorem onFileClose_flags : let after := (task.onFileClose answer).1
    after.ctx.lastErrno = task.ctx.lastErrno ∧ after.ctx.closeReqSubmitted = false ∧
      after.ctx.closeNotify = task.ctx.closeNotify ∧
      after.finishes = if task.ctx.closeNotify then task.finishes ++ [⟨task.file, task.log⟩]
        else task.finishes := by
  rcases task with ⟨⟨_, _, _, _, _, closeNotify, _, _, _, _, _, _⟩, _, _, _, _, _, _, _⟩
  cases closeNotify with
  | true => exact ⟨rfl, rfl, rfl, rfl⟩
  | false => exact ⟨rfl, rfl, rfl, rfl⟩

end

/-- Without an error the file is closed, and `WhenTransferFinish` runs if it was asked for. -/
theorem procressFileIoFinish_clean {task : Task} (clean : task.ctx.lastErrno = 0)
    (closed : task.ctx.closeReqSubmitted = false) (answer : Answer) :
    let after := (task.procressFileIoFinish answer).1
    after.ctx.lastErrno = 0 ∧ after.ctx.closeReqSubmitted = false ∧
      after.ctx.closeNotify = task.ctx.closeNotify ∧
      after.finishes = if task.ctx.closeNotify then task.finishes ++ [⟨task.file, task.log⟩]
        else task.finishes := by
  have both : task.ctx.closeCtxFd.lastErrno = 0 ∧ task.ctx.closeCtxFd.closeReqSubmitted = false :=
    ⟨clean, closed⟩
  rw [procressFileIoFinish]
  rw [if_pos both]
  obtain ⟨errno, submitted, notify, finishes⟩ := onFileClose_flags { task with
    ctx := { task.ctx.closeCtxFd with closeReqSubmitted := true } } answer
  exact ⟨errno.trans clean, submitted, notify, finishes⟩

/-- `SimpleFileIO` submits one request, or changes nothing. -/
theorem simpleFileIo_spec (task : Task) (index : Nat) (sendBuf : Bytes) (bytes : Nat)
    (answer : IoAnswer) :
    task.simpleFileIo index sendBuf bytes answer = (-1, task) ∨
      task.simpleFileIo index sendBuf bytes answer = ((bytes : Int), { task with
        submitted := task.submitted ++
          [⟨index, bytes, if task.ctx.master then [] else sendBuf⟩] }) := by
  rw [simpleFileIo]
  split_ifs
  all_goals first
    | exact .inl rfl
    | exact .inr rfl

end Task

/-! ### The master -/

/-- A read that was carried out at `index`: an error, or what stands there. Nothing was
read only at the end. -/
def Got (content : Bytes) (index : Nat) (done : CtxFileIo × Int) : Prop :=
  done.2 < 0 ∨
    done.2 = (done.1.bufIo.length : Int) ∧ Write.In content ⟨index, done.1.bufIo⟩ ∧
      done.1.bufIo.length ≤ maxSizeIobuf ∧ index + done.1.bufIo.length ≤ content.length ∧
      (done.1.bufIo = [] → content.length ≤ index)

/-- The pieces that were taken follow each other, and at most one read is going on or will
be asked for (`begins`), at the place where they end. -/
structure Sending (content : Bytes) (begins : Nat) (master : Task) (taken : List (Write UInt8)) :
    Prop where
  isMaster : master.ctx.master = true
  size : master.ctx.fileSize = content.length
  source : master.file = content
  row : Consecutive 0 taken
  inside : ∀ write ∈ taken, write.In content
  full : ∀ write ∈ taken, write.data = [] → content = []
  read : total taken = master.ctx.indexIo
  most : master.ctx.indexIo ≤ content.length
  one : begins + master.submitted.length + master.executed.length ≤ 1
  more : begins + master.submitted.length + master.executed.length ≠ 0 →
    master.ctx.indexIo < content.length ∨ content = []
  asked : ∀ io ∈ master.submitted, io.index = master.ctx.indexIo ∧ 0 < io.bytes ∧
    io.bytes ≤ maxSizeIobuf
  got : ∀ done ∈ master.executed, Got content master.ctx.indexIo done

variable {result : Int} {io : CtxFileIo}

section Master

variable {content : Bytes} {begins : Nat} {master : Task} {taken : List (Write UInt8)}

theorem Sending.congr (sending : Sending content begins master taken) {other : Task}
    (same : master.Same other) : Sending content begins other taken := by
  obtain ⟨isMaster, size, source, row, inside, full, read, most, one, more, asked, got⟩ := sending
  obtain ⟨sameMaster, sameSize, sameIndex, sameFile, sameSubmitted, sameExecuted, -⟩ := same
  rw [← sameMaster] at isMaster
  rw [← sameSize] at size
  rw [← sameFile] at source
  rw [← sameIndex] at read most more asked got
  rw [← sameSubmitted] at one more asked
  rw [← sameExecuted] at one more got
  exact ⟨isMaster, size, source, row, inside, full, read, most, one, more, asked, got⟩

/-- A request to begin that comes to nothing. -/
theorem Sending.lower (sending : Sending content (begins + 1) master taken) :
    Sending content begins master taken :=
  { sending with
    one := by
      have := sending.one
      omega
    more := fun some => sending.more (by omega) }

theorem CtxFile.readSize_spec (ctx : CtxFile) : 0 < ctx.readSize ∧ ctx.readSize ≤ maxSizeIobuf := by
  rw [CtxFile.readSize]
  cases ctx.isStableBufSize with
  | true => decide
  | false => decide

/-- The next read, where none is going on. -/
theorem Sending.simpleFileIo (sending : Sending content begins master taken)
    (none : begins + master.submitted.length + master.executed.length = 0)
    (more : master.ctx.indexIo < content.length ∨ content = []) (answer : IoAnswer) :
    Sending content begins
    (master.simpleFileIo master.ctx.indexIo [] master.ctx.readSize answer).2 taken := by
  rcases master.simpleFileIo_spec master.ctx.indexIo [] master.ctx.readSize answer with fails | asks
  · rw [fails]
    exact sending
  · rw [asks]
    obtain ⟨positive, bounded⟩ := master.ctx.readSize_spec
    have nothing : master.submitted = [] := length_eq_zero_iff.mp (by omega)
    refine { sending with one := ?_, more := fun _ => more, asked := ?_ }
    · rw [length_append]
      change begins + (master.submitted.length + 1) + master.executed.length ≤ 1
      omega
    · intro io mem
      rw [nothing] at mem
      obtain rfl := mem_singleton.mp mem
      exact ⟨rfl, positive, bounded⟩

theorem Task.checkFeatures_eq {task checked : Task} {features : Bytes}
    (ok : task.checkFeatures features = some checked) : ∃ stable sandbox, checked = { task with
      ctx := { task.ctx with
        isStableBufSize := stable, isOtherSideSandboxSupported := sandbox } } := by
  rw [Task.checkFeatures] at ok
  split_ifs at ok
  · exact ⟨_, _, (Option.some.inj ok).symm⟩
  · exact ⟨_, _, (Option.some.inj ok).symm⟩

theorem Sending.begin (sending : Sending content (begins + 1) master taken) (lz4 : Lz4)
    (features : Bytes) (answer : Answer) :
    let out := master.commandDispatch lz4 (.begin features) answer
    Sending content begins out.2.1 taken ∧ out.2.2 = [] := by
  have one := sending.one
  have more := sending.more (by omega)
  rw [Task.commandDispatch]
  dsimp only
  split
  next => exact ⟨sending.lower, rfl⟩
  next checked ok =>
    obtain ⟨_, _, rfl⟩ := Task.checkFeatures_eq ok
    have idle : begins + master.submitted.length + master.executed.length = 0 := by omega
    split
    · exact ⟨{ sending.lower with }, rfl⟩
    split
    all_goals
      refine ⟨.simpleFileIo (by exact { sending.lower with }) ?_ ?_ _, rfl⟩
      · exact idle
      · exact more

theorem Sending.finish (sending : Sending content begins master taken) (lz4 : Lz4) (flag : UInt8)
    (answer : Answer) :
    let out := master.commandDispatch lz4 (.finish flag) answer
    Sending content begins out.2.1 taken ∧ OnlyFinish out.2.2 := by
  rw [Task.commandDispatch]
  split
  · exact ⟨{ sending with }, onlyFinish_sent answer.sent (flag - 1)⟩
  · exact ⟨{ sending with }, onlyFinish_nil⟩

theorem Outcome.size_read {outcome : Outcome} {available size : Nat}
    (moved : outcome.size 1 available = .ok size) :
    size ≤ available ∧ (size = 0 → available = 0) := by
  cases outcome with
  | whole =>
    cases moved
    exact ⟨le_refl _, id⟩
  | part bytes =>
    cases moved
    constructor
    · exact min_le_right _ _
    · intro none
      omega
  | failed errno => cases moved

/-- What is read at the place where the pieces end. -/
theorem got_read {index bytes size : Nat} (place : index ≤ content.length) (positive : 0 < bytes)
    (bounded : bytes ≤ maxSizeIobuf) {outcome : Outcome}
    (moved : outcome.size 1 (min bytes (content.length - index)) = .ok size) (io : CtxFileIo) :
    Got content index ({ io with bufIo := (content.drop index).take size }, (size : Int)) := by
  obtain ⟨_, empty⟩ := Outcome.size_read moved
  have length : ((content.drop index).take size).length = size := by
    rw [length_take, length_drop]
    omega
  refine .inr ⟨by rw [length], ?_, ?_, ?_, ?_⟩
  · rw [Write.In, length]
  · rw [length]
    omega
  · rw [length]
    omega
  · intro nothing
    have zero := congrArg List.length nothing
    rw [length] at zero
    have := empty zero
    omega

theorem Sending.execute (sending : Sending content begins master taken) (i : Nat)
    (outcome : Outcome) : Sending content begins (master.execute i outcome) taken := by
  rw [Task.execute]
  split
  next => exact sending
  next io found =>
    obtain ⟨inside, rfl⟩ := List.getElem?_eq_some_iff.mp found
    obtain ⟨place, positive, bounded⟩ := sending.asked _ (getElem_mem inside)
    have erased := length_eraseIdx_of_lt inside
    have one := sending.one
    -- one request less in the first list, one more in the second
    have moved : ∀ done : CtxFileIo × Int, Got content master.ctx.indexIo done →
        Sending content begins { master with
          submitted := master.submitted.eraseIdx i, executed := master.executed ++ [done] } taken := by
      intro done read
      refine { sending with one := ?_, more := ?_, asked := ?_, got := ?_ }
      · rw [length_append, length_singleton, erased]
        omega
      · intro _
        exact sending.more (by omega)
      · intro io mem
        exact sending.asked io (mem_of_mem_eraseIdx mem)
      · exact forall_mem_append.mpr ⟨sending.got, forall_mem_singleton.mpr read⟩
    rw [if_pos sending.isMaster]
    split
    next errno failed =>
      exact moved _ (.inl (Int.negSucc_lt_zero errno))
    next size read =>
      rw [sending.source, place] at read
      have got := got_read sending.most positive bounded read master.submitted[i]
      refine moved (_, (size : Int)) ?_
      rw [sending.source, place]
      exact got

/-- A piece that was read is taken. -/
theorem Sending.take (sending : Sending content begins master taken) (io : CtxFileIo)
    (none : begins + master.submitted.length + master.executed.length = 0)
    (more : master.ctx.indexIo < content.length ∨ content = [])
    (got : Got content master.ctx.indexIo (io, (io.bufIo.length : Int))) :
    Sending content begins
      { master with ctx := { master.ctx with indexIo := master.ctx.indexIo + io.bufIo.length } }
      (taken ++ [⟨master.ctx.indexIo, io.bufIo⟩]) := by
  obtain failed | ⟨-, inside, -, most, ends⟩ := got
  · dsimp only at failed
    omega
  have noSubmitted : master.submitted = [] := length_eq_zero_iff.mp (by omega)
  have noExecuted : master.executed = [] := length_eq_zero_iff.mp (by omega)
  refine
    { isMaster := sending.isMaster, size := sending.size, source := sending.source
      row := ?_, inside := ?_, full := ?_, read := ?_, most := most, one := ?_, more := ?_
      asked := ?_, got := ?_ }
  · refine consecutive_append_singleton sending.row ?_
    rw [sending.read, zero_add]
  · exact forall_mem_append.mpr ⟨sending.inside, forall_mem_singleton.mpr inside⟩
  · refine forall_mem_append.mpr ⟨sending.full, forall_mem_singleton.mpr fun empty => ?_⟩
    have := ends empty
    exact more.resolve_left (by omega)
  · rw [total_append, sending.read]
    rfl
  · exact le_trans (le_of_eq none) (zero_le 1)
  · intro some
    exact absurd none some
  · intro other mem
    rw [noSubmitted] at mem
    cases mem
  · intro other mem
    rw [noExecuted] at mem
    cases mem

/-- `OnFileIO` adds only flags and the end of the file to what `ProcressFileIO` does. -/
theorem Task.onFileIo_spec (lz4 : Lz4) (task : Task) (io : CtxFileIo) (result : Int)
    (answer : Answer) :
    let processed := task.procressFileIo lz4 io result answer
    let out := task.onFileIo lz4 io result answer
    processed.2.1.Same out.1 ∧ ∃ rest, out.2 = processed.2.2 ++ rest ∧ OnlyFinish rest := by
  rw [Task.onFileIo]
  split
  next =>
    obtain ⟨same, only⟩ := Task.procressFileIoFinish_spec
      { (task.procressFileIo lz4 io result answer).2.1 with
        ctx := { (task.procressFileIo lz4 io result answer).2.1.ctx with
          ioFinish := (task.procressFileIo lz4 io result answer).1 } } answer
    exact ⟨{ same with }, _, rfl, only⟩
  next => exact ⟨⟨rfl, rfl, rfl, rfl, rfl, rfl, rfl⟩, [], (append_nil _).symm, onlyFinish_nil⟩

theorem Task.procressFileIoIsSuccess_failed (task : Task) (io : CtxFileIo)
    (failed : result < 0) (space : Space) :
    task.procressFileIoIsSuccess io result space =
      (false, { task with ctx := { task.ctx with lastErrno := result.natAbs } }) := by
  exact if_pos failed

theorem Task.procressFileIoIsSuccess_ok {task : Task}
    (moved : 0 ≤ result) (whole : task.ctx.master = true ∨ (io.bytes : Int) = result)
    (space : Space) : task.procressFileIoIsSuccess io result space = (true, task) := by
  rw [Task.procressFileIoIsSuccess.eq_def, if_neg (Int.not_lt.mpr moved)]
  by_cases master : task.ctx.master = true
  · rw [if_pos master]
  · rw [if_neg master, if_pos (whole.resolve_left master)]

section

variable (sending : Sending content begins master taken)
include sending

/-- The piece that was taken last is sent, if it can be, and the next one asked for. -/
theorem Sending.procressFileIoRead
    (none : begins + master.submitted.length + master.executed.length = 0)
    (small : content.length < 2 ^ 63) (short : io.bufIo.length ≤ maxSizeIobuf)
    (result : Nat) (lz4 : Lz4) (answer : Answer) :
    let out := master.procressFileIoRead lz4 io result answer
    Sending content begins out.2.1 taken ∧
      (out.2.2 = [] ∨ ∃ payload, out.2.2 = [.data payload] ∧
        Encodes lz4 payload ⟨master.ctx.indexIo - result, io.bufIo⟩) := by
  have place : master.ctx.indexIo - result < 2 ^ 64 := by
    have := sending.most
    omega
  rw [Task.procressFileIoRead]
  rcases sendIoPayload_encodes lz4 master.ctx place short answer with fails | ⟨payload, sent, encodes⟩
  · rw [fails]
    exact ⟨sending, .inl rfl⟩
  · rw [sent, if_neg (show ¬ true = false by decide)]
    have goes : ∃ other, [Command.data payload] = [.data other] ∧
        Encodes lz4 other ⟨master.ctx.indexIo - result, io.bufIo⟩ := ⟨payload, rfl, encodes⟩
    split
    · exact ⟨sending, .inr goes⟩
    split
    next less =>
      rw [sending.size] at less
      exact ⟨sending.simpleFileIo none (.inl less) answer.io, .inr goes⟩
    next => exact ⟨sending, .inr goes⟩

/-- What the master does with a read that was carried out: nothing, or it takes the piece,
and sends it if it can. -/
theorem Sending.procressFileIo
    (none : begins + master.submitted.length + master.executed.length = 0)
    (more : master.ctx.indexIo < content.length ∨ content = [])
    (small : content.length < 2 ^ 63)
    (got : Got content master.ctx.indexIo (io, result)) (lz4 : Lz4) (answer : Answer) :
    let out := master.procressFileIo lz4 io result answer
    (Sending content begins out.2.1 taken ∧ out.2.2 = []) ∨
      ∃ write, Sending content begins out.2.1 (taken ++ [write]) ∧
        (out.2.2 = [] ∨ ∃ payload, out.2.2 = [.data payload] ∧ Encodes lz4 payload write) := by
  rw [Task.procressFileIo]
  split
  next => exact .inl ⟨sending, rfl⟩
  next =>
    by_cases failed : result < 0
    · rw [Task.procressFileIoIsSuccess_failed _ _ failed]
      exact .inl ⟨{ sending with }, rfl⟩
    · rw [Task.procressFileIoIsSuccess_ok (Int.not_lt.mp failed) (.inl sending.isMaster)]
      obtain ⟨size, -, short, -, -⟩ := got.resolve_left failed
      obtain rfl : result = (io.bufIo.length : Int) := size
      have took := sending.take io none more got
      have reads := took.procressFileIoRead none small short io.bufIo.length lz4 answer
      dsimp only at reads ⊢
      rw [Nat.add_sub_cancel] at reads
      rw [if_pos sending.isMaster]
      exact .inr ⟨_, reads⟩

/-- `OnFileIO` on the master. -/
theorem Sending.callback (small : content.length < 2 ^ 63) (lz4 : Lz4) (i : Nat) (answer : Answer) :
    let out := master.callback lz4 i answer
    (Sending content begins out.1 taken ∧ OnlyFinish out.2) ∨
      ∃ write, Sending content begins out.1 (taken ++ [write]) ∧
        (OnlyFinish out.2 ∨ ∃ payload rest, out.2 = .data payload :: rest ∧ OnlyFinish rest ∧
          Encodes lz4 payload write) := by
  rw [Task.callback]
  split
  next => exact .inl ⟨sending, onlyFinish_nil⟩
  next io result found =>
    obtain ⟨inside, here⟩ := List.getElem?_eq_some_iff.mp found
    have erased := length_eraseIdx_of_lt inside
    have one := sending.one
    have more := sending.more (by omega)
    have got := sending.got (io, _) (here ▸ getElem_mem inside)
    let task : Task := { master with executed := master.executed.eraseIdx i }
    have idle : begins + task.submitted.length + task.executed.length = 0 := by
      change begins + master.submitted.length + (master.executed.eraseIdx i).length = 0
      omega
    have dropped : Sending content begins task taken :=
      { sending with
        one := le_trans (le_of_eq idle) (zero_le 1)
        more := fun some => absurd idle some
        got := fun other mem => sending.got other (mem_of_mem_eraseIdx mem) }
    obtain ⟨same, rest, sent, only⟩ := task.onFileIo_spec lz4 io result answer
    rcases dropped.procressFileIo idle more small got lz4 answer with ⟨stays, nothing⟩ | ⟨write, took, out⟩
    · refine .inl ⟨stays.congr same, ?_⟩
      rw [sent, nothing]
      exact only
    · refine .inr ⟨_, took.congr same, ?_⟩
      rcases out with nothing | ⟨payload, goes, encodes⟩
      · rw [sent, nothing]
        exact .inl only
      · rw [sent, goes]
        exact .inr ⟨payload, rest, rfl, only, encodes⟩

end

end Master

/-! ### The slave -/

/-- Pieces of `content` that follow each other from its beginning on. -/
structure TakenFrom (content : Bytes) (taken : List (Write UInt8)) : Prop where
  row : Consecutive 0 taken
  inside : ∀ write ∈ taken, write.In content
  full : ∀ write ∈ taken, write.data = [] → content = []
  most : total taken ≤ content.length

theorem Sending.takenFrom {content : Bytes} {begins : Nat} {master : Task}
    {taken : List (Write UInt8)} (sending : Sending content begins master taken) :
    TakenFrom content taken :=
  ⟨sending.row, sending.inside, sending.full, sending.read ▸ sending.most⟩

/-- The write that a request of the slave stands for. -/
def asWrite (io : CtxFileIo) : Write UInt8 := ⟨io.index, io.bufIo⟩

/-- The whole of `content` was written. -/
def Complete (content : Bytes) (log : List (Write UInt8)) : Prop :=
  ∀ i < content.length, Covers log i

/-- Every piece that was taken is on its way, submitted, carried out, counted or lost. The
file agrees with what was written, and it was complete whenever the slave said so. -/
structure Receiving (content : Bytes) (taken onWay : List (Write UInt8)) (slave : Task)
    (counted lost : List (Write UInt8)) : Prop where
  isSlave : slave.ctx.master = false
  size : slave.ctx.fileSize = content.length
  clean : slave.ctx.lastErrno = 0
  closed : slave.ctx.closeReqSubmitted = false
  placed : ∀ write, taken.count write = onWay.count write +
    (slave.submitted.map asWrite).count write +
    (slave.executed.map fun done => asWrite done.1).count write +
    counted.count write + lost.count write
  asked : ∀ io ∈ slave.submitted, io.bytes = io.bufIo.length
  done : ∀ done ∈ slave.executed, done.2 = (done.1.bufIo.length : Int) ∧
    done.1.bytes = done.1.bufIo.length ∧ asWrite done.1 ∈ slave.log
  count : total counted = slave.ctx.indexIo
  logged : ∀ write ∈ counted, write ∈ slave.log
  written : Agrees content slave.log slave.file
  notified : slave.ctx.closeNotify = true → Complete content slave.log
  finished : ∀ finish ∈ slave.finishes, finish.file = content ∧ Complete content finish.log

section Slave

variable {content : Bytes} {taken onWay : List (Write UInt8)} {slave : Task}
  {counted lost : List (Write UInt8)}

section

variable (receiving : Receiving content taken onWay slave counted lost)
include receiving

theorem Receiving.congr {other : Task} (same : slave.Same other) (clean : other.ctx.lastErrno = 0)
    (closed : other.ctx.closeReqSubmitted = false)
    (notify : other.ctx.closeNotify = slave.ctx.closeNotify)
    (finishes : other.finishes = slave.finishes) :
    Receiving content taken onWay other counted lost := by
  obtain ⟨isSlave, size, -, -, placed, asked, done, count, logged, written, notified, finished⟩ :=
    receiving
  obtain ⟨sameMaster, sameSize, sameIndex, sameFile, sameSubmitted, sameExecuted, sameLog⟩ := same
  rw [← sameMaster] at isSlave
  rw [← sameSize] at size
  rw [← sameIndex] at count
  rw [← sameFile] at written
  rw [← sameSubmitted] at placed asked
  rw [← sameExecuted] at placed done
  rw [← sameLog] at done logged written notified
  rw [← notify] at notified
  rw [← finishes] at finished
  exact ⟨isSlave, size, clean, closed, placed, asked, done, count, logged, written, notified,
    finished⟩

/-- The master sends another piece. -/
theorem Receiving.sent (write : Write UInt8) :
    Receiving content (taken ++ [write]) (onWay ++ [write]) slave counted lost :=
  { receiving with
    placed := by
      intro other
      have placed := receiving.placed other
      rw [count_append, count_append]
      omega }

/-- The master could not send a piece. -/
theorem Receiving.unsent (write : Write UInt8) :
    Receiving content (taken ++ [write]) onWay slave counted (lost ++ [write]) :=
  { receiving with
    placed := by
      intro other
      have placed := receiving.placed other
      rw [count_append, count_append]
      omega }

end

theorem count_cons_eq (write other : Write UInt8) (writes : List (Write UInt8)) :
    (write :: writes).count other = writes.count other + [write].count other := by
  rw [← singleton_append, count_append, add_comm]

section

variable {write : Write UInt8}
  (receiving : Receiving content taken (write :: onWay) slave counted lost)
include receiving

/-- A piece arrives, and cannot be submitted. -/
theorem Receiving.drop : Receiving content taken onWay slave counted (lost ++ [write]) :=
  { receiving with
    placed := by
      intro other
      have placed := receiving.placed other
      rw [count_cons_eq] at placed
      rw [count_append]
      omega }

/-- A piece arrives, and is submitted. -/
theorem Receiving.submit : Receiving content taken onWay { slave with
      submitted := slave.submitted ++ [⟨write.offset, write.data.length, write.data⟩] }
      counted lost :=
  { receiving with
    placed := by
      intro other
      have placed := receiving.placed other
      rw [count_cons_eq] at placed
      dsimp only
      rw [map_append, count_append]
      change _ = _ + (_ + [write].count other) + _ + _ + _
      omega
    asked := by
      intro io mem
      exact forall_mem_append.mpr ⟨receiving.asked, forall_mem_singleton.mpr rfl⟩ io mem }

theorem Receiving.data {lz4 : Lz4}
    {payload : Bytes} (encodes : Encodes lz4 payload write) (answer : Answer) :
    let out := slave.commandDispatch lz4 (.data payload) answer
    (∃ lost, Receiving content taken onWay out.2.1 counted lost) ∧ out.2.2 = [] := by
  rw [Task.commandDispatch]
  rw [if_neg (not_lt.mpr encodes.1), encodes.2]
  rcases slave.simpleFileIo_spec write.offset write.data write.data.length answer.io with
    fails | asks
  · rw [fails]
    have dropped := receiving.drop
    refine ⟨⟨lost ++ [write], ?_⟩, rfl⟩
    exact { dropped with }
  · have nonneg : ¬ ((write.data.length : Nat) : Int) < 0 := by omega
    rw [asks, receiving.isSlave]
    exact ⟨⟨_, receiving.submit⟩, rfl⟩

end

theorem Receiving.finish (receiving : Receiving content taken onWay slave counted lost)
    (lz4 : Lz4) (flag : UInt8) (answer : Answer) :
    let out := slave.commandDispatch lz4 (.finish flag) answer
    Receiving content taken onWay out.2.1 counted lost ∧ OnlyFinish out.2.2 := by
  rw [Task.commandDispatch]
  split
  · exact ⟨{ receiving with }, onlyFinish_sent answer.sent (flag - 1)⟩
  · exact ⟨{ receiving with }, onlyFinish_nil⟩

variable {i : Nat}

theorem count_map_eraseIdx {α : Type} {items : List α} {item : α}
    (found : items[i]? = some item) (f : α → Write UInt8) (other : Write UInt8) :
    (items.map f).count other = ((items.eraseIdx i).map f).count other + [f item].count other := by
  obtain ⟨inside, rfl⟩ := List.getElem?_eq_some_iff.mp found
  rw [← count_cons_eq]
  exact ((getElem_cons_eraseIdx_perm inside).map f).symm.count_eq _

/-- Every piece is where it can be found. -/
theorem Receiving.mem_taken (receiving : Receiving content taken onWay slave counted lost)
    {write : Write UInt8} (somewhere : 0 < (slave.submitted.map asWrite).count write ∨
    0 < (slave.executed.map fun done => asWrite done.1).count write) : write ∈ taken := by
  have placed := receiving.placed write
  rw [← count_pos_iff]
  omega

theorem Complete.append {log : List (Write UInt8)} (complete : Complete content log)
    (write : Write UInt8) : Complete content (log ++ [write]) := by
  intro i below
  obtain ⟨_, mem, covered⟩ := complete i below
  exact ⟨_, mem_append_left _ mem, covered⟩

section

variable (receiving : Receiving content taken onWay slave counted lost)
include receiving

/-- A write is carried out as a whole. -/
theorem Receiving.execute (pieces : TakenFrom content taken) (i : Nat) :
    Receiving content taken onWay (slave.execute i .whole) counted lost := by
  rw [Task.execute]
  split
  next => exact receiving
  next io found =>
    obtain ⟨inside, rfl⟩ := List.getElem?_eq_some_iff.mp found
    have whole := receiving.asked _ (getElem_mem inside)
    have mem : asWrite slave.submitted[i] ∈ taken := by
      refine receiving.mem_taken (.inl (count_pos_iff.mpr ?_))
      exact mem_map_of_mem (getElem_mem inside)
    rw [if_neg (by rw [receiving.isSlave]; decide), Outcome.size, whole]
    dsimp only
    rw [take_length]
    refine { receiving with
      placed := ?_, asked := ?_, done := ?_, logged := ?_, written := ?_, notified := ?_ }
    · intro other
      have placed := receiving.placed other
      rw [count_map_eraseIdx found asWrite other] at placed
      dsimp only
      rw [map_append, count_append]
      change _ = _ + _ + (_ + [asWrite slave.submitted[i]].count other) + _ + _
      omega
    · intro other mem
      exact receiving.asked _ (mem_of_mem_eraseIdx mem)
    · refine forall_mem_append.mpr ⟨fun done old => ?_, forall_mem_singleton.mpr ?_⟩
      · obtain ⟨result, bytes, logged⟩ := receiving.done done old
        exact ⟨result, bytes, mem_append_left _ logged⟩
      · exact ⟨rfl, whole, mem_append_right _ mem_cons_self⟩
    · intro write mem
      exact mem_append_left _ (receiving.logged _ mem)
    · exact receiving.written.apply (pieces.inside _ mem) 0
    · intro notify
      exact (receiving.notified notify).append _

/-- Once as much was counted as the file has, everything was written. -/
theorem Receiving.complete (pieces : TakenFrom content taken) (enough : content.length ≤ slave.ctx.indexIo) :
    Complete content slave.log := by
  rw [← receiving.count] at enough
  have perm : (counted ++ (onWay ++ (slave.submitted.map asWrite ++
      ((slave.executed.map fun done => asWrite done.1) ++ lost)))).Perm taken := by
    refine perm_iff_count.mpr fun write => ?_
    rw [receiving.placed write, count_append, count_append, count_append,
      count_append]
    omega
  intro i below
  obtain ⟨write, mem, covered⟩ := covers_of_total pieces.row perm pieces.most enough i below
  exact ⟨_, receiving.logged _ mem, covered⟩

/-- The end of the file, for a slave that asked to be told or did not. -/
theorem Receiving.procressFileIoFinish (answer : Answer) :
    Receiving content taken onWay (slave.procressFileIoFinish answer).1 counted lost := by
  obtain ⟨same, -⟩ := slave.procressFileIoFinish_spec answer
  obtain ⟨clean, closed, notify, finishes⟩ :=
    Task.procressFileIoFinish_clean receiving.clean receiving.closed answer
  by_cases asked : slave.ctx.closeNotify = true
  · have complete := receiving.notified asked
    have whole : slave.file = content := eq_of_covers receiving.written complete
    rw [if_pos asked] at finishes
    have told : Receiving content taken onWay
        { slave with finishes := slave.finishes ++ [⟨slave.file, slave.log⟩] } counted lost :=
      { receiving with
        finished := forall_mem_append.mpr
          ⟨receiving.finished, forall_mem_singleton.mpr ⟨whole, complete⟩⟩ }
    exact told.congr { same with } clean closed notify finishes
  · rw [if_neg asked] at finishes
    exact receiving.congr same clean closed notify finishes

/-- A write that was carried out is not counted any more. -/
theorem Receiving.forget {done : CtxFileIo × Int} (found : slave.executed[i]? = some done) :
    Receiving content taken onWay { slave with executed := slave.executed.eraseIdx i } counted
      (lost ++ [asWrite done.1]) :=
  { receiving with
    placed := by
      intro other
      have placed := receiving.placed other
      rw [count_map_eraseIdx found (fun done => asWrite done.1) other] at placed
      dsimp only
      rw [count_append]
      omega
    done := fun other mem => receiving.done other (mem_of_mem_eraseIdx mem) }

/-- A write that was carried out is counted. -/
theorem Receiving.add {done : CtxFileIo × Int} (found : slave.executed[i]? = some done) :
    Receiving content taken onWay { slave with
        executed := slave.executed.eraseIdx i
        ctx := { slave.ctx with indexIo := slave.ctx.indexIo + done.1.bufIo.length } }
      (counted ++ [asWrite done.1]) lost :=
  { receiving with
    placed := by
      intro other
      have placed := receiving.placed other
      rw [count_map_eraseIdx found (fun done => asWrite done.1) other] at placed
      dsimp only
      rw [count_append]
      omega
    done := fun other mem => receiving.done _ (mem_of_mem_eraseIdx mem)
    count := by
      rw [total_append, receiving.count]
      rfl
    logged := by
      have written := (receiving.done done (mem_of_getElem? found)).2.2
      exact forall_mem_append.mpr ⟨receiving.logged, forall_mem_singleton.mpr written⟩ }

section

variable (pieces : TakenFrom content taken)
include pieces

theorem Receiving.procressFileIoWrite {result : Nat} (ended : result = 0 → content = []) :
    Receiving content taken onWay (slave.procressFileIoWrite result).2 counted lost := by
  rw [Task.procressFileIoWrite]
  split
  next ends =>
    refine { receiving with notified := fun _ => ?_ }
    rcases ends with enough | none
    · rw [receiving.size] at enough
      exact receiving.complete pieces enough
    · rw [ended none]
      intro i below
      cases below
  next => exact receiving

/-- What the slave does with a write that was carried out. -/
theorem Receiving.procressFileIo
    (found : slave.executed[i]? = some (io, result)) (lz4 : Lz4) (answer : Answer) :
    let task := { slave with executed := slave.executed.eraseIdx i }
    let out := task.procressFileIo lz4 io result answer
    (∃ counted lost, Receiving content taken onWay out.2.1 counted lost) ∧ out.2.2 = [] := by
  have mem := mem_of_getElem? found
  obtain ⟨size, bytes, -⟩ := receiving.done _ mem
  obtain rfl : result = (io.bufIo.length : Int) := size
  have isTaken : asWrite io ∈ taken := by
    refine receiving.mem_taken (.inr (count_pos_iff.mpr ?_))
    exact mem_map_of_mem (f := fun done => asWrite done.1) mem
  dsimp only
  rw [Task.procressFileIo]
  split
  next => exact ⟨⟨counted, _, receiving.forget found⟩, rfl⟩
  next =>
    have slaveOnly : ¬ slave.ctx.master = true := by
      rw [receiving.isSlave]
      decide
    rw [Task.procressFileIoIsSuccess_ok (Int.natCast_nonneg _) (.inr (congrArg _ bytes))]
    dsimp only
    rw [if_neg slaveOnly]
    refine ⟨⟨_, _, (receiving.add found).procressFileIoWrite pieces ?_⟩, rfl⟩
    intro empty
    exact pieces.full _ isTaken (length_eq_zero_iff.mp empty)

/-- `OnFileIO` on the slave. -/
theorem Receiving.callback (lz4 : Lz4) (i : Nat) (answer : Answer) :
    let out := slave.callback lz4 i answer
    (∃ counted lost, Receiving content taken onWay out.1 counted lost) ∧ OnlyFinish out.2 := by
  rw [Task.callback]
  split
  next => exact ⟨⟨counted, lost, receiving⟩, onlyFinish_nil⟩
  next io result found =>
    obtain ⟨⟨counted, lost, processed⟩, nothing⟩ :=
      receiving.procressFileIo pieces found lz4 answer
    rw [Task.onFileIo]
    generalize Task.procressFileIo lz4 _ io result answer = out at processed nothing ⊢
    have flagged : Receiving content taken onWay
        { out.2.1 with ctx := { out.2.1.ctx with ioFinish := out.1 } } counted lost :=
      { processed with }
    rw [nothing]
    split
    · refine ⟨⟨_, _, flagged.procressFileIoFinish _⟩, ?_⟩
      exact (Task.procressFileIoFinish_spec _ _).2
    · exact ⟨⟨_, _, flagged⟩, onlyFinish_nil⟩

end

end

end Slave

/-! ### Both ends -/

/-- The pieces among the commands for the slave. -/
inductive OnWay (lz4 : Lz4) : List Command → List (Write UInt8) → Prop where
  | nil : OnWay lz4 [] []
  | finish {flag : UInt8} {commands : List Command} {writes : List (Write UInt8)}
      (rest : OnWay lz4 commands writes) : OnWay lz4 (.finish flag :: commands) writes
  | data {payload : Bytes} {write : Write UInt8} {commands : List Command}
      {writes : List (Write UInt8)} (encodes : Encodes lz4 payload write)
      (rest : OnWay lz4 commands writes) : OnWay lz4 (.data payload :: commands) (write :: writes)

/-- The requests to begin among the commands for the master; there is no data for it. -/
inductive Asking : List Command → Nat → Prop where
  | nil : Asking [] 0
  | finish {flag : UInt8} {commands : List Command} {begins : Nat}
      (rest : Asking commands begins) : Asking (.finish flag :: commands) begins
  | begin {features : Bytes} {commands : List Command} {begins : Nat}
      (rest : Asking commands begins) : Asking (.begin features :: commands) (begins + 1)

section Queues

variable {lz4 : Lz4} {commands : List Command} {writes : List (Write UInt8)}

theorem OnWay.of_onlyFinish (only : OnlyFinish commands) : OnWay lz4 commands [] := by
  induction commands with
  | nil => exact .nil
  | cons command commands ih =>
    obtain ⟨_, rfl⟩ := only command mem_cons_self
    exact .finish (ih fun other mem => only other (mem_cons_of_mem _ mem))

variable {more : List Command}

theorem OnWay.append (way : OnWay lz4 commands writes)
    {others : List (Write UInt8)} (behind : OnWay lz4 more others) :
    OnWay lz4 (commands ++ more) (writes ++ others) := by
  induction way with
  | nil => exact behind
  | finish rest ih => exact .finish ih
  | data encodes rest ih => exact .data encodes ih

theorem OnWay.append_onlyFinish (way : OnWay lz4 commands writes)
    (only : OnlyFinish more) : OnWay lz4 (commands ++ more) writes := by
  have behind := way.append (.of_onlyFinish only)
  rw [append_nil] at behind
  exact behind

theorem Asking.append_onlyFinish {begins : Nat} (asking : Asking commands begins)
    (only : OnlyFinish more) : Asking (commands ++ more) begins := by
  induction asking with
  | nil =>
    induction more with
    | nil => exact .nil
    | cons command more ih =>
      obtain ⟨_, rfl⟩ := only command mem_cons_self
      exact .finish (ih fun other mem => only other (mem_cons_of_mem _ mem))
  | finish rest ih => exact .finish ih
  | begin rest ih => exact .begin ih

end Queues

/-- Where everything is. -/
def Underway (lz4 : Lz4) (content : Bytes) (system : System) : Prop :=
  ∃ begins taken onWay counted lost, Asking system.toMaster begins ∧
    Sending content begins system.master taken ∧ OnWay lz4 system.toSlave onWay ∧
    Receiving content taken onWay system.slave counted lost

theorem Job.underway_start (lz4 : Lz4) (job : Job) : Underway lz4 job.content job.start := by
  refine ⟨1, [], [], [], [], .begin .nil, ?_, .nil, ?_⟩
  · refine ⟨rfl, rfl, rfl, trivial, nofun, nofun, rfl, Nat.zero_le _, Nat.le_refl 1, ?_, nofun,
      nofun⟩
    intro _
    rcases Nat.eq_zero_or_pos job.content.length with none | some
    · exact .inr (length_eq_zero_iff.mp none)
    · exact .inl some
  · exact ⟨rfl, rfl, rfl, rfl, fun _ => rfl, nofun, nofun, rfl, nofun, agrees_nil _, nofun, nofun⟩

section Steps

variable {lz4 : Lz4} {content : Bytes} {system : System}

section

variable (underway : Underway lz4 content system)
include underway

theorem Underway.masterReceives (answer : Answer) :
    Underway lz4 content (system.step lz4 (.masterReceives answer)) := by
  obtain ⟨master, _, _, toSlave⟩ := system
  obtain ⟨begins, _, onWay, _, _, asking, sending, way, receiving⟩ := underway
  cases asking with
  | nil => exact ⟨0, _, _, _, _, .nil, sending, way, receiving⟩
  | @finish flag commands _ rest =>
    obtain ⟨stays, only⟩ := sending.finish lz4 flag answer
    exact ⟨_, _, _, _, _, rest, stays, way.append_onlyFinish only, receiving⟩
  | @begin features commands begins rest =>
    obtain ⟨began, nothing⟩ := sending.begin lz4 features answer
    refine ⟨_, _, _, _, _, rest, began, ?_, receiving⟩
    change OnWay lz4 (toSlave ++ (master.commandDispatch lz4 (.begin features) answer).2.2) onWay
    rw [nothing, append_nil]
    exact way

theorem Underway.slaveReceives (answer : Answer) :
    Underway lz4 content (system.step lz4 (.slaveReceives answer)) := by
  obtain ⟨_, slave, toMaster, _⟩ := system
  obtain ⟨begins, _, _, _, lost, asking, sending, way, receiving⟩ := underway
  cases way with
  | nil => exact ⟨_, _, [], _, _, asking, sending, .nil, receiving⟩
  | @finish flag commands _ rest =>
    obtain ⟨stays, only⟩ := receiving.finish lz4 flag answer
    exact ⟨_, _, _, _, _, asking.append_onlyFinish only, sending, rest, stays⟩
  | @data payload write commands writes encodes rest =>
    obtain ⟨⟨lost, received⟩, nothing⟩ := receiving.data encodes answer
    refine ⟨_, _, _, _, _, ?_, sending, rest, received⟩
    change Asking (toMaster ++ (slave.commandDispatch lz4 (.data payload) answer).2.2) begins
    rw [nothing, append_nil]
    exact asking

theorem Underway.masterCalled (small : content.length < 2 ^ 63) (i : Nat) (answer : Answer) :
    Underway lz4 content (system.step lz4 (.masterCalled i answer)) := by
  obtain ⟨_, taken, onWay, _, lost, asking, sending, way, receiving⟩ := underway
  rcases sending.callback small lz4 i answer with ⟨stays, only⟩ | ⟨write, took, out⟩
  · exact ⟨_, _, _, _, _, asking, stays, way.append_onlyFinish only, receiving⟩
  · rcases out with only | ⟨payload, rest, goes, only, encodes⟩
    · exact ⟨_, taken ++ [write], _, _, lost ++ [write], asking, took,
        way.append_onlyFinish only, receiving.unsent _⟩
    · refine ⟨_, taken ++ [write], onWay ++ [write], _, _, asking, took, ?_,
        receiving.sent _⟩
      change OnWay lz4 (system.toSlave ++ (system.master.callback lz4 i answer).2) _
      rw [goes]
      exact way.append (.data encodes (.of_onlyFinish only))

end

/-- One step, in which a write is carried out as a whole if at all. -/
theorem Underway.step (small : content.length < 2 ^ 63) (underway : Underway lz4 content system)
    {event : Event} (whole : ∀ i outcome, event = .slaveExecutes i outcome → outcome = .whole) :
    Underway lz4 content (system.step lz4 event) := by
  cases event with
  | masterReceives answer => exact underway.masterReceives _
  | slaveReceives answer => exact underway.slaveReceives _
  | masterExecutes i outcome =>
    obtain ⟨begins, taken, onWay, counted, lost, asking, sending, way, receiving⟩ := underway
    exact ⟨_, _, _, _, _, asking, sending.execute i _, way, receiving⟩
  | slaveExecutes i outcome =>
    obtain ⟨begins, taken, onWay, counted, lost, asking, sending, way, receiving⟩ := underway
    obtain rfl := whole i outcome rfl
    exact ⟨_, _, _, _, _, asking, sending, way,
      receiving.execute sending.takenFrom i⟩
  | masterCalled i answer => exact underway.masterCalled small i _
  | slaveCalled i answer =>
    obtain ⟨begins, taken, onWay, counted, lost, asking, sending, way, receiving⟩ := underway
    obtain ⟨⟨counted, lost, called⟩, only⟩ := receiving.callback sending.takenFrom lz4 i answer
    exact ⟨_, _, _, _, _, asking.append_onlyFinish only, sending, way, called⟩

theorem Underway.run (small : content.length < 2 ^ 63) (underway : Underway lz4 content system)
    {events : List Event}
    (whole : ∀ i outcome, .slaveExecutes i outcome ∈ events → outcome = .whole) :
    Underway lz4 content (system.run lz4 events) := by
  induction events generalizing system with
  | nil => exact underway
  | cons event events ih =>
    have next := underway.step small fun i outcome same =>
      whole i _ (same ▸ mem_cons_self)
    exact ih next fun i outcome mem => whole i _ (mem_cons_of_mem _ mem)

end Steps

/-- Whenever the slave runs `WhenTransferFinish`, its file is the master's file, and every
byte of the announced size was written. This is so for every size of the reads, with or
without compression, whatever fails on the way, and for every order in which writes are
carried out and called back, as long as each of them is carried out as a whole. -/
theorem finish_delivers (lz4 : Lz4) (job : Job) (events : List Event)
    (whole : ∀ i outcome, .slaveExecutes i outcome ∈ events → outcome = .whole) :
    ∀ finish ∈ (job.start.run lz4 events).slave.finishes,
      finish.file = job.content ∧
        ∀ i < (job.start.run lz4 events).slave.ctx.fileSize, ∃ write ∈ finish.log,
          write.offset ≤ i ∧ i < write.offset + write.data.length := by
  obtain ⟨_, _, _, _, _, -, -, -, receiving⟩ :=
    (job.underway_start lz4).run job.small whole
  intro finish mem
  obtain ⟨same, complete⟩ := receiving.finished finish mem
  refine ⟨same, ?_⟩
  rw [receiving.size]
  exact complete

/-- A compression that never succeeds. -/
def noLz4 : Lz4 where
  compressDefault _ _ := none
  decompressSafe _ _ := none
  fits := nofun
  restores := nofun

def threeBytes : Job where
  content := [1, 2, 3]
  small := by decide
  compressType := compressLz4
  sandboxMode := false
  masterStable := false
  slaveStable := true

/-- Two pieces, of which the second one is written first. -/
def reversed : List Event :=
  let works : Answer := ⟨.submitted, true, true, true, .free 0⟩
  [.masterReceives works, .masterExecutes 0 (.part 2), .masterCalled 0 works,
    .masterExecutes 0 .whole, .masterCalled 0 works, .slaveReceives works, .slaveReceives works,
    .slaveExecutes 1 .whole, .slaveExecutes 0 .whole, .slaveCalled 0 works, .slaveCalled 0 works]

theorem finish_delivers_reversed :
    ∃ finish ∈ (threeBytes.start.run noLz4 reversed).slave.finishes, finish.file = [1, 2, 3] := by
  have ran : (threeBytes.start.run noLz4 reversed).slave.finishes ≠ [] := by decide
  obtain ⟨finish, mem⟩ := exists_mem_of_ne_nil _ ran
  refine ⟨finish, mem, (finish_delivers noLz4 threeBytes reversed ?_ finish mem).1⟩
  intro i outcome executed
  simp only [reversed, mem_cons, not_mem_nil, reduceCtorEq, Event.slaveExecutes.injEq,
    false_or, or_false] at executed
  rcases executed with ⟨-, rfl⟩ | ⟨-, rfl⟩
  · rfl
  · rfl

end Hdc.Transfer.Data
