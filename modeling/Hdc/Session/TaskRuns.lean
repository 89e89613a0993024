import Hdc.Session.Task

/-!
Which objects the commands of a session reach.

The object of a task is built by the first command that comes to it and has
memory for it, so what a task is can be told from the commands it got (`Describes`).
A run is cut into the tasks of each channel (`OneTask`), and the history of a
session says for every channel which task is there (`Traced`).

* `delivered_exact_iff`: all casts of commands are right exactly when every task
  gets commands of one family;
* `released_exact`: the casts at the end of a task are always right, since they go
  by the type that was noted when the object was built.
-/

namespace Hdc.Session

open List Tasks Option HdcCommand TaskEvent

/-! ### The map -/

variable {channelId : UInt32} {task : TaskInformation} {tasks : Tasks}

theorem Tasks.query_channelId (found : tasks.query channelId = some task) :
    task.channelId = channelId := by
  simpa using find?_some found

theorem Tasks.query_put_self (tasks : Tasks) (task : TaskInformation) :
    (tasks.put task).query task.channelId = some task := by
  have gone : (tasks.mapTask.filter (·.channelId ≠ task.channelId)).find?
      (·.channelId = task.channelId) = none := by
    simp
  rw [query, put, find?_append, gone]
  simp

theorem Tasks.query_put_ne (tasks : Tasks) (other : channelId ≠ task.channelId) :
    (tasks.put task).query channelId = tasks.query channelId := by
  have kept : (tasks.mapTask.filter (·.channelId ≠ task.channelId)).find?
      (·.channelId = channelId) = tasks.mapTask.find? (·.channelId = channelId) := by
    rw [find?_filter]
    congr 1
    funext entry
    by_cases same : entry.channelId = channelId
    · simp [same, other]
    · simp [same]
  rw [query, put, find?_append, kept]
  simp [query, Ne.symm other]

theorem Tasks.query_add (tasks : Tasks) (task : TaskInformation) :
    (tasks.add task).query = (tasks.put task).query :=
  rfl

theorem Tasks.query_clearOwnTasks (tasks : Tasks) (timer : UInt32 → Bool)
    (channelIDInput channelId : UInt32) :
    (tasks.clearOwnTasks timer channelIDInput).query channelId =
      if channelIDInput = 0 ∨ channelId = channelIDInput then none
      else tasks.query channelId := by
  unfold query clearOwnTasks TaskInformation.toClear
  rw [find?_filter]
  split
  · rename_i cleared
    rw [find?_eq_none]
    intro task _
    by_cases same : task.channelId = channelId
    · rcases cleared with all | one
      · simp [all]
      · simp [one]
    · simp [same]
  · rename_i kept
    rw [not_or] at kept
    congr 1
    funext task
    by_cases same : task.channelId = channelId
    · simp [same, kept.1, kept.2]
    · simp [same]

/-! ### The commands of one task -/

/-- The event makes a new task on the channel. -/
def TaskEvent.opens (build : Build) (channelId : UInt32) : TaskEvent → Prop
  | .frame target command answer =>
    target = channelId ∧ (needNewTaskInfo build command).1 = true ∧ answer.newTaskInfo = true
  | _ => False

/-- The event takes the task of the channel away. -/
def TaskEvent.closes (channelId : UInt32) : TaskEvent → Prop
  | .clear target _ => target = 0 ∨ channelId = target
  | _ => False

/-- The event brings a command of a family to the task of the channel: the family,
and whether there is memory for an object. -/
def TaskEvent.command (build : Build) (channelId : UInt32) : TaskEvent → Option (TaskType × Bool)
  | .frame target command answer =>
    if target = channelId ∧ ((needNewTaskInfo build command).1 = true → answer.newTaskInfo = true)
    then (taskFamily build command).map (·, answer.newTask)
    else none
  | _ => none

/-- The events from the one that makes a task, as long as it stays. -/
def OneTask (build : Build) (channelId : UInt32) (events : List TaskEvent) : Prop :=
  ∃ opener rest, events = opener :: rest ∧ opener.opens build channelId ∧
    ∀ event ∈ rest, ¬ event.opens build channelId ∧ ¬ event.closes channelId

/-- The commands that come to the task of a channel. -/
def commandsOf (build : Build) (channelId : UInt32) (events : List TaskEvent) :
    List (TaskType × Bool) :=
  events.filterMap (command build channelId)

/-- From the first one that could build an object, all commands are of one family. -/
def OneFamily (commands : List (TaskType × Bool)) : Prop :=
  commands.Pairwise fun first later => first.2 = true → first.1 = later.1

/-- Every task of the run gets commands of one family. -/
def Uniform (build : Build) (events : List TaskEvent) : Prop :=
  ∀ channelId before task after, events = before ++ task ++ after →
    OneTask build channelId task → OneFamily (commandsOf build channelId task)

/-- A task that has got these commands. -/
structure Describes (task : TaskInformation) (commands : List (TaskType × Bool)) : Prop where
  runs : (task.taskStop || task.taskFree) = false
  initial : task.hasInitial = task.taskClass.isSome
  object : task.taskClass = (commands.find? (·.2)).map Prod.fst

theorem Describes.new (channelId : UInt32) (masterTask : Bool) :
    Describes (TaskInformation.new channelId masterTask) [] :=
  ⟨rfl, rfl, rfl⟩

variable {commands : List (TaskType × Bool)}

/-- With commands of one family, the next one fits if it is of the class that the
object was built as. -/
theorem oneFamily_concat (described : Describes task commands) (uniform : OneFamily commands)
    (next : TaskType × Bool) :
    OneFamily (commands ++ [next]) ↔ ∀ object, task.taskClass = some object → object = next.1 := by
  unfold OneFamily at *
  rw [pairwise_append]
  constructor
  · rintro ⟨-, -, fits⟩ object built
    rw [described.object, map_eq_some_iff] at built
    obtain ⟨first, found, rfl⟩ := built
    exact fits first (mem_of_find?_eq_some found) _ (mem_singleton_self _)
      (find?_some found)
  · intro fits
    refine ⟨uniform, pairwise_singleton _ _, ?_⟩
    intro command mem later last room
    obtain rfl := mem_singleton.mp last
    -- The object was built by the first command that had room, maybe this one.
    cases found : commands.find? (·.2) with
    | none => exact absurd room (by simpa using find?_eq_none.mp found _ mem)
    | some first =>
      have built : first.1 = later.1 := fits first.1 (by rw [described.object, found]; rfl)
      obtain ⟨_, _, _, split, unbuilt⟩ := find?_eq_some_iff_append.mp found
      rw [split] at mem uniform
      rcases mem_append.mp mem with early | late
      · exact absurd room (by simpa using unbuilt _ early)
      · rcases mem_cons.mp late with rfl | after
        · exact built
        · have same := (pairwise_cons.mp (pairwise_append.mp uniform).2.1).1 command after
            (find?_some found)
          exact same.symm.trans built

/-! ### A command reaches a task -/

/-- The commands handed on fit the objects. -/
def Tasks.Exact (tasks : Tasks) : Prop := ∀ d ∈ tasks.delivered, d.object = d.wanted

theorem Tasks.exact_deliver (tasks : Tasks) (answer : Answer) (channelId : UInt32)
    (command : UInt16) (wanted object : TaskType) :
    (tasks.deliver answer channelId command wanted object).Exact ↔
    tasks.Exact ∧ object = wanted := by
  have delivered : (tasks.deliver answer channelId command wanted object).delivered =
      tasks.delivered ++ [⟨channelId, command, wanted, object⟩] := by
    unfold deliver
    split <;> rfl
  simp only [Exact, delivered, mem_append, mem_singleton, or_imp, forall_and, forall_eq]

theorem Tasks.query_deliver (tasks : Tasks) (answer : Answer) (channelId : UInt32)
    (command : UInt16) (wanted object : TaskType) :
    (tasks.deliver answer channelId command wanted object).query = tasks.query := by
  unfold deliver
  split <;> rfl

/-- What a command does to a task: the task is described by one more command, other
channels keep theirs, and the command fits if the object does. -/
structure Advances (tasks after : Tasks) (task : TaskInformation)
    (commands : List (TaskType × Bool)) (next : Option (TaskType × Bool)) : Prop where
  described : ∃ task', after.query task.channelId = some task' ∧
    Describes task' (commands ++ next.toList)
  others : ∀ channelId, channelId ≠ task.channelId → after.query channelId = tasks.query channelId
  exact_iff : after.Exact ↔
    tasks.Exact ∧ ∀ command ∈ next, ∀ object, task.taskClass = some object → object = command.1

theorem Tasks.redirectToTask_advances (build : Build) (tasks : Tasks) (answer : Answer)
    (command : UInt16) (found : tasks.query task.channelId = some task)
    (described : Describes task commands) :
    Advances tasks (tasks.redirectToTask build answer task command).2 task commands
    ((taskFamily build command).map (·, answer.newTask)) := by
  obtain ⟨runs, initial, object⟩ := described
  unfold redirectToTask
  cases taskFamily build command with
  | none =>
    refine ⟨⟨task, found, ⟨runs, initial, ?_⟩⟩, fun _ _ => rfl, ?_⟩
    · simpa using object
    · simp
  | some wanted =>
    simp only [taskCommandDispatch]
    cases built : task.taskClass with
    | some actual =>
      rw [built] at initial object
      have stays : Describes task (commands ++ [(wanted, answer.newTask)]) := by
        refine ⟨runs, by rw [initial, built], ?_⟩
        obtain ⟨_, isFirst, _⟩ := map_eq_some_iff.mp object.symm
        rw [built, object, find?_append, isFirst]
        rfl
      rw [initial]
      refine ⟨⟨task, ?_, stays⟩, ?_, ?_⟩
      · exact (congrFun (query_deliver ..) _).trans found
      · exact fun channelId _ => congrFun (query_deliver ..) _
      · exact (exact_deliver ..).trans (and_congr_right fun _ => by simp [built])
    | none =>
      rw [built] at initial object
      have unbuilt : commands.find? (·.2) = none := by
        simpa using object.symm
      have newest : Describes (task.construct answer wanted)
          (commands ++ [(wanted, answer.newTask)]) := by
        unfold TaskInformation.construct
        cases answer.newTask
        · exact ⟨runs, by simp [initial, built], by rw [find?_append, unbuilt]; simp [built]⟩
        · exact ⟨runs, rfl, by rw [find?_append, unbuilt]; rfl⟩
      have channel := task.channelId_construct answer wanted
      have self : (tasks.put (task.construct answer wanted)).query task.channelId =
          some (task.construct answer wanted) := channel ▸ query_put_self ..
      have others : ∀ channelId, channelId ≠ task.channelId →
          (tasks.put (task.construct answer wanted)).query channelId = tasks.query channelId :=
        fun channelId other => query_put_ne _ (channel ▸ other)
      rw [initial]
      cases room : answer.newTask with
      | false => exact ⟨⟨_, self, room ▸ newest⟩, others, by simp [built, Exact, put]⟩
      | true =>
        simp only [isSome_none, Bool.not_false, Bool.not_true, if_true, if_false,
          Bool.false_eq_true]
        refine ⟨⟨_, ?_, room ▸ newest⟩, ?_, ?_⟩
        · rw [query_deliver]
          split
          · exact self
          · exact self
        · intro channelId other
          rw [query_deliver]
          split
          · exact others _ other
          · exact others _ other
        · rw [exact_deliver]
          split <;> simp [built, Exact, put, send]

/-! ### One event -/

/-- What an event does to the task of every channel. -/
structure Stepped (build : Build) (tasks : Tasks) (event : TaskEvent) (after : Tasks) : Prop where
  opened : ∀ channelId, event.opens build channelId → ∃ task,
    after.query channelId = some task ∧ Describes task (event.command build channelId).toList
  closed : ∀ channelId, event.closes channelId → after.query channelId = none
  absent : ∀ channelId, ¬ event.opens build channelId → tasks.query channelId = none →
    after.query channelId = none
  kept : ∀ channelId task commands, ¬ event.opens build channelId → ¬ event.closes channelId →
    tasks.query channelId = some task → Describes task commands → ∃ task',
      after.query channelId = some task' ∧
        Describes task' (commands ++ (event.command build channelId).toList)
  exact_iff : after.Exact ↔ tasks.Exact ∧ ∀ channelId task, ¬ event.opens build channelId →
    tasks.query channelId = some task → ∀ command ∈ event.command build channelId,
      ∀ object, task.taskClass = some object → object = command.1

variable {build : Build} {event : TaskEvent}

/-- An event that is no command and leaves the map alone. -/
theorem Stepped.idle {tasks after : Tasks}
    (quiet : ∀ channelId, ¬ event.opens build channelId ∧ ¬ event.closes channelId ∧
    (event.command build channelId = none ∨ tasks.query channelId = none))
    (mapTask : after.query = tasks.query) (delivered : after.delivered = tasks.delivered) :
    Stepped build tasks event after where
  opened channelId opens := absurd opens (quiet channelId).1
  closed channelId closes := absurd closes (quiet channelId).2.1
  absent channelId _ none := (congrFun mapTask channelId).trans none
  kept channelId task commands _ _ found described := by
    rcases (quiet channelId).2.2 with silent | absent
    · refine ⟨task, (congrFun mapTask _).trans found, ?_⟩
      rw [silent, toList_none, append_nil]
      exact described
    · rw [absent] at found
      cases found
  exact_iff := by
    have same : after.Exact ↔ tasks.Exact := by
      unfold Tasks.Exact
      rw [delivered]
    rw [same, iff_self_and]
    rintro - channelId task - found command mem
    rcases (quiet channelId).2.2 with silent | absent
    · rw [silent] at mem
      cases mem
    · rw [absent] at found
      cases found

theorem command_other (build : Build) {target channelId : UInt32} (other : channelId ≠ target)
    (command : UInt16) (answer : Answer) :
    (frame target command answer).command build channelId = none :=
  if_neg fun same => other same.1.symm

variable {command : UInt16}

theorem command_self (build : Build) (channelId : UInt32) {answer : Answer}
    (made : (needNewTaskInfo build command).1 = true → answer.newTaskInfo = true) :
    (frame channelId command answer).command build channelId =
    (taskFamily build command).map (·, answer.newTask) :=
  if_pos ⟨rfl, made⟩

/-- A command that makes a task. -/
theorem Tasks.dispatchTaskData_opens (build : Build) (tasks : Tasks) {answer : Answer}
    (channelId : UInt32) (new : (needNewTaskInfo build command).1 = true)
    (room : answer.newTaskInfo = true) :
    Stepped build tasks (.frame channelId command answer)
    (tasks.dispatchTaskData build answer channelId command).2 := by
  obtain ⟨described, others, exact_iff⟩ :=
    redirectToTask_advances build (tasks.add _) answer command (query_put_self tasks _)
      (Describes.new channelId (needNewTaskInfo build command).2)
  rw [dispatchTaskData_new tasks new room]
  have opens : (frame channelId command answer).opens build channelId := ⟨rfl, new, room⟩
  have elsewhere : ∀ c, ¬ (frame channelId command answer).opens build c →
      c ≠ channelId := fun c closed same => closed (same ▸ opens)
  refine ⟨?_, fun _ closes => closes.elim, ?_, ?_, ?_⟩
  · rintro c ⟨rfl, -, -⟩
    rw [command_self build _ fun _ => room]
    exact described
  · intro c closed none
    rw [others c (elsewhere c closed), query_add, query_put_ne _ (elsewhere c closed)]
    exact none
  · intro c task commands closed _ found fits
    refine ⟨task, ?_, ?_⟩
    · rw [others c (elsewhere c closed), query_add, query_put_ne _ (elsewhere c closed)]
      exact found
    · rw [command_other build (elsewhere c closed), toList_none, append_nil]
      exact fits
  · rw [exact_iff]
    refine and_congr Iff.rfl (iff_of_true ?_ ?_)
    · rintro _ _ _ built
      cases built
    · intro c task closed _ command mem
      rw [command_other build (elsewhere c closed)] at mem
      cases mem

/-- A command for the task that is there. -/
theorem Tasks.dispatchTaskData_reaches (build : Build) (tasks : Tasks) (answer : Answer)
    (old : (needNewTaskInfo build command).1 = false) (found : tasks.query channelId = some task)
    (described : Describes task commands) :
    Stepped build tasks (.frame channelId command answer)
    (tasks.dispatchTaskData build answer channelId command).2 := by
  have result : tasks.dispatchTaskData build answer channelId command =
      tasks.redirectToTask build answer task command := by
    simp [dispatchTaskData_old tasks old, found, described.runs]
  obtain rfl := query_channelId found
  have made : (needNewTaskInfo build command).1 = true → answer.newTaskInfo = true := by
    rw [old]
    exact fun new => absurd new (by decide)
  have opens : ∀ c, ¬ (frame task.channelId command answer).opens build c := by
    rintro c ⟨-, new, -⟩
    rw [old] at new
    cases new
  have advances : ∀ {commands}, Describes task commands → Advances tasks
      (tasks.redirectToTask build answer task command).2 task commands
      ((taskFamily build command).map (·, answer.newTask)) :=
    fun described => redirectToTask_advances build tasks answer command found described
  rw [result]
  refine ⟨fun c opened => absurd opened (opens c), fun _ closes => closes.elim, ?_, ?_, ?_⟩
  · intro c _ none
    by_cases same : c = task.channelId
    · rw [same, found] at none
      cases none
    · rw [(advances described).others c same]
      exact none
  · intro c task' commands' _ _ found' described'
    by_cases same : c = task.channelId
    · subst same
      obtain rfl := some.inj (found.symm.trans found')
      rw [command_self build _ made]
      exact (advances described').described
    · refine ⟨task', ?_, ?_⟩
      · rw [(advances described).others c same]
        exact found'
      · rw [command_other build same, toList_none, append_nil]
        exact described'
  · rw [(advances described).exact_iff]
    refine and_congr_right fun _ => ⟨fun fits c task' _ found' next mem => ?_, fun fits next mem => ?_⟩
    · by_cases same : c = task.channelId
      · subst same
        obtain rfl := some.inj (found.symm.trans found')
        rw [command_self build _ made] at mem
        exact fits _ mem
      · rw [command_other build same] at mem
        cases mem
    · exact fits task.channelId task (opens _) found _ (by rw [command_self _ _ made]; exact mem)

/-- Every event. -/
theorem Tasks.step_stepped (build : Build) (tasks : Tasks)
    (described : ∀ channelId task, tasks.query channelId = some task →
    ∃ commands, Describes task commands) (event : TaskEvent) :
    Stepped build tasks event (tasks.step build event) := by
  cases event with
  | frame channelId command answer =>
    cases new : (needNewTaskInfo build command).1 with
    | true =>
      cases room : answer.newTaskInfo with
      | true => exact tasks.dispatchTaskData_opens _ _ new room
      | false =>
        have result : (tasks.dispatchTaskData build answer channelId command).2 = tasks := by
          simp only [dispatchTaskData, new, room, if_true, Bool.false_eq_true, if_false]
        refine .idle (fun c => ⟨?_, id, .inl (if_neg ?_)⟩) ?_ ?_
        · rintro ⟨-, -, made⟩
          rw [room] at made
          cases made
        · rintro ⟨-, made⟩
          rw [room] at made
          cases made new
        · rw [step, result]
        · rw [step, result]
    | false =>
      cases found : tasks.query channelId with
      | some task =>
        obtain ⟨commands, fits⟩ := described channelId task found
        exact tasks.dispatchTaskData_reaches _ _ new found fits
      | none =>
        have result : (tasks.dispatchTaskData build answer channelId command).2 = tasks := by
          simp only [dispatchTaskData, new, found, Bool.false_eq_true, if_false]
        refine .idle (fun c => ⟨?_, id, ?_⟩) ?_ ?_
        · rintro ⟨-, made, -⟩
          rw [new] at made
          cases made
        · by_cases same : c = channelId
          · exact .inr (same ▸ found)
          · exact .inl (command_other _ same _ _)
        · rw [step, result]
        · rw [step, result]
  | clear target timer =>
    refine ⟨fun _ opens => opens.elim, ?_, ?_, ?_, ?_⟩
    · intro c closes
      rw [step, query_clearOwnTasks]
      exact if_pos closes
    · intro c _ none
      rw [step, query_clearOwnTasks]
      split
      · rfl
      · exact none
    · intro c task commands _ stays found fits
      refine ⟨task, ?_, ?_⟩
      · rw [step, query_clearOwnTasks]
        exact (if_neg stays).trans found
      · exact (append_nil _).symm ▸ fits
    · refine iff_self_and.mpr ?_
      rintro - _ _ _ _ _ ⟨⟩
  | retry place ready =>
    have result : (tasks.taskClassDeleteRetry build ready place).query = tasks.query ∧
        (tasks.taskClassDeleteRetry build ready place).delivered = tasks.delivered := by
      unfold taskClassDeleteRetry
      split
      · exact ⟨rfl, rfl⟩
      · exact ⟨rfl, rfl⟩
    exact .idle (fun _ => ⟨id, id, .inl rfl⟩) result.1 result.2

/-! ### Runs and their tasks -/

theorem oneTask_concat {events : List TaskEvent} : OneTask build channelId (events ++ [event]) ↔
    (events = [] ∧ event.opens build channelId) ∨
    (OneTask build channelId events ∧ ¬ event.opens build channelId ∧
    ¬ event.closes channelId) := by
  constructor
  · rintro ⟨opener, rest, split, opens, stays⟩
    cases events with
    | nil =>
      obtain ⟨rfl, -⟩ := List.cons.inj split
      exact .inl ⟨rfl, opens⟩
    | cons first events =>
      obtain ⟨rfl, rfl⟩ := List.cons.inj split
      have last := stays _ (mem_append_right _ (mem_singleton_self _))
      exact .inr ⟨⟨first, _, rfl, opens,
        fun e mem => stays e (mem_append_left _ mem)⟩, last⟩
  · rintro (⟨rfl, opens⟩ | ⟨⟨opener, rest, rfl, opens, stays⟩, last⟩)
    · exact ⟨_, [], rfl, opens, by simp⟩
    · refine ⟨opener, rest ++ [event], rfl, opens, ?_⟩
      exact forall_mem_append.mpr ⟨stays, forall_mem_singleton.mpr last⟩

theorem OneTask.ne_nil {events : List TaskEvent} (task : OneTask build channelId events) :
    events ≠ [] := by
  obtain ⟨opener, rest, rfl, -⟩ := task
  exact cons_ne_nil opener rest

theorem commandsOf_concat (build : Build) (channelId : UInt32) (events : List TaskEvent)
    (event : TaskEvent) :
    commandsOf build channelId (events ++ [event]) =
    commandsOf build channelId events ++ (event.command build channelId).toList := by
  rw [commandsOf, filterMap_append]
  congr 1

/-- The tasks that end with a list of events. -/
theorem suffix_concat {history before life : List TaskEvent}
    (split : history ++ [event] = before ++ life) (some : life ≠ []) :
    ∃ life', life = life' ++ [event] ∧ history = before ++ life' := by
  obtain ⟨life', last, rfl⟩ : ∃ life' last, life = life' ++ [last] :=
    ⟨life.dropLast, life.getLast some, (dropLast_append_getLast some).symm⟩
  rw [← append_assoc] at split
  obtain ⟨same, lasts⟩ := append_inj' split rfl
  exact ⟨life', by rw [(List.cons.inj lasts).1], same⟩

variable {history : List TaskEvent}

theorem uniform_concat : Uniform build (history ++ [event]) ↔ Uniform build history ∧
    ∀ channelId before life, history ++ [event] = before ++ life →
    OneTask build channelId life → OneFamily (commandsOf build channelId life) := by
  constructor
  · refine fun uniform => ⟨fun c before life after split task => ?_, fun c before life split task => ?_⟩
    · exact uniform c _ _ (after ++ [event]) (by rw [split, append_assoc]) task
    · exact uniform c _ _ [] (by rw [split, append_nil]) task
  · rintro ⟨uniform, ending⟩ c before life after split task
    cases after using List.reverseRecOn with
    | nil => exact ending c _ _ (by rw [split, append_nil]) task
    | append_singleton after last =>
      rw [← append_assoc] at split
      exact uniform c _ _ _ (append_inj' split rfl).1 task

/-- The tasks of a session are those that its history describes. -/
structure Tasks.Traced (build : Build) (tasks : Tasks) (history : List TaskEvent) : Prop where
  there : ∀ channelId task, tasks.query channelId = some task → ∃ before life,
    history = before ++ life ∧ OneTask build channelId life ∧
      Describes task (commandsOf build channelId life)
  known : ∀ channelId before life, history = before ++ life → OneTask build channelId life →
    ∃ task, tasks.query channelId = some task ∧ Describes task (commandsOf build channelId life)
  exact_iff : tasks.Exact ↔ Uniform build history

theorem Tasks.traced_empty (build : Build) : empty.Traced build [] where
  there _ _ found := by cases found
  known channelId before life split task :=
    absurd (append_eq_nil_iff.mp split.symm).2 task.ne_nil
  exact_iff := by
    refine iff_of_true (fun _ mem => by cases mem) fun _ before life after split task => ?_
    have nothing := (append_eq_nil_iff.mp (append_eq_nil_iff.mp split.symm).1).2
    exact absurd nothing task.ne_nil

variable {after : Tasks}

section

variable (traced : tasks.Traced build history) (stepped : Stepped build tasks event after)
include traced stepped

/-- The tasks are those of the longer history. -/
theorem Tasks.Traced.known_step (channelId : UInt32)
    (before life : List TaskEvent) (split : history ++ [event] = before ++ life)
    (one : OneTask build channelId life) : ∃ task, after.query channelId = some task ∧
    Describes task (commandsOf build channelId life) := by
  obtain ⟨life', rfl, split'⟩ := suffix_concat split one.ne_nil
  rw [commandsOf_concat]
  rcases oneTask_concat.mp one with ⟨rfl, opens⟩ | ⟨old, opens, closes⟩
  · exact stepped.opened _ opens
  · obtain ⟨task, found, described⟩ := traced.known channelId before life' split' old
    exact stepped.kept _ task _ opens closes found described

theorem Tasks.Traced.there_step (channelId : UInt32) (task : TaskInformation)
    (found : after.query channelId = some task) :
    ∃ before life, history ++ [event] = before ++ life ∧ OneTask build channelId life ∧
    Describes task (commandsOf build channelId life) := by
  by_cases opens : event.opens build channelId
  · refine ⟨_, [event], rfl, oneTask_concat.mpr (.inl ⟨rfl, opens⟩), ?_⟩
    obtain ⟨task', found', described⟩ := stepped.opened channelId opens
    obtain rfl := some.inj (found.symm.trans found')
    exact (commandsOf_concat _ _ [] event).symm ▸ described
  · have stays : ¬ event.closes channelId := by
      intro closes
      rw [stepped.closed channelId closes] at found
      cases found
    cases old : tasks.query channelId with
    | none =>
      rw [stepped.absent channelId opens old] at found
      cases found
    | some task₀ =>
      obtain ⟨before, life, rfl, one, described⟩ := traced.there channelId task₀ old
      obtain ⟨task', found', described'⟩ :=
        stepped.kept channelId task₀ _ opens stays old described
      obtain rfl := some.inj (found.symm.trans found')
      refine ⟨_, life ++ [event], append_assoc .., ?_, ?_⟩
      · exact oneTask_concat.mpr (.inr ⟨one, opens, stays⟩)
      · rw [commandsOf_concat]
        exact described'

/-- The commands fit their objects as long as the tasks get commands of one family. -/
theorem Tasks.Traced.exact_step : after.Exact ↔ Uniform build (history ++ [event]) := by
  rw [stepped.exact_iff, uniform_concat, traced.exact_iff]
  refine and_congr_right fun uniform => ⟨fun fits c before life split one => ?_,
    fun ending c task opens found next mem => ?_⟩
  · obtain ⟨life', rfl, rfl⟩ := suffix_concat split one.ne_nil
    rw [commandsOf_concat]
    rcases oneTask_concat.mp one with ⟨rfl, opens⟩ | ⟨old, opens, closes⟩
    · cases event.command build c <;> simp [OneFamily, commandsOf]
    · obtain ⟨task, found, described⟩ := traced.known c before life' rfl old
      have before_family : OneFamily (commandsOf build c life') :=
        uniform c before life' [] (append_nil _).symm old
      cases command : event.command build c with
      | none =>
        rw [toList_none, append_nil]
        exact before_family
      | some next =>
        exact (oneFamily_concat described before_family _).mpr
          (fits c task opens found _ command)
  · have stays : ¬ event.closes c := by
      intro closes
      cases event with
      | clear => cases mem
      | frame => exact closes
      | retry => exact closes
    obtain ⟨before, life, rfl, one, described⟩ := traced.there c task found
    have family := ending c _ (life ++ [event]) (append_assoc ..)
      (oneTask_concat.mpr (.inr ⟨one, opens, stays⟩))
    rw [commandsOf_concat, mem_def.mp mem] at family
    exact (oneFamily_concat described (uniform c _ _ [] (append_nil _).symm one) _).mp
      family

end

theorem Tasks.traced_run (build : Build) (events : List TaskEvent) :
    (run build events).Traced build events := by
  induction events using List.reverseRecOn with
  | nil => exact traced_empty build
  | append_singleton history event traced =>
    have stepped := step_stepped build (run build history)
      (fun c task found => by
        obtain ⟨_, _, _, _, described⟩ := traced.there c task found
        exact ⟨_, described⟩) event
    rw [run, foldl_append]
    exact ⟨traced.there_step stepped, traced.known_step stepped, traced.exact_step stepped⟩

/-- On both sides, and for every sequence of frames: all commands are handed to
objects of their own class if, and only if, every task gets commands of one family
from the one that builds its object on. -/
theorem delivered_exact_iff (build : Build) (events : List TaskEvent) :
    (∀ d ∈ (run build events).delivered, d.object = d.wanted) ↔ Uniform build events :=
  (traced_run _ _).exact_iff

/-- A shell gets a piece of a file on the device, and a forward gets one on the host. -/
theorem delivered_confused :
    (run .daemon [.frame 1 shellInit.code ⟨true, true, true⟩,
      .frame 1 fileData.code ⟨true, true, true⟩]).delivered =
        [⟨1, shellInit.code, .shell, .shell⟩,
          ⟨1, fileData.code, .file, .shell⟩] ∧
    (run .host [.frame 1 forwardInit.code ⟨true, true, true⟩,
      .frame 1 fileData.code ⟨true, true, true⟩]).delivered =
        [⟨1, forwardInit.code, .forward, .forward⟩,
          ⟨1, fileData.code, .file, .forward⟩] := by
  decide +kernel

/-- What is in the map after any run: a channel has a task just when the run ends with one,
and its object is the one that the first of its commands with room for it built. -/
theorem taskClass_run_iff (build : Build) (events : List TaskEvent) (channelId : UInt32)
    (object : Option TaskType) :
    ((run build events).query channelId).map (·.taskClass) = some object ↔
      ∃ before life, events = before ++ life ∧ OneTask build channelId life ∧
        ((commandsOf build channelId life).find? (·.2)).map Prod.fst = object := by
  have traced := traced_run build events
  rw [map_eq_some_iff]
  constructor
  · rintro ⟨task, found, rfl⟩
    obtain ⟨before, life, split, one, described⟩ := traced.there channelId task found
    exact ⟨before, life, split, one, described.object.symm⟩
  · rintro ⟨before, life, split, one, rfl⟩
    obtain ⟨task, found, described⟩ := traced.known channelId before life split one
    exact ⟨task, found, described.object⟩

/-! ### The end of a task -/

/-- A task that has an object is of the type that the object was built as. -/
structure TaskInformation.Typed (task : TaskInformation) : Prop where
  taskType : ∀ object, task.taskClass = some object → task.taskType = object
  unbuilt : task.hasInitial = false → task.taskClass = none

/-- All tasks are so, and were taken down so. -/
structure Tasks.Typed (tasks : Tasks) : Prop where
  mapTask : ∀ task ∈ tasks.mapTask, task.Typed
  removing : ∀ task ∈ tasks.removing, task.Typed
  released : ∀ release ∈ tasks.released, release.fits = true

section

variable (typed : tasks.Typed)
include typed

theorem Tasks.Typed.put (own : task.Typed) : (tasks.put task).Typed where
  __ := typed
  mapTask := by
    refine forall_mem_append.mpr ⟨fun entry old => ?_, forall_mem_singleton.mpr own⟩
    exact typed.mapTask entry (mem_of_mem_filter old)

theorem Tasks.Typed.deliver (answer : Answer) (channelId : UInt32)
    (command : UInt16) (wanted object : TaskType) :
    (tasks.deliver answer channelId command wanted object).Typed := by
  unfold Tasks.deliver
  split
  · exact { typed with }
  · exact { typed with }

theorem Tasks.Typed.redirectToTask (build : Build) (answer : Answer)
    (own : task.Typed) (command : UInt16) :
    (tasks.redirectToTask build answer task command).2.Typed := by
  unfold Tasks.redirectToTask Tasks.taskCommandDispatch
  dsimp only
  split
  · exact typed
  rename_i wanted _
  split
  · rename_i first
    have unbuilt : task.taskClass = none := own.unbuilt (by simpa using first)
    have made : (tasks.put (task.construct answer wanted)).Typed := by
      refine typed.put ?_
      unfold TaskInformation.construct
      split
      · exact ⟨fun object built => some.inj built, fun never => (by cases never)⟩
      · refine ⟨fun object built => ?_, fun _ => unbuilt⟩
        rw [show _ = none from unbuilt] at built
        cases built
    split
    · exact made
    · refine Tasks.Typed.deliver ?_ _ _ _ _ _
      split
      · exact { made with }
      · exact made
  · split
    · exact typed
    · exact typed.deliver _ _ _ _ _

theorem Tasks.Typed.dispatchTaskData (build : Build) (answer : Answer)
    (channelId : UInt32) (command : UInt16) :
    (tasks.dispatchTaskData build answer channelId command).2.Typed := by
  have new : (TaskInformation.new channelId (needNewTaskInfo build command).2).Typed :=
    ⟨fun _ built => (by cases built), fun _ => rfl⟩
  unfold Tasks.dispatchTaskData
  cases (needNewTaskInfo build command).1 with
  | true =>
    cases answer.newTaskInfo with
    | true =>
      have added : (tasks.add (.new channelId _)).Typed := { typed.put new with }
      exact added.redirectToTask _ _ new _
    | false => exact typed
  | false =>
    simp only [Bool.false_eq_true, if_false]
    cases found : tasks.query channelId with
    | none => exact typed
    | some task =>
      dsimp only
      split
      · exact typed
      · exact typed.redirectToTask _ _ (typed.mapTask task (mem_of_find?_eq_some found)) _

theorem Tasks.Typed.clearOwnTasks (timer : UInt32 → Bool)
    (channelIDInput : UInt32) : (tasks.clearOwnTasks timer channelIDInput).Typed where
  mapTask task mem := typed.mapTask task (mem_of_mem_filter mem)
  removing task mem := by
    rcases mem_append.mp mem with old | new
    · exact typed.removing task old
    · obtain ⟨cleared, cleared_mem, begun⟩ := mem_filterMap.mp new
      have own := typed.mapTask cleared (mem_of_mem_filter cleared_mem)
      unfold beginRemoveTask at begun
      split_ifs at begun
      cases begun
      exact { own with }
  released := typed.released

end

/-- The switch goes to the class of the type, or to its base. -/
theorem fits_of_instanceClass {taskType : TaskType} {wanted : InstanceClass}
    (served : instanceClass build taskType = some wanted) (channelId : UInt32) :
    Release.fits ⟨channelId, wanted, taskType⟩ = true := by
  cases build <;> cases taskType <;> cases served <;> rfl

/-- What taking down a task leaves of it, and the casts. -/
def Fits (result : TaskInformation × List Release) : Prop :=
  result.1.Typed ∧ ∀ cast ∈ result.2, cast.fits = true

theorem TaskInformation.Typed.fits (own : task.Typed) : Fits (task, []) :=
  ⟨own, fun _ mem => absurd mem not_mem_nil⟩

theorem removeInstanceTask_fits (build : Build) (release ready : Bool) (own : task.Typed) :
    Fits (removeInstanceTask build release ready task).2 := by
  unfold removeInstanceTask
  cases built : task.taskClass with
  | none => exact own.fits
  | some object =>
    cases served : instanceClass build task.taskType with
    | none => exact own.fits
    | some wanted =>
      have casts : ∀ cast ∈ [(⟨task.channelId, wanted, object⟩ : Release)],
          cast.fits = true := by
        rw [forall_mem_singleton, ← own.taskType object built]
        exact fits_of_instanceClass served _
      dsimp only
      split_ifs
      · exact ⟨own, casts⟩
      · exact ⟨own, casts⟩
      · exact ⟨⟨fun _ gone => (by cases gone), fun _ => rfl⟩, casts⟩

/-- First the object is stopped, then it is deleted. -/
theorem retryTask_fits (build : Build) (ready : Bool) (own : task.Typed) :
    Fits (retryTask build ready task).2 := by
  have stopped : Fits (if task.isCleared then (task, []) else
      (removeInstanceTask build false ready { task with isCleared := true }).2) := by
    split
    · exact own.fits
    · exact removeInstanceTask_fits _ false ready { own with }
  have deleted : ∀ task : TaskInformation, task.Typed →
      Fits (if task.taskFree then (true, task, []) else removeInstanceTask build true ready task).2 := by
    intro task own
    split
    · exact own.fits
    · exact removeInstanceTask_fits _ true ready own
  obtain ⟨left, casts⟩ := deleted _ stopped.1
  exact ⟨left, forall_mem_append.mpr ⟨stopped.2, casts⟩⟩

theorem Tasks.Typed.taskClassDeleteRetry (typed : tasks.Typed) (build : Build) (ready : Bool)
    (place : Nat) : (tasks.taskClassDeleteRetry build ready place).Typed := by
  unfold Tasks.taskClassDeleteRetry
  cases found : tasks.removing[place]? with
  | none => exact typed
  | some task =>
    have own := typed.removing task (mem_of_getElem? found)
    obtain ⟨left, casts⟩ := retryTask_fits build ready own
    refine ⟨typed.mapTask, fun entry mem => ?_, forall_mem_append.mpr ⟨typed.released, casts⟩⟩
    dsimp only at mem
    split at mem
    · exact typed.removing entry (mem_of_mem_eraseIdx mem)
    · rcases mem_or_eq_of_mem_set mem with old | rfl
      · exact typed.removing entry old
      · exact left

/-- In every run a task is stopped and deleted as what its object was built as, or as the base of
that: the end of a task goes by its type, not by the command at hand. -/
theorem released_exact (build : Build) (events : List TaskEvent) :
    (run build events).released.all Release.fits := by
  suffices typed : (run build events).Typed by simpa using typed.released
  induction events using List.reverseRecOn with
  | nil => constructor <;> exact fun _ mem => absurd mem not_mem_nil
  | append_singleton history event typed =>
    rw [run, foldl_append]
    cases event with
    | frame channelId command answer => exact typed.dispatchTaskData _ _ _ _
    | clear channelId timer => exact typed.clearOwnTasks _ _
    | retry place ready => exact typed.taskClassDeleteRetry _ _ _

end Hdc.Session
