import Hdc.Transfer.Path

/-!
The trackers of the process list (`ProcessListUpdated`), which `AdminContext` calls on every
change with `mutex` held (`loop_iff`, `updated_iff`).
-/

namespace Hdc.Daemon.Trackers

open List

/-- A registered process, an entry of `mapCtxJdwp`. -/
structure Process where
  pid : UInt32
  pkgName : Bytes
  isDebug : Bool

/-- The task of a `track-jpid`; which one it is say its session and its channel. -/
structure Tracker where
  sessionId : UInt32
  channelId : UInt32
  debugRelease : UInt8
  taskStop : Bool
  taskFree : Bool
  taskClass : Bool
deriving DecidableEq

def Tracker.stopped (tracker : Tracker) : Bool :=
  tracker.taskStop || tracker.taskFree || !tracker.taskClass

/-- `GetProcessListExtendPkgName` -/
def getProcessListExtendPkgName (processes : List Process) (dr : UInt8) : Bytes :=
  processes.flatMap fun process =>
    let line := decimal process.pid.toNat ++ str " " ++ process.pkgName
    if dr = 0 ∨ dr = 1 ∧ process.isDebug ∨ dr = 2 ∧ !process.isDebug then line ++ str "\n"
    else if dr = 3 then line ++ str (if process.isDebug then " debug\n" else " release\n")
    else []

def hexDigit (n : Nat) : UInt8 := .ofNat (if n < 10 then 48 + n else 87 + n)

/-- `"%04zx\n"` -/
def head (len : Nat) : Bytes :=
  [hexDigit (len / 4096 % 16), hexDigit (len / 256 % 16), hexDigit (len / 16 % 16),
    hexDigit (len % 16), 10]

def jpidTrackListSize : Nat := 1024 * 4

/-- `JdwpProcessListMsg`: `memcpy_s` refuses what is longer than the room. -/
def jdwpProcessListMsg (result : Bytes) : Option Bytes :=
  let len := if jpidTrackListSize < result.length + 5 then jpidTrackListSize else result.length
  if jpidTrackListSize - 5 < len then none else some (head len ++ result.take len)

section

/-! `js` is `JS_JDWP_CONNECT`; without it `GetProcessList` waits for the lock that its own thread
holds. The text of the message is the format of a `printf`. -/

variable (js : Bool) (format : Bytes → Bytes) (processes : List Process)

/-- `SendProcessList`, where there is something to send. -/
def sendProcessList (tracker : Tracker) : Tracker × Option Bytes :=
  (tracker, (jdwpProcessListMsg (getProcessListExtendPkgName processes tracker.debugRelease)).map
    fun data => format (cStr data))

/-- The loop of `ProcessListUpdated` over the trackers behind `done`: those that are left, and what
was sent to those it came by. `erase` returns the end. -/
def loop (done : List Tracker) : List Tracker → Option (List Tracker × List (Tracker × Option Bytes))
  | [] => some (done, [])
  | tracker :: trackers =>
    if tracker.stopped then some ((done ++ tracker :: trackers).filter (· ≠ tracker), [])
    else if !js then none
    else (loop (done ++ [tracker]) trackers).map fun (left, sent) =>
      (left, sendProcessList format processes tracker :: sent)

/-- A message with its length and the list, or a part of a list that is too long. -/
def Right (sent : Tracker × Option Bytes) : Prop :=
  let list := getProcessListExtendPkgName processes sent.1.debugRelease
  ∃ text, sent.2 = some (head text.length ++ text) ∧ text <+: list ∧
    (list.length + 5 ≤ jpidTrackListSize → text = list)

/-- The stopped trackers are removed, and every other one gets its message. -/
def Updated (done trackers : List Tracker) : Prop :=
  let live := trackers.filter fun tracker => !tracker.stopped
  ∃ sent, loop js format processes done trackers = some (done ++ live, sent) ∧
    sent.map Prod.fst = live ∧ ∀ message ∈ sent, Right processes message

/-- What a tracker that has not stopped needs. -/
def Reachable (tracker : Tracker) : Prop :=
  let list := getProcessListExtendPkgName processes tracker.debugRelease
  js = true ∧ list.length + 5 ≤ jpidTrackListSize ∧
    format (cStr (head list.length ++ list)) = head list.length ++ list

/-- Those that need it are reachable, and nothing but itself comes behind a tracker that has
stopped. -/
def Orderly (trackers : List Tracker) : Prop :=
  (∀ tracker ∈ trackers, tracker.stopped = false → Reachable js format processes tracker) ∧
    trackers.Pairwise fun tracker other => tracker.stopped = true → other = tracker

variable {js format processes}

theorem right_iff (tracker : Tracker) :
    Right processes (sendProcessList format processes tracker) ↔
      Reachable true format processes tracker := by
  rw [Reachable, and_iff_right rfl, Right, sendProcessList]
  generalize getProcessListExtendPkgName processes tracker.debugRelease = list
  by_cases fits : list.length + 5 ≤ jpidTrackListSize
  · have sent : jdwpProcessListMsg list = some (head list.length ++ list) := by
      rw [jdwpProcessListMsg, if_neg (Nat.not_lt.mpr fits), if_neg (by omega), take_length]
    rw [sent, and_iff_right fits]
    constructor
    · rintro ⟨text, same, -, whole⟩
      obtain rfl := whole fits
      exact Option.some.inj same
    · intro same
      exact ⟨list, congrArg some same, prefix_refl _, fun _ => rfl⟩
  · have nothing : jdwpProcessListMsg list = none := by
      rw [jdwpProcessListMsg, if_pos (Nat.not_le.mp fits), if_pos (by decide)]
    rw [nothing]
    refine iff_of_false ?_ fun both => fits both.1
    rintro ⟨_, same, -⟩
    cases same

theorem updated_cons {done trackers : List Tracker} {tracker : Tracker}
    (running : tracker.stopped = false) :
    Updated true format processes done (tracker :: trackers) ↔
      Right processes (sendProcessList format processes tracker) ∧
        Updated true format processes (done ++ [tracker]) trackers := by
  simp only [Updated, loop, running, filter_cons]
  constructor
  · rintro ⟨sent, ended, listed, right⟩
    obtain ⟨⟨left, rest⟩, inner, same⟩ := Option.map_eq_some_iff.mp ended
    obtain ⟨rfl, rfl⟩ := Prod.mk.inj same
    rw [forall_mem_cons] at right
    exact ⟨right.1, rest, by simpa using inner, (cons.inj listed).2, right.2⟩
  · rintro ⟨first, sent, inner, listed, right⟩
    refine ⟨_ :: sent, ?_, ?_, forall_mem_cons.mpr ⟨first, right⟩⟩
    · simp [inner]
    · simp [listed, sendProcessList]

theorem loop_iff {done : List Tracker} (live : ∀ tracker ∈ done, tracker.stopped = false)
    (trackers : List Tracker) : Updated js format processes done trackers ↔
      Orderly js format processes trackers := by
  induction trackers generalizing done with
  | nil => simp [Updated, loop, Orderly]
  | cons tracker trackers ih =>
    rw [Orderly, pairwise_cons, forall_mem_cons]
    cases stopped : tracker.stopped with
    | true =>
      -- the loop is over, and every other tracker is still there
      have kept : done.filter (· ≠ tracker) = done := by
        refine filter_eq_self.mpr fun other mem => decide_eq_true ?_
        rintro rfl
        exact Bool.false_ne_true ((live other mem).symm.trans stopped)
      simp only [Updated, loop, stopped, filter_append, kept, filter_cons]
      constructor
      · rintro ⟨sent, ended, listed, -⟩
        obtain ⟨left, rfl⟩ := Prod.mk.inj (Option.some.inj ended)
        rw [← listed] at left
        have same : ∀ other ∈ trackers, other = tracker := by simpa using left
        refine ⟨⟨nofun, fun other mem running => ?_⟩, fun other mem _ => same other mem, ?_⟩
        · rw [same other mem, stopped] at running
          cases running
        · refine pairwise_of_forall_mem_list fun a first b second _ => ?_
          rw [same a first, same b second]
      · rintro ⟨-, same, -⟩
        have others : ∀ other ∈ trackers, other = tracker := fun other mem => same other mem trivial
        have running : trackers.filter (!·.stopped) = [] := by
          simpa using fun other mem => others other mem ▸ stopped
        exact ⟨[], by simpa [running] using others, by simp [running], nofun⟩
    | false =>
      have next := @ih (done ++ [tracker]) (by simpa [or_imp, forall_and, stopped] using live)
      cases js with
      | false =>
        refine iff_of_false ?_ fun both => Bool.false_ne_true (both.1.1 rfl).1
        rintro ⟨_, ended, -⟩
        simp [loop, stopped] at ended
      | true =>
        rw [updated_cons stopped, right_iff, next, Orderly]
        simp [and_assoc]

end

theorem updated_iff (js : Bool) (format : Bytes → Bytes) (processes : List Process)
    (trackers : List Tracker) :
    Updated js format processes [] trackers ↔ Orderly js format processes trackers :=
  loop_iff (fun _ none => absurd none not_mem_nil) trackers

/-- Of two trackers that have stopped, one stays. -/
theorem stopped_stays :
    ¬ Updated true id [] [] [⟨1, 1, 0, true, false, true⟩, ⟨1, 2, 0, true, false, true⟩] := by
  rintro ⟨_, ended, -⟩
  cases ended

end Hdc.Daemon.Trackers
