import Hdc.Host.Dispatch

/-!
Which registration a permit comes from.

Along every history of client commands, device frames and frees, a permit is the
doing of the last registration on its channel: a command that finds a permit takes
it away instead of leaving it. So the text of a permit is always the one that the
client named last. What it was named for is not kept, and the two checks compare
the text only.

* `permit_exact_iff`: when a frame that gets past the gate was asked for.
-/

namespace Hdc.Host

open Session HdcCommand Function Permits HdcServer Option

/-! ### Histories -/

/-- A server, and every registration that a client has made on it: the channel and the
arguments. -/
structure History where
  server : HdcServer
  registered : List (UInt32 × List Bytes)

/-- What can happen to a server. -/
inductive HostEvent where
  | connect (sessionId : UInt32) (connectKey : Bytes)
  | attach (channelId sessionId : UInt32)
  | command (channelId : UInt32) (cmdFlag : UInt16) (parameters : Bytes) (out : Outside)
  | frame (sessionId channelId : UInt32) (command : UInt16) (payload : Bytes) (out : Outside)
  | freeChannel (channelId : UInt32)
  | freeSession (sessionId : UInt32)

/-- The command line that `TaskCommand` registers. -/
def registeredText (channel : HChannel) (cmdFlag : UInt16) (parameters : Bytes) : Bytes :=
  if cmdFlag = HdcCommand.fileInit.code then (handleRemote channel parameters).2
  else parameters

/-- The commands that `TaskCommand` registers. -/
def registers (cmdFlag : UInt16) : Bool :=
  cmdFlag = HdcCommand.fileInit.code || cmdFlag = HdcCommand.forwardInit.code

namespace History

def step (history : History) : HostEvent → History
  | .connect sessionId connectKey =>
    { history with server := { history.server with
        mapSession := update history.server.mapSession sessionId
          (some ⟨connectKey, false, .empty⟩) } }
  | .attach channelId sessionId =>
    { history with server := { history.server with
        mapChannel := update history.server.mapChannel channelId
          (some ⟨sessionId, false, (history.server.mapChannel channelId).any (·.fromClient)⟩) } }
  | .command channelId cmdFlag parameters out =>
    match history.server.mapChannel channelId with
    | none => history
    | some channel =>
      { server := (history.server.taskCommand out channelId channel cmdFlag parameters).2
        registered :=
          if registers cmdFlag then
            history.registered ++ [(channelId,
              (Base.splitCommandToArgs (registeredText channel cmdFlag parameters)).getD [])]
          else history.registered }
  | .frame sessionId channelId command payload out =>
    { history with
      server := (history.server.fetchCommand out sessionId channelId command payload).2 }
  | .freeChannel channelId =>
    { history with server := { history.server with
        mapChannel := update history.server.mapChannel channelId none
        hostReceivePermits := history.server.hostReceivePermits.removeHostReceivePermit channelId } }
  | .freeSession sessionId =>
    { history with server := { history.server with
        mapSession := update history.server.mapSession sessionId none
        hostReceivePermits :=
          history.server.hostReceivePermits.removeHostReceivePermitsBySession sessionId } }

/-- The server before its first connection. -/
def start : History :=
  ⟨⟨fun _ => none, fun _ => none, fun _ => none, [], [], [], [], []⟩, []⟩

def run (events : List HostEvent) : History := events.foldl step start

/-- The arguments of the last registration on a channel. -/
def last (history : History) (channelId : UInt32) : Option (List Bytes) :=
  (history.registered.filter (·.1 = channelId)).getLast?.map Prod.snd

end History

/-! ### Where a permit comes from -/

/-- A registration names a text, as a path to receive or as the second node of a
forward. -/
def Names (argv : List Bytes) (text : Bytes) : Prop :=
  (∃ args, argv = str "recv" :: args ∧ receiveTarget args = some text) ∨
    ∃ command args, (command = str "rport" ∨ command = str "fport") ∧ argv = command :: args ∧
      forwardTarget args = some text

/-- Every permit is the one that the last registration on its channel asked for. -/
def History.Granted (history : History) : Prop :=
  ∀ channelId permit, history.server.hostReceivePermits channelId = some permit →
    ∃ argv, history.last channelId = some argv ∧ Names argv permit.target

variable {argv : List Bytes}

/-- A text that was found leaves no permit, or the one it names. -/
theorem storeTarget_cases (permits : Permits) (channelId : UInt32) (channel : HChannel)
    {found : Option Bytes} (named : ∀ target, found = some target → Names argv target) :
    let stored := permits.storeTarget channelId channel found
    let after := if stored.1 then stored.2 else stored.2.removeHostReceivePermit channelId
    after = update permits channelId none ∨ ∃ target, Names argv target ∧
      after = update permits channelId (some ⟨channel.targetSessionId, target⟩) := by
  cases found with
  | none => exact .inl rfl
  | some target =>
    unfold storeTarget storeHostPermit
    dsimp only
    split
    · exact .inl rfl
    · exact .inr ⟨target, named _ rfl, rfl⟩

/-- A registration leaves no permit, or the one it names. -/
theorem registerHostPermit_cases (permits : Permits) (channelId : UInt32) (channel : HChannel)
    (parameters : Bytes) :
    (permits.registerHostPermit channelId channel parameters).2 =
    update permits channelId none ∨
    ∃ target, Names ((Base.splitCommandToArgs parameters).getD []) target ∧
    (permits.registerHostPermit channelId channel parameters).2 =
    update permits channelId (some ⟨channel.targetSessionId, target⟩) := by
  unfold registerHostPermit
  cases split : Base.splitCommandToArgs parameters with
  | none => exact .inl rfl
  | some argv =>
    cases argv with
    | nil => exact .inl rfl
    | cons command args =>
      dsimp only [getD_some]
      by_cases recv : command = str "recv"
      · simp only [if_pos recv, registerRecvPermit]
        exact storeTarget_cases _ _ _ fun target found => .inl ⟨args, by rw [recv], found⟩
      · by_cases forward : command = str "rport" ∨ command = str "fport"
        · simp only [if_neg recv, if_pos forward, registerForwardPermit]
          exact storeTarget_cases _ _ _ fun target found => .inr ⟨_, args, forward, rfl, found⟩
        · simp only [if_neg recv, if_neg forward]
          exact .inl rfl

theorem last_append_self (history : History) (server : HdcServer) (channelId : UInt32)
    (argv : List Bytes) :
    History.last ⟨server, history.registered ++ [(channelId, argv)]⟩ channelId = some argv := by
  simp [History.last]

theorem last_append_ne (history : History) (server : HdcServer) {channelId other : UInt32}
    (different : other ≠ channelId) (argv : List Bytes) :
    History.last ⟨server, history.registered ++ [(channelId, argv)]⟩ other = history.last other := by
  simp [History.last, Ne.symm different]

/-- Frames of devices leave the permits alone. -/
theorem fetchCommand_permits (server : HdcServer) (out : Outside) (sessionId channelId : UInt32)
    (command : UInt16) (payload : Bytes) :
    (server.fetchCommand out sessionId channelId command payload).2.hostReceivePermits =
    server.hostReceivePermits := by
  rcases fetchCommand_cases server out sessionId channelId command payload with
    ⟨session, channel, handed⟩ | ⟨sent, same⟩
  · rw [handed.fetchCommand_eq]
    unfold dispatchChannelCommand
    split_ifs
    · rfl
    · unfold handleKernelEcho
      split <;> rfl
    · unfold handleChannelClose
      split
      · rfl
      · split <;> rfl
    · unfold handleForwardSuccess
      split <;> rfl
    · rfl
    · unfold dispatchPassthroughTask
      split <;> rfl
  · rw [same]

/-- A client's command touches the permits by its registration only. -/
theorem taskCommand_permits (server : HdcServer) (out : Outside) (channelId : UInt32)
    (channel : HChannel) (cmdFlag : UInt16) (parameters : Bytes) :
    ∃ channel', (server.taskCommand out channelId channel cmdFlag parameters).2.hostReceivePermits =
      if registers cmdFlag then
        (server.hostReceivePermits.registerHostPermit channelId channel'
          (registeredText channel cmdFlag parameters)).2
      else server.hostReceivePermits := by
  -- Whatever is done with the command afterwards, the permits stay.
  have kept : ∀ (channel' : HChannel) (text : Bytes),
      (if cmdFlag = fileInit.code ∨ cmdFlag = appInit.code then
        handleRemote channel parameters else (channel, parameters)) = (channel', text) →
      (server.taskCommand out channelId channel cmdFlag parameters).2.hostReceivePermits =
        if cmdFlag = fileInit.code ∨ cmdFlag = forwardInit.code then
          (server.hostReceivePermits.registerHostPermit channelId channel' text).2
        else server.hostReceivePermits := by
    intro channel' text read
    unfold taskCommand
    rw [read]
    dsimp only
    split
    · split
      · rfl
      · split
        · rfl
        · split <;> rfl
    · rfl
  obtain ⟨channel', text, read⟩ : ∃ channel' text,
      (if cmdFlag = fileInit.code ∨ cmdFlag = appInit.code then
        handleRemote channel parameters else (channel, parameters)) = (channel', text) :=
    ⟨_, _, rfl⟩
  refine ⟨channel', (kept channel' _ read).trans ?_⟩
  have same : registers cmdFlag = true ↔
      cmdFlag = fileInit.code ∨ cmdFlag = forwardInit.code := by
    simp [registers]
  by_cases registered : cmdFlag = fileInit.code ∨ cmdFlag = forwardInit.code
  · rw [if_pos registered, if_pos (same.mpr registered)]
    have text_eq : text = registeredText channel cmdFlag parameters := by
      unfold registeredText
      rcases registered with file | forward
      · rw [if_pos (.inl file)] at read
        rw [if_pos file, read]
      · subst forward
        exact (congrArg Prod.snd read).symm
    rw [text_eq]
  · rw [if_neg registered, if_neg fun yes => registered (same.mp yes)]

/-! ### Along a history -/

variable {history : History}

/-- One event. -/
theorem step_granted (granted : history.Granted) (event : HostEvent) :
    (history.step event).Granted := by
  cases event with
  | connect sessionId connectKey => exact granted
  | attach channelId sessionId => exact granted
  | frame sessionId channelId command payload out =>
    intro c permit found
    have found : (history.server.fetchCommand out sessionId channelId command
      payload).2.hostReceivePermits c = some permit := found
    rw [fetchCommand_permits] at found
    exact granted c permit found
  | freeChannel channelId =>
    intro c permit found
    refine granted c permit ?_
    have found : update history.server.hostReceivePermits channelId none c = some permit :=
      found
    by_cases same : c = channelId
    · rw [same, update_self] at found
      cases found
    · rwa [update_of_ne same] at found
  | freeSession sessionId =>
    intro c permit found
    exact granted c permit (filter_eq_some_iff.mp found).1
  | command channelId cmdFlag parameters out =>
    simp only [History.step]
    cases hasChannel : history.server.mapChannel channelId with
    | none => exact granted
    | some channel =>
      obtain ⟨channel', permits⟩ :=
        taskCommand_permits history.server out channelId channel cmdFlag parameters
      intro c permit found
      rw [permits] at found
      cases registered : registers cmdFlag with
      | false =>
        rw [registered] at found
        exact granted c permit found
      | true =>
        rw [registered, if_pos rfl] at found
        simp only [if_true]
        by_cases same : c = channelId
        · subst same
          refine ⟨_, last_append_self _ _ _ _, ?_⟩
          rcases registerHostPermit_cases history.server.hostReceivePermits c channel'
            (registeredText channel cmdFlag parameters) with removed | ⟨target, named, stored⟩
          · rw [removed, update_self] at found
            cases found
          · rw [stored, update_self] at found
            obtain rfl := some.inj found
            exact named
        · rw [last_append_ne _ _ same]
          refine granted c permit ?_
          rcases registerHostPermit_cases history.server.hostReceivePermits channelId channel'
            (registeredText channel cmdFlag parameters) with removed | ⟨target, named, stored⟩
          · rwa [removed, update_of_ne same] at found
          · rwa [stored, update_of_ne same] at found

/-- Every history. -/
theorem run_granted (events : List HostEvent) : (History.run events).Granted := by
  induction events using List.reverseRecOn with
  | nil =>
    intro c permit found
    cases found
  | append_singleton events event granted =>
    rw [History.run, List.foldl_append]
    exact step_granted granted _

/-! ### What gets past the gate -/

section

variable (permits : Permits) (server : HdcServer) (channelId : UInt32) (channel : HChannel)
  (sessionId : UInt32) (payload : Bytes)

theorem checkForwardEndpoint_iff :
    permits.checkForwardEndpoint channelId channel sessionId payload = true ↔
    ∃ permit, permits.matchHostPermit channelId channel sessionId = some permit ∧
    requestedEndpoint payload = some permit.target := by
  unfold checkForwardEndpoint
  cases requestedEndpoint payload with
  | none => simp
  | some endpoint =>
    cases permits.matchHostPermit channelId channel sessionId with
    | none => simp
    | some permit => simp [eq_comm]

theorem checkHostReceivePermit_iff :
    permits.checkHostReceivePermit channelId channel sessionId payload = true ↔
    ∃ permit, permits.matchHostPermit channelId channel sessionId = some permit ∧
    requestedPath payload = some permit.target := by
  unfold checkHostReceivePermit
  cases permits.matchHostPermit channelId channel sessionId with
  | none => simp
  | some permit =>
    cases requestedPath payload with
    | none => simp
    | some path => simp

theorem permission_activeSlave :
    server.checkHostCommandPermission channelId channel sessionId
    forwardActiveSlave.code payload =
    server.hostReceivePermits.checkForwardEndpoint channelId channel sessionId payload := by
  have codes : forwardActiveSlave.code ≠ fileInit.code ∧
      forwardActiveSlave.code ≠ fileCheck.code ∧
      forwardActiveSlave.code ≠ unityBugreportInit.code := by decide
  unfold checkHostCommandPermission
  cases server.hostReceivePermits.checkForwardEndpoint channelId channel sessionId payload <;>
    simp [codes]

theorem permission_fileCheck :
    server.checkHostCommandPermission channelId channel sessionId fileCheck.code payload =
    server.hostReceivePermits.checkHostReceivePermit channelId channel sessionId payload := by
  have codes : fileCheck.code ≠ fileInit.code ∧
      fileCheck.code ≠ forwardActiveSlave.code ∧
      fileCheck.code ≠ unityBugreportInit.code := by decide
  unfold checkHostCommandPermission
  cases server.hostReceivePermits.checkHostReceivePermit channelId channel sessionId payload <;>
    simp [codes]

end

/-- The client's last registration on the channel asked for what the frame wants. -/
def Asked (history : History) (channelId : UInt32) (command : UInt16) (payload : Bytes) : Prop :=
  (command = HdcCommand.forwardActiveSlave.code → ∃ args text,
    history.last channelId = some (str "rport" :: args) ∧ forwardTarget args = some text ∧
      requestedEndpoint payload = some text) ∧
  (command = HdcCommand.fileCheck.code → ∃ args text,
    history.last channelId = some (str "recv" :: args) ∧ receiveTarget args = some text ∧
      requestedPath payload = some text)

/-- The registration is of another kind, and names the text that the frame wants. -/
def Confused (argv : List Bytes) (command : UInt16) (payload : Bytes) : Prop :=
  (command = HdcCommand.forwardActiveSlave.code ∧ ∃ args text,
    requestedEndpoint payload = some text ∧
      (argv = str "fport" :: args ∧ forwardTarget args = some text ∨
        argv = str "recv" :: args ∧ receiveTarget args = some text)) ∨
  (command = HdcCommand.fileCheck.code ∧ ∃ kind args text,
    requestedPath payload = some text ∧ (kind = str "rport" ∨ kind = str "fport") ∧
      argv = kind :: args ∧ forwardTarget args = some text)

theorem kinds_distinct : str "recv" ≠ str "rport" ∧ str "recv" ≠ str "fport" ∧
    str "rport" ≠ str "fport" := by
  decide

/-- A registration names one text. -/
theorem Names.unique {text text' : Bytes} (first : Names argv text)
    (second : Names argv text') : text = text' := by
  have apart : ¬ (str "recv" = str "rport" ∨ str "recv" = str "fport") :=
    not_or.mpr ⟨kinds_distinct.1, kinds_distinct.2.1⟩
  rcases first with ⟨args, rfl, named⟩ | ⟨_, args, isKind, rfl, named⟩
  · rcases second with ⟨args', same, named'⟩ | ⟨kind', args', isKind', same, named'⟩
    · obtain ⟨-, rfl⟩ := List.cons.inj same
      exact some.inj (named.symm.trans named')
    · obtain ⟨rfl, -⟩ := List.cons.inj same
      exact absurd isKind' apart
  · rcases second with ⟨args', same, named'⟩ | ⟨kind', args', isKind', same, named'⟩
    · obtain ⟨rfl, -⟩ := List.cons.inj same
      exact absurd isKind apart
    · obtain ⟨-, rfl⟩ := List.cons.inj same
      exact some.inj (named.symm.trans named')

theorem Confused.asked_false {channelId : UInt32}
    {command : UInt16} {payload : Bytes} (last : history.last channelId = some argv)
    (confused : Confused argv command payload) (asked : Asked history channelId command payload) :
    False := by
  obtain ⟨recv_rport, recv_fport, rport_fport⟩ := kinds_distinct
  rcases confused with ⟨slave, args, text, -, ⟨rfl, -⟩ | ⟨rfl, -⟩⟩ |
    ⟨check, kind, args, text, -, isKind, rfl, -⟩
  · obtain ⟨_, _, rport, -⟩ := asked.1 slave
    exact rport_fport (List.cons.inj (some.inj (rport.symm.trans last))).1
  · obtain ⟨_, _, rport, -⟩ := asked.1 slave
    exact recv_rport (List.cons.inj (some.inj (rport.symm.trans last))).1.symm
  · obtain ⟨_, _, recv, -⟩ := asked.2 check
    have same := (List.cons.inj (some.inj (recv.symm.trans last))).1
    rcases isKind with rfl | rfl
    · exact recv_rport same
    · exact recv_fport same

/-- A frame that is let through, in the light of the last registration. -/
theorem permitted_iff (granted : history.Granted) (sessionId channelId : UInt32)
    (channel : HChannel) {requested : Option Bytes} :
    (∃ permit, history.server.hostReceivePermits.matchHostPermit channelId channel sessionId =
    some permit ∧ requested = some permit.target) ↔
    (history.server.hostReceivePermits.matchHostPermit channelId channel sessionId).isSome ∧
    ∃ argv text, history.last channelId = some argv ∧ Names argv text ∧ requested = some text := by
  have named : ∀ permit, history.server.hostReceivePermits.matchHostPermit channelId channel
      sessionId = some permit → ∃ argv, history.last channelId = some argv ∧
        Names argv permit.target :=
    fun permit found => granted channelId permit (filter_eq_some_iff.mp found).1
  constructor
  · rintro ⟨permit, found, wants⟩
    obtain ⟨argv, last, names⟩ := named permit found
    exact ⟨by rw [found]; rfl, _, permit.target, last, names, wants⟩
  · rintro ⟨inForce, argv, text, last, names, wants⟩
    obtain ⟨permit, found⟩ := isSome_iff_exists.mp inForce
    obtain ⟨_, last', names'⟩ := named permit found
    obtain rfl := some.inj (last.symm.trans last')
    exact ⟨permit, found, by rw [wants, names.unique names']⟩

/-- After every history and for every frame: the frame gets past the gate only if the
client's last registration on the channel asked for just that, unless the permit in
force comes from a registration of another kind that names the same text. -/
theorem permit_exact_iff (events : List HostEvent) (sessionId channelId : UInt32)
    (channel : HChannel) (command : UInt16) (payload : Bytes) :
    ((History.run events).server.checkHostCommandPermission channelId channel sessionId command
        payload = true → Asked (History.run events) channelId command payload) ↔
      ¬ (((History.run events).server.hostReceivePermits.matchHostPermit channelId channel
            sessionId).isSome ∧
          ∃ argv, (History.run events).last channelId = some argv ∧
            Confused argv command payload) := by
  have granted := run_granted events
  constructor
  · rintro asked ⟨inForce, argv, last, confused⟩
    refine confused.asked_false last (asked ?_)
    rcases confused with ⟨rfl, args, text, wants, named⟩ |
      ⟨rfl, kind, args, text, wants, isKind, rfl, named⟩
    · rw [permission_activeSlave, checkForwardEndpoint_iff, permitted_iff granted]
      refine ⟨inForce, _, _, last, ?_, wants⟩
      rcases named with ⟨rfl, target⟩ | ⟨rfl, target⟩
      · exact .inr ⟨_, args, .inr rfl, rfl, target⟩
      · exact .inl ⟨args, rfl, target⟩
    · rw [permission_fileCheck, checkHostReceivePermit_iff, permitted_iff granted]
      exact ⟨inForce, _, _, last, .inr ⟨kind, args, isKind, rfl, named⟩, wants⟩
  · refine fun unconfused permitted => ⟨?_, ?_⟩
    · rintro rfl
      rw [permission_activeSlave, checkForwardEndpoint_iff, permitted_iff granted] at permitted
      obtain ⟨inForce, argv, text, last, names, wants⟩ := permitted
      rcases names with ⟨args, rfl, target⟩ | ⟨kind, args, rfl | rfl, rfl, target⟩
      · exact absurd ⟨inForce, _, last, .inl ⟨rfl, args, _, wants, .inr ⟨rfl, target⟩⟩⟩ unconfused
      · exact ⟨args, _, last, target, wants⟩
      · exact absurd ⟨inForce, _, last, .inl ⟨rfl, args, _, wants, .inl ⟨rfl, target⟩⟩⟩ unconfused
    · rintro rfl
      rw [permission_fileCheck, checkHostReceivePermit_iff, permitted_iff granted] at permitted
      obtain ⟨inForce, argv, text, last, names, wants⟩ := permitted
      rcases names with ⟨args, rfl, target⟩ | ⟨kind, args, isKind, rfl, target⟩
      · exact ⟨args, _, last, target, wants⟩
      · exact absurd ⟨inForce, _, last, .inr ⟨rfl, kind, args, _, wants, isKind, rfl, target⟩⟩
          unconfused

/-- The frame in which a device asks the host to connect to an endpoint. -/
def activeSlavePayload (endpoint : String) : Bytes := List.replicate 12 0 ++ str endpoint ++ [0]

/-- The frame in which a device asks to send a file to a path of the host. -/
def fileCheckPayload (path : String) : Bytes :=
  SerialStruct.serializeToString Transfer.transferConfigFields
    { Transfer.TransferConfig.blank with path := str path }

/-- A client on channel 9, bound to session 1, gives one command. -/
def oneCommand (cmdFlag : HdcCommand) (parameters : String) : List HostEvent :=
  [.connect 1 (str "first"), .attach 9 1, .command 9 cmdFlag.code (str parameters) plainOutside]

/-- After a `fport` the device may have the host connect to the second node; after a
`recv` to a path without a working directory it may do so as well; after a `rport` it
may send a file to a path of the endpoint's name. -/
theorem permit_confused :
    (History.run (oneCommand .forwardInit "fport tcp:1 tcp:2")).server.checkHostCommandPermission
        9 ⟨1, false, false⟩ 1 forwardActiveSlave.code (activeSlavePayload "tcp:2") = true ∧
      (History.run (oneCommand .forwardInit "fport tcp:1 tcp:2")).last 9 =
        some [str "fport", str "tcp:1", str "tcp:2"] ∧
      (History.run (oneCommand .fileInit "recv /data/a tcp:2")).server.checkHostCommandPermission
        9 ⟨1, false, false⟩ 1 forwardActiveSlave.code (activeSlavePayload "tcp:2") = true ∧
      (History.run (oneCommand .forwardInit "rport tcp:1 tcp:2")).server.checkHostCommandPermission
        9 ⟨1, false, false⟩ 1 fileCheck.code (fileCheckPayload "tcp:2") = true := by
  decide +kernel

end Hdc.Host
