import Hdc.Daemon.Auth

/-!
Whose handshake opens the daemon.

The authentication map is keyed by session ids that the peers choose, and its
entries outlive their sessions. As long as no connection takes an id that another
one holds or that has an entry, an entry speaks for one connection only, and a
command is handed on only for a connection that went through the handshake
itself.

* `Reached`: what an entry says about the connection that holds its id;
* `dispatch_authenticated`: the result for separate runs.
-/

namespace Hdc.Daemon

open SerialStruct List HdcDaemon Function

/-! ### What a connection has done -/

/-- The steps that a connection has taken, in order. -/
def stepsOf (accepted : List (Nat × AuthStep)) (conn : Nat) : List AuthStep :=
  (accepted.filter fun entry => entry.1 = conn).map Prod.snd

/-- The connection has gone through the whole handshake. -/
def Authenticated (accepted : List (Nat × AuthStep)) (conn : Nat) : Prop :=
  [AuthStep.none, .publicKey, .signature].Sublist (stepsOf accepted conn) ∨
    [AuthStep.none, .publicKey, .sslTlsPsk].Sublist (stepsOf accepted conn)

instance (accepted : List (Nat × AuthStep)) (conn : Nat) :
    Decidable (Authenticated accepted conn) := by
  unfold Authenticated
  exact inferInstance

/-- An entry says no more than what the connection has done. -/
def Reached (accepted : List (Nat × AuthStep)) (conn : Nat) (info : HdcDaemonAuthInfo) : Prop :=
  match info.authtype with
  | .none => info.token ≠ [] → [AuthStep.none].Sublist (stepsOf accepted conn)
  | .publicKey => [AuthStep.none, .publicKey].Sublist (stepsOf accepted conn)
  | .ok => Authenticated accepted conn
  | _ => True

/-- Nobody holds the id, and nothing is known about it. -/
def HdcDaemon.Free (daemon : HdcDaemon) (sessionId : UInt32) : Prop :=
  daemon.mapAuthStatus sessionId = none ∧
    ∀ conn hSession, daemon.hSession conn = some hSession → hSession.sessionId ≠ sessionId

/-- The event lets no connection take an id that another one holds or has left an
entry for. -/
def HdcDaemon.Separates (daemon : HdcDaemon) : Event → Prop
  | .connect _ sessionId => daemon.Free sessionId
  | .frame conn _ command payload _ =>
    command = HdcCommand.kernelHandshake.code →
      (parseHandshake payload).authType = AuthType.none.code →
        ∀ hSession, daemon.hSession conn = some hSession →
          (parseHandshake payload).sessionId = hSession.sessionId ∨
            daemon.Free (parseHandshake payload).sessionId
  | .notice .. => True
  | .free _ => True

/-- All events of a run do so. -/
def Separate : HdcDaemon → List Event → Prop
  | _, [] => True
  | daemon, event :: events => daemon.Separates event ∧ Separate (daemon.step event) events

theorem stepsOf_append (front back : List (Nat × AuthStep)) (conn : Nat) :
    stepsOf (front ++ back) conn = stepsOf front conn ++ stepsOf back conn := by
  rw [stepsOf, filter_append, map_append]
  rfl

theorem stepsOf_own (conn : Nat) (step : AuthStep) : stepsOf [(conn, step)] conn = [step] := by
  simp [stepsOf]

variable {before after : List (Nat × AuthStep)}

/-- What was done stays done. -/
theorem stepsOf_mono (grown : before <+: after) (conn : Nat) :
    (stepsOf before conn).Sublist (stepsOf after conn) := by
  obtain ⟨_, rfl⟩ := grown
  rw [stepsOf_append]
  exact sublist_append_left _ _

variable {conn : Nat}

theorem Authenticated.mono (grown : before <+: after) (done : Authenticated before conn) :
    Authenticated after conn :=
  done.imp (·.trans (stepsOf_mono grown _)) (·.trans (stepsOf_mono grown _))

theorem Reached.mono (grown : before <+: after) {info : HdcDaemonAuthInfo}
    (reached : Reached before conn info) : Reached after conn info := by
  unfold Reached at *
  cases kind : info.authtype with
  | none =>
    rw [kind] at reached
    exact fun token => (reached token).trans (stepsOf_mono grown _)
  | publicKey =>
    rw [kind] at reached
    exact List.Sublist.trans reached (stepsOf_mono grown _)
  | ok =>
    rw [kind] at reached
    exact Authenticated.mono grown reached
  | _ => trivial

/-- One more step of the connection itself. -/
theorem sublist_step {accepted : List (Nat × AuthStep)} {steps : List AuthStep}
    (done : steps.Sublist (stepsOf accepted conn)) (step : AuthStep) :
    (steps ++ [step]).Sublist (stepsOf (accepted ++ [(conn, step)]) conn) := by
  rw [stepsOf_append, stepsOf_own]
  exact done.append (List.Sublist.refl _)

/-! ### What a frame leaves alone -/

/-- A part of the handshake works on the entry of its own session; all other
entries and all session ids stay, and the record only grows. -/
structure Handled (s s' : Handling) : Prop where
  conn : s'.conn = s.conn
  sessionId : s'.hSession.sessionId = s.hSession.sessionId
  connections : s'.daemon.connections = s.daemon.connections
  dispatched : s'.daemon.dispatched = s.daemon.dispatched
  authEnable : s'.daemon.authEnable = s.daemon.authEnable
  others : ∀ id, id ≠ s.hSession.sessionId →
    s'.daemon.mapAuthStatus id = s.daemon.mapAuthStatus id
  accepted : s.daemon.accepted <+: s'.daemon.accepted

open Handled

theorem Handled.refl (s : Handling) : Handled s s :=
  ⟨rfl, rfl, rfl, rfl, rfl, fun _ _ => rfl, prefix_rfl⟩

theorem Handled.trans {s s' s'' : Handling} (first : Handled s s') (second : Handled s' s'') :
    Handled s s'' where
  conn := second.conn.trans first.conn
  sessionId := second.sessionId.trans first.sessionId
  connections := second.connections.trans first.connections
  dispatched := second.dispatched.trans first.dispatched
  authEnable := second.authEnable.trans first.authEnable
  others id other := (second.others id (first.sessionId ▸ other)).trans (first.others id other)
  accepted := first.accepted.trans second.accepted

theorem Handled.update (s : Handling) (change : HdcDaemonAuthInfo → HdcDaemonAuthInfo) :
    Handled s (s.auth fun daemon sessionId => daemon.updateAuth sessionId change) :=
  ⟨rfl, rfl, rfl, rfl, rfl, fun _ other => update_of_ne other _ _, prefix_rfl⟩

/-- The entry of the session at hand says no more than what its connection did. -/
def Handling.Good (s : Handling) : Prop :=
  ∀ info, s.daemon.mapAuthStatus s.hSession.sessionId = some info →
    Reached s.daemon.accepted s.conn info

/-- A part of the handshake that leaves such an entry. -/
abbrev Honest (s s' : Handling) : Prop := Handled s s' ∧ s'.Good

variable {s : Handling}

theorem Handling.good_of {info : HdcDaemonAuthInfo}
    (entry : s.daemon.mapAuthStatus s.hSession.sessionId = some info)
    (reached : Reached s.daemon.accepted s.conn info) : s.Good := by
  intro other found
  obtain rfl := Option.some.inj (entry.symm.trans found)
  exact reached

/-- The entry that a change leaves. -/
theorem entry_update (s : Handling) (change : HdcDaemonAuthInfo → HdcDaemonAuthInfo) :
    (s.daemon.updateAuth s.hSession.sessionId change).mapAuthStatus s.hSession.sessionId =
    some (change ((s.daemon.mapAuthStatus s.hSession.sessionId).getD .empty)) :=
  update_self ..

variable (out : Outside)

/-- A refusal leaves an entry that says nothing. -/
theorem handleAuthFailed_good (s : Handling) (channelId : UInt32)
    (handshake : SessionHandShake) (msg : Bytes) :
    Honest s (handleAuthFailed out s channelId handshake msg) := by
  constructor
  · exact { update s fun info => { info with authtype := .fail, authmsg := msg } with }
  · exact Handling.good_of (entry_update s fun info => { info with authtype := .fail, authmsg := msg })
      trivial

theorem handDaemonAuthInit_good (s : Handling) (channelId : UInt32) (handshake : SessionHandShake) :
    Honest s (handDaemonAuthInit out s channelId handshake).2 := by
  constructor
  · exact ⟨rfl, rfl, rfl, rfl, rfl, fun _ other => update_of_ne other _ _,
      prefix_append _ _⟩
  · refine Handling.good_of (entry_update s fun _ => ⟨.none, out.randomToken, [], []⟩) fun _ => ?_
    exact sublist_step (nil_sublist _) .none

/-- The key of a connection that has begun the handshake is accepted. -/
theorem sendAuthMsg_good (s : Handling) (channelId : UInt32)
    (handshake : SessionHandShake) (pubkey : Bytes)
    (begun : [AuthStep.none].Sublist (stepsOf s.daemon.accepted s.conn)) :
    Honest s (sendAuthMsg out s channelId handshake pubkey) := by
  -- Both ways of asking for the last step leave the same entry.
  have asked : ∀ s' : Handling, Handled s s' → s'.daemon.accepted = s.daemon.accepted →
      s'.daemon.mapAuthStatus s.hSession.sessionId =
        some { (s.daemon.mapAuthStatus s.hSession.sessionId).getD .empty with
          authtype := .publicKey, pubkey } →
      Honest s (s'.accept .publicKey) := by
    intro s' handled same entry
    refine ⟨{ handled with accepted := handled.accepted.trans (prefix_append _ _) },
      Handling.good_of (s := s'.accept .publicKey) (handled.sessionId ▸ entry) ?_⟩
    show List.Sublist _ (stepsOf (s'.daemon.accepted ++ [(s'.conn, AuthStep.publicKey)]) s'.conn)
    rw [same, handled.conn]
    exact sublist_step begun .publicKey
  have entry := entry_update s fun info => { info with authtype := .publicKey, pubkey }
  unfold sendAuthMsg
  split
  · refine asked _ ?_ ?_ ?_
    all_goals unfold sendAuthEncryptPsk; dsimp only; split
    · exact update s _
    · split
      · exact ⟨rfl, rfl, rfl, rfl, rfl, fun _ other => update_of_ne other _ _,
          prefix_rfl⟩
      · exact ⟨rfl, rfl, rfl, rfl, rfl, fun _ other => update_of_ne other _ _,
          prefix_rfl⟩
    · rfl
    · split <;> rfl
    · exact entry
    · split <;> exact entry
  · exact asked _ ⟨rfl, rfl, rfl, rfl, rfl, fun _ other => update_of_ne other _ _,
      prefix_rfl⟩ rfl entry

/-- The status of a session, read off its entry. -/
theorem Handling.Good.reached (good : s.Good) :
    Reached s.daemon.accepted s.conn
    ((s.daemon.mapAuthStatus s.hSession.sessionId).getD .empty) := by
  cases entry : s.daemon.mapAuthStatus s.hSession.sessionId with
  | none => exact fun token => absurd rfl token
  | some info => exact good _ entry

theorem Handling.Good.status_reached (good : s.Good) {status : AuthType} (same : s.status = status) :
    Reached s.daemon.accepted s.conn
    { (s.daemon.mapAuthStatus s.hSession.sessionId).getD .empty with authtype := status } := by
  subst same
  exact good.reached

/-- The last step is taken. -/
theorem authOk_good (s : Handling) (channelId : UInt32)
    (handshake : SessionHandShake) (result : Bytes)
    (keyed : [AuthStep.none, .publicKey].Sublist (stepsOf s.daemon.accepted s.conn))
    {step : AuthStep} (last : step = .signature ∨ step = .sslTlsPsk) :
    Honest s ((sendAuthOkMsg out (s.auth updateSessionAuthOk) channelId handshake []
    result).accept step) := by
  constructor
  · exact ⟨rfl, rfl, rfl, rfl, rfl, fun _ other => update_of_ne other _ _,
      prefix_append _ _⟩
  · refine Handling.good_of (entry_update s fun info =>
      { info with authtype := .ok, token := [], pubkey := [] }) ?_
    have done := sublist_step keyed step
    rcases last with rfl | rfl
    · exact .inl done
    · exact .inr done

section

variable (good : s.Good) (channelId : UInt32) (handshake : SessionHandShake)
include good channelId handshake

theorem handDaemonAuthPubkey_good (status : s.status = .none)
    (token : s.daemon.getSessionAuthToken s.hSession.sessionId ≠ []) :
    Honest s (handDaemonAuthPubkey out s channelId handshake).2 := by
  have begun := good.status_reached status token
  unfold handDaemonAuthPubkey
  split
  · unfold handConnectValidationPubkey
    split
    · exact ⟨.refl s, good⟩
    split
    · exact sendAuthMsg_good _ s _ _ _ begun
    · obtain ⟨handled, failed⟩ := handleAuthFailed_good out s channelId handshake authFailedText
      exact ⟨{ handled with }, failed⟩
  · split
    · exact handleAuthFailed_good _ s _ _ deniedText
    split
    · exact sendAuthMsg_good _ s _ _ _ begun
    split
    · obtain ⟨handled, failed⟩ := handleAuthFailed_good out
        (s.startNotice channelId handshake confirmText) channelId handshake deniedText
      exact ⟨{ handled with }, failed⟩
    · obtain ⟨handled, asked⟩ := sendAuthMsg_good out
        (s.startNotice channelId handshake confirmText) channelId handshake _ begun
      exact ⟨{ handled with }, asked⟩

theorem handDaemonAuthSignature_good (status : s.status = .publicKey) :
    Honest s (handDaemonAuthSignature out s channelId handshake).2 := by
  unfold handDaemonAuthSignature
  dsimp only
  split
  · exact authOk_good _ s _ _ _ (good.status_reached status) (.inl rfl)
  · exact handleAuthFailed_good _ s _ _ authFailedText

theorem daemonSSLHandshake_good (status : s.status = .publicKey) :
    Honest s (daemonSSLHandshake out s channelId handshake).2 := by
  unfold daemonSSLHandshake
  split
  · exact ⟨.refl s, good⟩
  split
  · exact ⟨.refl s, good⟩
  split
  · exact ⟨.refl s, good⟩
  dsimp only
  generalize (if out.tls.ret = 0 then { handshake with buf := out.tls.out } else handshake) =
    answer
  have answered : Honest s (if out.tls.ret = 0 then s.send channelId (.handshake answer) else s) ∧
      (if out.tls.ret = 0 then s.send channelId (.handshake answer) else s).status =
        .publicKey := by
    split
    · exact ⟨⟨{ refl s with }, good⟩, status⟩
    · exact ⟨⟨.refl s, good⟩, status⟩
  generalize (if out.tls.ret = 0 then s.send channelId (.handshake answer) else s) = s' at *
  obtain ⟨⟨handled, good'⟩, status'⟩ := answered
  split
  · obtain ⟨done, ok⟩ := authOk_good out
      { s' with hSession := { s'.hSession with sslHandshake := true } } channelId answer
      (str "SUCCESS") (good'.status_reached status') (.inr rfl)
    exact ⟨handled.trans { done with }, ok⟩
  · exact ⟨handled, good'⟩

end

/-- The parts of the handshake keep the entry honest. -/
theorem handDaemonAuth_good (good : s.Good) (enabled : s.daemon.authEnable = true)
    (channelId : UInt32) (handshake : SessionHandShake) :
    Honest s (handDaemonAuth out s channelId handshake).2 := by
  unfold handDaemonAuth
  rw [enabled, Bool.not_true, Bool.and_false, if_neg Bool.false_ne_true]
  split
  · exact handleAuthFailed_good _ s _ _ lowClientText
  split
  · exact handleAuthFailed_good _ s _ _ noValidationText
  split
  · exact ⟨.refl s, good⟩
  split
  · exact handDaemonAuthInit_good _ s _ _
  split
  case isTrue first => exact handDaemonAuthPubkey_good _ good _ _ first.1 first.2.1
  split
  case isTrue second => exact handDaemonAuthSignature_good _ good _ _ second.1
  split
  case isTrue second => exact daemonSSLHandshake_good _ good _ _ second.1
  · exact ⟨.refl s, good⟩

/-! ### Frames -/

/-- What a whole frame does: the connection may have taken a free session id, only
the entry of its id can have changed, and what was handed on was allowed. -/
structure Framed (s s' : Handling) : Prop where
  conn : s'.conn = s.conn
  sessionId : s'.hSession.sessionId = s.hSession.sessionId ∨
    s.daemon.Free s'.hSession.sessionId
  connections : s'.daemon.connections = s.daemon.connections
  authEnable : s'.daemon.authEnable = s.daemon.authEnable
  others : ∀ id, id ≠ s'.hSession.sessionId →
    s'.daemon.mapAuthStatus id = s.daemon.mapAuthStatus id
  accepted : s.daemon.accepted <+: s'.daemon.accepted
  dispatched : ∀ dispatch ∈ s'.daemon.dispatched, dispatch ∈ s.daemon.dispatched ∨
    (exempt dispatch.command = false → Authenticated dispatch.before dispatch.conn)

theorem Handled.framed {s s' : Handling} (handled : Handled s s') : Framed s s' :=
  { handled with
    sessionId := .inl handled.sessionId
    others := fun id other => handled.others id (handled.sessionId ▸ other)
    dispatched := fun _ mem => .inl (handled.dispatched ▸ mem) }

theorem getServerCapability_sessionId (hSession : HSession) (buf : Bytes) :
    (getServerCapability out hSession buf).sessionId = hSession.sessionId := by
  simp only [getServerCapability, parsePeerSupportFeatures]
  split
  · rfl
  · split <;> rfl

/-- A handshake frame, if its id is the connection's own or free. -/
theorem daemonSessionHandshake_good (good : s.Good)
    (enabled : s.daemon.authEnable = true) (channelId : UInt32) (payload : Bytes)
    (separate : (parseHandshake payload).authType = AuthType.none.code →
    (parseHandshake payload).sessionId = s.hSession.sessionId ∨
    s.daemon.Free (parseHandshake payload).sessionId) :
    Framed s (daemonSessionHandshake out s channelId payload).2 ∧
    (daemonSessionHandshake out s channelId payload).2.Good := by
  simp only [daemonSessionHandshake]
  generalize parseHandshake payload = handshake at separate
  split
  · exact ⟨(refl s).framed, good⟩
  split
  · case isTrue first =>
    split
    · exact ⟨(refl s).framed, good⟩
    -- The connection takes the id of the frame; nothing else changes yet.
    have id : (daemonSessionHandshakeInit out s handshake).hSession.sessionId =
        handshake.sessionId := getServerCapability_sessionId ..
    have goodInit : (daemonSessionHandshakeInit out s handshake).Good := by
      intro info entry
      rw [id] at entry
      rcases separate first with same | free
      · exact good _ (same ▸ entry)
      · exact absurd (free.1.symm.trans entry) (by simp)
    obtain ⟨handled, good'⟩ := handDaemonAuth_good out goodInit enabled channelId
      { handshake with sessionId := 0, connectKey := [] }
    refine ⟨{ handled.framed with sessionId := ?_ }, good'⟩
    rw [handled.sessionId, id]
    exact separate first
  · obtain ⟨handled, good'⟩ := handDaemonAuth_good out good enabled channelId handshake
    exact ⟨handled.framed, good'⟩

/-- A command is handed on for a connection that is authenticated, or needs not be. -/
theorem dispatch_framed {channelId : UInt32} {command : UInt16}
    (allowed : exempt command = false → Authenticated s.daemon.accepted s.conn) :
    Framed s (s.dispatch channelId command) := by
  refine ⟨rfl, .inl rfl, rfl, rfl, fun _ _ => rfl, prefix_rfl, fun dispatch mem => ?_⟩
  rcases mem_append.mp mem with old | new
  · exact .inl old
  · rw [mem_singleton.mp new]
    exact .inr allowed

/-- One frame. -/
theorem fetchCommand_good (good : s.Good)
    (enabled : s.daemon.authEnable = true) (channelId : UInt32) (command : UInt16) (payload : Bytes)
    (separate : command = HdcCommand.kernelHandshake.code →
    (parseHandshake payload).authType = AuthType.none.code →
    (parseHandshake payload).sessionId = s.hSession.sessionId ∨
    s.daemon.Free (parseHandshake payload).sessionId) :
    Framed s (fetchCommand out s channelId command payload).2 ∧
    (fetchCommand out s channelId command payload).2.Good := by
  unfold fetchCommand
  split
  · exact ⟨framed { refl s with }, good⟩
  unfold checkAuthStatus
  by_cases refused : s.daemon.authEnable ∧ s.status ≠ .ok ∧ exempt command = false
  · rw [if_pos refused]
    dsimp only
    split
    · exact ⟨framed { refl s with }, good⟩
    · exact ⟨framed { refl s with }, good⟩
  · rw [if_neg refused]
    have allowed : exempt command = false → Authenticated s.daemon.accepted s.conn := by
      intro guarded
      have ok : s.status = .ok := Decidable.byContradiction fun notOk =>
        refused ⟨enabled, notOk, guarded⟩
      exact good.status_reached ok
    dsimp only
    split
    · case isTrue handshake =>
      exact daemonSessionHandshake_good _ good enabled _ _ (separate handshake)
    split
    · split
      · exact ⟨(refl s).framed, good⟩
      dsimp only
      split
      · exact ⟨(refl s).framed, good⟩
      · exact ⟨framed { refl s with }, good⟩
    split
    · exact ⟨dispatch_framed allowed, good⟩
    split
    · exact ⟨dispatch_framed allowed, good⟩
    · exact ⟨framed { refl s with }, good⟩

/-! ### Runs -/

/-- Connections have session ids of their own, the entries under these ids are
honest, and what was handed on was allowed. -/
structure HdcDaemon.Inv (daemon : HdcDaemon) : Prop where
  enabled : daemon.authEnable = true
  distinct : ∀ conn conn' hSession hSession', daemon.hSession conn = some hSession →
    daemon.hSession conn' = some hSession' → hSession.sessionId = hSession'.sessionId → conn = conn'
  honest : ∀ conn hSession, daemon.hSession conn = some hSession →
    (⟨daemon, conn, hSession⟩ : Handling).Good
  dispatched : ∀ dispatch ∈ daemon.dispatched, exempt dispatch.command = false →
    Authenticated dispatch.before dispatch.conn

theorem HdcDaemon.start_inv : (start true).Inv :=
  ⟨rfl, fun _ _ _ _ none => by simp [hSession, start] at none,
    fun _ _ none => by simp [hSession, start] at none, fun _ none => by simp [start] at none⟩

variable {hSession : HSession}

/-- The session objects after a frame. -/
theorem hSession_store (present : s.daemon.hSession s.conn = some hSession) (conn : Nat) :
    (HdcDaemon.store s).hSession conn =
      if conn = s.conn then some s.hSession else s.daemon.hSession conn := by
  have inBounds : s.conn < s.daemon.connections.length := by
    by_contra beyond
    rw [HdcDaemon.hSession, getElem?_eq_none (Nat.not_lt.mp beyond)] at present
    cases present
  unfold HdcDaemon.store HdcDaemon.hSession
  by_cases same : conn = s.conn
  · rw [if_pos same, same, getElem?_set_self inBounds]
    rfl
  · rw [if_neg same, getElem?_set_ne (Ne.symm same)]

variable {daemon : HdcDaemon}

section

variable (inv : daemon.Inv)
include inv

/-- A frame that is settled keeps the invariant. -/
theorem HdcDaemon.Inv.store (present : daemon.hSession conn = some hSession)
    (framed : Framed ⟨daemon, conn, hSession⟩ s) (good : s.Good) : (HdcDaemon.store s).Inv := by
  obtain ⟨rfl, sessionId, connections, authEnable, others, accepted, dispatched⟩ := framed
  have lookup : ∀ c, s.daemon.hSession c = daemon.hSession c := by
    intro c
    rw [HdcDaemon.hSession, HdcDaemon.hSession, connections]
  have stored := hSession_store (s := s) ((lookup s.conn).trans present)
  -- The id of the connection is not that of another one.
  have own : ∀ c h, c ≠ s.conn → daemon.hSession c = some h →
      h.sessionId ≠ s.hSession.sessionId := by
    intro c h other found same
    rcases sessionId with kept | free
    · exact other (inv.distinct c s.conn h _ found present (same.trans kept))
    · exact free.2 c h found same
  refine ⟨authEnable.trans inv.enabled, ?_, ?_, ?_⟩
  · intro c c' h h' found found' same
    rw [stored] at found found'
    by_cases mine : c = s.conn <;> by_cases mine' : c' = s.conn
    · exact mine.trans mine'.symm
    · rw [if_pos mine] at found
      rw [if_neg mine', lookup] at found'
      obtain rfl := Option.some.inj found
      exact absurd same.symm (own c' h' mine' found')
    · rw [if_neg mine, lookup] at found
      rw [if_pos mine'] at found'
      obtain rfl := Option.some.inj found'
      exact absurd same (own c h mine found)
    · rw [if_neg mine, lookup] at found
      rw [if_neg mine', lookup] at found'
      exact inv.distinct c c' h h' found found' same
  · intro c h found
    rw [stored] at found
    by_cases mine : c = s.conn
    · rw [if_pos mine] at found
      obtain rfl := Option.some.inj found
      subst mine
      exact good
    · rw [if_neg mine, lookup] at found
      intro info entry
      have entry : s.daemon.mapAuthStatus h.sessionId = some info := entry
      rw [others h.sessionId (own c h mine found)] at entry
      exact (inv.honest c h found _ entry).mono accepted
  · intro dispatch mem guarded
    rcases dispatched dispatch mem with old | allowed
    · exact inv.dispatched dispatch old guarded
    · exact allowed guarded

/-- A new connection with a free id. -/
theorem HdcDaemon.Inv.connect (connType : ConnType) {sessionId : UInt32}
    (free : daemon.Free sessionId) (mapSession : UInt32 → Option Nat) :
    ({ daemon with
        connections := daemon.connections ++ [some (.new connType sessionId)]
        mapSession } : HdcDaemon).Inv := by
  have found : ∀ conn h, ((daemon.connections ++ [some (HSession.new connType sessionId)])[conn]?).join =
      some h → daemon.hSession conn = some h ∨
        conn = daemon.connections.length ∧ h = .new connType sessionId := by
    intro conn h present
    rcases Nat.lt_trichotomy conn daemon.connections.length with old | new | beyond
    · rw [getElem?_append_left old] at present
      exact .inl present
    · subst new
      rw [getElem?_concat_length] at present
      exact .inr ⟨rfl, (Option.some.inj present).symm⟩
    · rw [getElem?_eq_none (by simp; omega)] at present
      cases present
  refine ⟨inv.enabled, fun c c' h h' present present' same => ?_, fun c h present info entry => ?_,
    inv.dispatched⟩
  · rcases found c h present with old | ⟨rfl, rfl⟩ <;>
      rcases found c' h' present' with old' | ⟨rfl, rfl⟩
    · exact inv.distinct c c' h h' old old' same
    · exact absurd same (free.2 c h old)
    · exact absurd same.symm (free.2 c' h' old')
    · rfl
  · rcases found c h present with old | ⟨rfl, rfl⟩
    · exact inv.honest c h old info entry
    · exact absurd (free.1.symm.trans entry) (by simp)

/-- Fewer connections. -/
theorem HdcDaemon.Inv.free (conn : Nat) (mapSession : UInt32 → Option Nat) :
    ({ daemon with connections := daemon.connections.set conn none, mapSession } : HdcDaemon).Inv := by
  have found : ∀ c h, ((daemon.connections.set conn none)[c]?).join = some h →
      daemon.hSession c = some h := by
    intro c h present
    rw [getElem?_set] at present
    split at present
    · split at present <;> cases present
    · exact present
  exact ⟨inv.enabled, fun c c' h h' present present' same =>
      inv.distinct c c' h h' (found c h present) (found c' h' present') same,
    fun c h present => inv.honest c h (found c h present), inv.dispatched⟩

/-- One event. -/
theorem HdcDaemon.step_inv {event : Event} (separates : daemon.Separates event) :
    (daemon.step event).Inv := by
  cases event with
  | connect connType sessionId =>
    simp only [step]
    split
    · exact inv
    · exact inv.connect _ separates _
  | frame conn channelId command payload out =>
    simp only [step]
    cases present : daemon.hSession conn with
    | none => exact inv
    | some hSession =>
      obtain ⟨framed, good⟩ := fetchCommand_good out (inv.honest conn hSession present) inv.enabled
        channelId command payload fun handshake first => separates handshake first hSession present
      exact inv.store present framed good
  | notice i out =>
    simp only [step]
    split
    · exact inv
    case h_2 conn channelId handshake msg _ =>
    have inv' : ({ daemon with notices := daemon.notices.eraseIdx i } : HdcDaemon).Inv :=
      { inv with }
    cases present : ({ daemon with notices := daemon.notices.eraseIdx i } : HdcDaemon).hSession
        conn with
    | none => exact inv'
    | some hSession =>
      obtain ⟨handled, good⟩ := handleAuthFailed_good out
        ⟨{ daemon with notices := daemon.notices.eraseIdx i }, conn, hSession⟩ channelId handshake
        msg
      exact inv'.store present handled.framed good
  | free conn =>
    simp only [step]
    split
    · exact inv
    · exact inv.free _ _

/-- A run. -/
theorem HdcDaemon.run_inv (events : List Event)
    (separate : Separate daemon events) : (events.foldl step daemon).Inv := by
  induction events generalizing daemon with
  | nil => exact inv
  | cons event events ih => exact ih (step_inv inv separate.1) separate.2

end

/-- In a run in which no connection takes a session id that another one holds or
has left an entry for, every command that needs authentication is handed on for a
connection that has gone through the handshake itself. -/
theorem dispatch_authenticated (events : List Event)
    (separate : Separate (start true) events) :
    ∀ dispatch ∈ (run events).dispatched, exempt dispatch.command = false →
      Authenticated dispatch.before dispatch.conn :=
  (run_inv start_inv _ separate).dispatched

/-- A device that knows the host's key and whose user and commands are not
restricted. -/
def trusting : Outside where
  randomToken := str "token"
  connectValidation := false
  checkAuthPubKeyIsValid _ := true
  alreadyInKnownHosts pubkey := pubkey = str "key"
  postUIConfirm _ _ := .refuse
  authVerify _ signature token _ := signature = token
  newSSL := true
  pskEncrypt _ := none
  tls := ⟨true, -1, [], false, false⟩
  isExpectedParam _ _ := true
  reportCommandEvent := true
  hostname := str "device"

/-- A handshake frame of a connection. -/
def handshakeFrame (conn : Nat) (sessionId : UInt32) (authType : AuthType) (buf : Bytes) : Event :=
  .frame conn 0 HdcCommand.kernelHandshake.code
    (serializeToString sessionHandShakeFields
      ⟨handshakeMessage, authType.code, sessionId, [], buf, str "Ver: 3.1.0e"⟩) trusting

/-- The handshake of one connection, from beginning to end. -/
def wholeHandshake (conn : Nat) (sessionId : UInt32) : List Event :=
  [handshakeFrame conn sessionId .none [],
   handshakeFrame conn sessionId .publicKey (str "host\x0ckey"),
   handshakeFrame conn sessionId .signature (str "token")]

/-- A shell command on a connection. -/
def unityExecuteFrame (conn : Nat) : Event :=
  .frame conn 1 HdcCommand.unityExecute.code (str "id") trusting

/-- One connection that authenticates and sends a command: the run is separate,
the command is handed on and its connection authenticated. -/
theorem dispatch_authenticated_single :
    (HdcDaemon.run (.connect .usb 7 :: wholeHandshake 0 7 ++ [unityExecuteFrame 0])).dispatched.map
        Dispatch.command = [HdcCommand.unityExecute.code] ∧
      ∀ dispatch ∈
          (HdcDaemon.run (.connect .usb 7 :: wholeHandshake 0 7 ++ [unityExecuteFrame 0])).dispatched,
        exempt dispatch.command = false → Authenticated dispatch.before dispatch.conn := by
  refine ⟨by decide +kernel, dispatch_authenticated _ ⟨⟨rfl, ?_⟩, ?_, ?_, ?_, ?_, trivial⟩⟩
  · intro conn hSession present
    simp [HdcDaemon.hSession, HdcDaemon.start] at present
  · intro _ _ hSession present
    obtain rfl : HSession.new .usb 7 = hSession := Option.some.inj present
    exact .inl (by decide +kernel)
  · exact fun _ first => absurd first (by decide +kernel)
  · exact fun _ first => absurd first (by decide +kernel)
  · exact fun handshake => absurd handshake (by decide +kernel)

/-- A command is handed on for connection 1, which has not authenticated: once
after connection 0, which had the same session id, has authenticated and gone,
and once while connection 0 is there and both have named the same id in their
first handshake frame. -/
theorem dispatch_unauthenticated :
    (∃ dispatch ∈ (run (.connect .usb 7 :: wholeHandshake 0 7 ++
        [.free 0, .connect .usb 7, unityExecuteFrame 1])).dispatched,
      dispatch.conn = 1 ∧ exempt dispatch.command = false ∧
        ¬ Authenticated dispatch.before dispatch.conn) ∧
    ∃ dispatch ∈ (run (.connect .tcp 100 :: .connect .tcp 200 ::
        handshakeFrame 1 7 .none [] :: wholeHandshake 0 7 ++ [unityExecuteFrame 1])).dispatched,
      dispatch.conn = 1 ∧ exempt dispatch.command = false ∧
        ¬ Authenticated dispatch.before dispatch.conn := by
  decide +kernel

end Hdc.Daemon
