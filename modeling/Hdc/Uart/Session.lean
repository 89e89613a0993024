import Hdc.Uart.Delivery

/-!
A session over a serial link.

`Send` hands its packets to `SendUARTData`, and what the link dispatches goes into the pipe that the
session reads. An end is given a prefix of the pieces that the other put into its table, and frames
are put together again from any prefix of their stream; so losses, repetitions and cuts on the wire
are not seen above the link.
-/

namespace Hdc.Uart

open List Session Hdc.Uart.System

/-- In every state of every run in which the session lives at both ends: where the pieces that one
end put into its table are those of some packets in order, the other end has made the calls of the
packets that it read completely, once and in order, and holds the rest of what it read. -/
theorem calls_over_link {fetchCommand : List FetchCall → FetchCall → FetchOutcome}
    (handles : Handles fetchCommand) {packets : List FetchCall}
    (fits : ∀ call ∈ packets, (send call).length ≤ hdcSocketpairSize)
    (sessionId : UInt32) (events : List Event) (side : Build)
    (senderLive : ((run sessionId events).ep side).freed = false)
    (receiverLive : ((run sessionId events).ep (otherEnd side)).freed = false)
    (counted : ((run sessionId events).ep side).hUART.packageIndex < 2 ^ 32)
    (given : ((run sessionId events).ep side).submitted.flatten <+: Framing.stream send packets)
    (reads : List ReadEvent) (cut : reads.flatMap (·.chunk) <+:
      ((run sessionId events).ep (otherEnd side)).dispatched.flatten)
    (served : Served fetchCommand (otherEnd side) .initial reads)
    (passed : reads.any (·.refused (otherEnd side)) = false) :
    Stands packets (reads.flatMap (·.chunk)) (runReads fetchCommand (otherEnd side) reads) := by
  obtain ⟨_, inv, carries⟩ := (run_ok_linked sessionId events).2 side senderLive receiverLive counted
  obtain ⟨_, whole⟩ := inv.got_prefix
  rw [← carries.got] at cut
  rw [← carries.submitted, ← whole, filterMap_append, flatten_append] at given
  have part := cut.trans ((prefix_append ..).trans given)
  exact foldl_readStep_stands handles _ fits (.initial packets) rfl served passed part

/-- A packet of which the first copy is lost on the wire. -/
theorem calls_over_link_resent :
    let call : FetchCall := ⟨7, HdcCommand.fileData.code, [1, 2, 3]⟩
    (runReads (fun _ _ => ⟨true, false⟩) .host [⟨65536, send call, ⟨true, 10⟩⟩]).calls = [call] := by
  intro call
  have handles : Handles fun _ _ => ⟨true, false⟩ := ⟨fun _ _ => rfl, fun _ _ => rfl⟩
  have fits : ∀ c ∈ [call], (send c).length ≤ hdcSocketpairSize := by decide
  have link := calls_over_link handles fits 7 [.submit .daemon ⟨send call, by decide⟩,
    .takeSlot .daemon 0, writeAll .daemon, .lose .host 0, .write .daemon (fun _ => 1) 1000,
    .write .daemon (fun _ => 1) 1000, readAll .host] .daemon (by decide +kernel) (by decide +kernel)
    (by decide +kernel) (by decide +kernel) [⟨65536, send call, ⟨true, 10⟩⟩] (by decide +kernel)
    (served_of_fits handles .host fits (.initial [call]) rfl (by decide) (by decide) (by decide)
      (by decide)) (by decide)
  exact link.progress.delivered_all.1

end Hdc.Uart
