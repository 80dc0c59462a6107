import Cs118.Lib.Simulation
import Cs118.Confundo.Clock
import Cs118.Confundo.Proofs.Wraparound
/-!
# The clock decides what the environment may do

Every pass of the program with its clock readings is a run of at most two events of
the client without a clock, so what holds of all sessions holds of this one.
-/

namespace Cs118.Confundo

open Cs118.Lib.Bytes
open Cs118.Lib.Run
open Cs118.Lib.Simulation

namespace TimedClient

variable {file : Buffer} {t : TimedClient} {event : TimedEvent} {next : TimedClient × List Buffer}

theorem step_eq_some (h : t.step file event = some next) :
    (t.clock :: event.readings).IsChain (· ≤ ·) ∧
      ∃ after, t.react file event = some after ∧
        next = ({ after.1 with clock := event.readings.getLastD t.clock }, after.2) := by
  unfold step at h
  split_ifs at h with hchain
  obtain ⟨after, hafter, rfl⟩ := Option.map_eq_some_iff.mp h
  exact ⟨hchain, after, hafter, rfl⟩

theorem logged_of_timedOut {now : TimePoint} (h : t.timedOut now = true) :
    t.client.cwndLogs ≠ [] := by
  intro hlogs
  have hlength := t.stamped
  rw [hlogs, List.length_nil, List.length_eq_zero_iff] at hlength
  simp [timedOut, hlength] at h

variable (file) in
theorem client_sendNext (sent : TimePoint) :
    (t.sendNext file sent).1.client = (Confundo.sendNext file t.client).1 ∧
      (t.sendNext file sent).2 = (Confundo.sendNext file t.client).2 := by
  unfold sendNext
  by_cases hcredit : 0 < t.client.cwndSpace ∧ t.client.myfile.eof = false
  · rw [dif_pos hcredit]
    exact ⟨rfl, rfl⟩
  · rw [dif_neg hcredit, sendNext_of_no_credit hcredit]
    exact ⟨rfl, rfl⟩

theorem client_iterate (now sent : TimePoint) (hphase : t.client.phase = .loopTop) :
    t.client.step file (.iterate (t.timedOut now)) =
      some (((sendNext file (if t.timedOut now then t.rewind else t) sent).1.setPhase
          .loopRecv).client,
        (sendNext file (if t.timedOut now then t.rewind else t) sent).2) := by
  obtain ⟨hclient, hsends⟩ := client_sendNext file
    (t := if t.timedOut now then t.rewind else t) sent
  have hready : (if t.timedOut now then t.rewind else t).client =
      if t.timedOut now then Confundo.rewind t.client else t.client := by
    split_ifs <;> rfl
  have henabled : ¬ (t.timedOut now = true ∧ t.client.cwndLogs = []) := fun hboth =>
    logged_of_timedOut hboth.1 hboth.2
  rw [hready] at hclient hsends
  simp only [Client.step, hphase, setPhase]
  rw [if_neg henabled, hclient, hsends]

/-- A pass in which nothing comes in is one event at most. -/
theorem react_quiet (h : t.react file event = some next) (hreceived : event.received = none) :
    (next.1.client = t.client ∧ next.2 = []) ∨
      ∃ e : ClientEvent, e.isReceive = false ∧
        t.client.step file e = some (next.1.client, next.2) := by
  cases hphase : t.client.phase <;> cases event <;>
    simp only [react, hphase, reduceCtorEq] at h <;>
    simp only [TimedEvent.received, reduceCtorEq, Option.map_eq_none_iff] at hreceived
  case synSend.greet =>
    right
    split_ifs at h
    · obtain rfl := Option.some.inj h
      exact ⟨.giveUp, rfl, by simp only [Client.step, hphase]; rfl⟩
    · obtain rfl := Option.some.inj h
      exact ⟨.sendSyn, rfl, by simp only [Client.step, hphase]; rfl⟩
  case synWait.fire =>
    split_ifs at h
    · obtain rfl := Option.some.inj h
      exact Or.inr ⟨.synTimeout, rfl, by simp only [Client.step, hphase]; rfl⟩
    · obtain rfl := Option.some.inj h
      exact Or.inl ⟨rfl, rfl⟩
  case loopTop.iterate now sent =>
    obtain rfl := Option.some.inj h
    exact Or.inr ⟨.iterate (t.timedOut now), rfl, client_iterate now sent hphase⟩
  case loopRecv.nothing =>
    right
    split_ifs at h
    · obtain rfl := Option.some.inj h
      exact ⟨.giveUp, rfl, by simp only [Client.step, hphase]; rfl⟩
    · obtain rfl := Option.some.inj h
      exact ⟨.nothing, rfl, by simp only [Client.step, hphase]; rfl⟩
  case finWait.poll =>
    subst hreceived
    simp only [if_true] at h
    split_ifs at h
    · obtain rfl := Option.some.inj h
      exact Or.inr ⟨.giveUp, rfl, by simp only [Client.step, hphase]; rfl⟩
    · obtain rfl := Option.some.inj h
      unfold resendFin
      split_ifs
      · exact Or.inr ⟨.resendFin, rfl, by simp only [Client.step, hphase]⟩
      · exact Or.inl ⟨rfl, rfl⟩
  case timeWait.wait =>
    subst hreceived
    simp only [if_true] at h
    split_ifs at h
    · obtain rfl := Option.some.inj h
      exact Or.inr ⟨.timeUp, rfl, by simp only [Client.step, hphase]; rfl⟩
    · obtain rfl := Option.some.inj h
      exact Or.inl ⟨rfl, rfl⟩

theorem client_onSynReply (h : Header) (now : TimePoint) :
    (t.onSynReply file h now).client = Confundo.onSynReply file t.client h := by
  unfold onSynReply
  by_cases hexpected : h.ack = 12346 ∨ h.flags = finFlag
  · rw [if_pos (by simpa [isExpected] using hexpected)]
  · rw [if_neg (by simpa [isExpected] using hexpected)]
    exact (if_neg hexpected).symm

theorem client_resendFin (check sent : TimePoint) :
    (t.resendFin check sent).1.client = t.client ∧
      ((t.resendFin check sent).2 = [] ∨ (t.resendFin check sent).2 = [finPacket t.client]) := by
  unfold resendFin
  split_ifs
  · exact ⟨rfl, Or.inr rfl⟩
  · exact ⟨rfl, Or.inl rfl⟩

/-- A pass in which a datagram comes in is its receipt, after a `FIN` that may go out
again before. -/
theorem react_receives {bytes : Buffer} (h : t.react file event = some next)
    (hreceived : event.received = some bytes) :
    (∃ out, t.client.step file (.receive bytes) = some (next.1.client, out) ∧ next.2 = out) ∨
      ∃ fin out, t.client.step file .resendFin = some (t.client, fin) ∧
        t.client.step file (.receive bytes) = some (next.1.client, out) ∧
        next.2 = fin ++ out := by
  cases hphase : t.client.phase <;> cases event <;>
    simp only [react, hphase, reduceCtorEq] at h <;>
    simp only [TimedEvent.received, reduceCtorEq, Option.map_eq_some_iff, Option.some.injEq]
      at hreceived
  case synWait.reply =>
    subst hreceived
    obtain rfl := Option.some.inj h
    refine Or.inl ⟨[], ?_, rfl⟩
    simp only [Client.step, hphase, client_onSynReply]
  case loopRecv.receive =>
    subst hreceived
    split_ifs at h with hempty
    obtain rfl := Option.some.inj h
    refine Or.inl ⟨_, ?_, rfl⟩
    simp only [Client.step, hphase]
    exact if_neg hempty
  case finWait.poll now check sent answer =>
    obtain ⟨⟨first, received, replied⟩, rfl, hfirst⟩ := hreceived
    obtain rfl : first = bytes := hfirst
    obtain ⟨hclient, hsends⟩ := client_resendFin (t := t) check sent
    simp only [reduceCtorEq, if_false] at h
    split_ifs at h with hlate hempty
    obtain rfl := Option.some.inj h
    have hreceive : t.client.step file (.receive first) =
        some ((Confundo.onFinReply t.client (readHeader first)).1,
          (Confundo.onFinReply t.client (readHeader first)).2) := by
      simp only [Client.step, hphase]
      exact if_neg hempty
    simp only [TimedClient.onFinReply, hclient]
    rcases hsends with hsends | hsends
    · exact Or.inl ⟨_, hreceive, by rw [hsends, List.nil_append]⟩
    · refine Or.inr ⟨[finPacket t.client], _, ?_, hreceive, by rw [hsends]⟩
      simp only [Client.step, hphase]
  case timeWait.wait =>
    subst hreceived
    simp only [reduceCtorEq, if_false] at h
    split_ifs at h with hlate hempty
    obtain rfl := Option.some.inj h
    refine Or.inl ⟨_, ?_, rfl⟩
    simp only [Client.step, hphase]
    exact if_neg hempty

end TimedClient

theorem Session.client_of_environment {file : Buffer} {addr : SockAddr} {s s' : Session}
    {action : Action} (h : Session.step file addr s action = some s')
    (haction : action.isClient = false) : s'.client = s.client := by
  cases action with
  | client event => exact absurd haction (by simp [Action.isClient])
  | clientReceive i => exact absurd haction (by simp [Action.isClient])
  | serverReceive i | copyToServer i | copyToClient i =>
      obtain ⟨bytes, -, rfl⟩ := Option.map_eq_some_iff.mp h
      rfl
  | loseToServer i | loseToClient i =>
      simp only [Session.step] at h
      split_ifs at h
      obtain rfl := Option.some.inj h
      rfl

namespace TimedSession

variable {file : Buffer} {addr : SockAddr} {s s' : TimedSession}

/-- One step of the session with a clock is a run of the session without one. -/
theorem answered {action : TimedAction} (h : step file addr s action = some s') :
    Reach (Session.step file addr) (fun _ => True) s.untimed s'.untimed := by
  cases action with
  | client event i =>
      unfold step at h
      cases hreceived : event.received with
      | none =>
          simp only [hreceived] at h
          obtain ⟨next, hnext, rfl⟩ := Option.map_eq_some_iff.mp h
          obtain ⟨-, after, hafter, rfl⟩ := TimedClient.step_eq_some hnext
          rcases TimedClient.react_quiet hafter hreceived with ⟨hclient, hsends⟩ | ⟨e, he, hstep⟩
          · simp only [untimed, hclient, hsends, List.append_nil]
            exact .refl _
          · apply Reach.single (a := .client e) trivial
            simp only [Session.step, he, untimed, hstep]
            rfl
      | some bytes =>
          simp only [hreceived] at h
          split_ifs at h with hbytes
          obtain ⟨next, hnext, rfl⟩ := Option.map_eq_some_iff.mp h
          obtain ⟨-, after, hafter, rfl⟩ := TimedClient.step_eq_some hnext
          rcases TimedClient.react_receives hafter hreceived with
            ⟨out, hstep, hsends⟩ | ⟨fin, out, hfin, hstep, hsends⟩
          · apply Reach.single (a := .clientReceive i) trivial
            simp only [Session.step, untimed, hbytes, Option.bind_some, hstep, Option.map_some,
              hsends]
          · have hmid : Session.step file addr s.untimed (.client .resendFin) =
                some { s.untimed with toServer := s.toServer ++ fin } := by
              simp only [Session.step, untimed, ClientEvent.isReceive, hfin]
              rfl
            refine (Reach.single trivial hmid).tail (a := .clientReceive i) trivial ?_
            simp only [Session.step, untimed, hbytes, Option.bind_some, hstep, Option.map_some,
              hsends, List.append_assoc]
  | environment action =>
      unfold step at h
      simp only at h
      split_ifs at h with hclient
      obtain ⟨next, hnext, rfl⟩ := Option.map_eq_some_iff.mp h
      have hsame := Session.client_of_environment hnext (by simpa using hclient)
      apply Reach.single (a := action) trivial
      rw [hnext]
      simp only [untimed] at hsame ⊢
      rw [← hsame]

theorem simulates (file : Buffer) (addr : SockAddr) :
    Simulates (step file addr) (fun _ => True) (Session.step file addr) (fun _ => True)
      (fun s s' => s.untimed = s') where
  answers := by
    rintro s action s' _ rfl - h
    exact ⟨s'.untimed, answered h, rfl⟩

/-- Without the times, every state of the session with a clock is one of the session
whose timers run out at any time. -/
theorem untimed_reachable {now : TimePoint} (h : Reachable file addr now s) :
    Session.Reachable file addr s.untimed := by
  obtain ⟨s', hreach, rfl⟩ := (simulates file addr).reach (t := Session.start) rfl h
  exact hreach

/-- What is known of sessions without a clock holds of this one: a file whose numbers do not
wrap has arrived when the client has returned from `ending`. -/
theorem delivered {now : TimePoint} {host : Nat} (hsmall : file.length ≤ 90054)
    (h : Reachable file (inetAddr host) now s) (hclosed : s.client.client.phase = .closed) :
    ∃ c, s.untimed.connection = some c ∧ c.myfile.contents = file ∧ c.isFin = 1 := by
  obtain ⟨s', hreach, rfl⟩ := (simulates file (inetAddr host)).reach (t := Session.start) rfl h
  exact delivered_of_closed hsmall hreach hclosed

/-- A session of 2.7 seconds: the only segment is lost and goes out again after 598 ms. -/
def clockRun : List TimedAction :=
  [.client (.greet 0 0) 0, .environment (.serverReceive 0),
    .client (.reply (datagram ⟨4321, 12346, 1, synAckFlag⟩ noData) 1000000) 0,
    .client (.iterate 2000000 2000000) 0, .environment (.loseToServer 0),
    .client (.nothing 3000000 3000000 3000000) 0, .client (.iterate 600000000 600000000) 0,
    .environment (.serverReceive 0),
    .client (.receive (datagram ⟨4321, 12347, 1, ackFlag⟩ (7 :: List.replicate 511 0))
      601000000 601000000 601000000) 0,
    .environment (.serverReceive 0),
    .client (.poll 602000000 602000000 602000000
      (some (datagram ⟨4321, 12348, 1, ackFlag⟩ noData, 603000000, 603000000))) 0,
    .client (.poll 604000000 604000000 604000000
      (some (datagram ⟨4321, 0, 1, finFlag⟩ noData, 605000000, 605000000))) 0,
    .client (.wait 2700000000 none) 0]

theorem untimed_clockRun :
    ∃ s, run (step [7] (inetAddr 0)) (start 0) clockRun = some s ∧
      s.client.client.phase = .closed ∧ Session.Reachable [7] (inetAddr 0) s.untimed := by
  have hrun : (run (step [7] (inetAddr 0)) (start 0) clockRun).any
      (fun s => s.client.client.phase = .closed) = true := by decide +kernel
  obtain ⟨s, hs, hclosed⟩ := (Option.any_eq_true _ _).mp hrun
  have hreach : Reachable [7] (inetAddr 0) 0 s := reach_of_run (fun _ _ => trivial) hs
  exact ⟨s, hs, of_decide_eq_true hclosed, untimed_reachable hreach⟩

end TimedSession

end Cs118.Confundo
