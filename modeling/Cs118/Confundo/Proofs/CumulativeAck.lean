import Cs118.Confundo.Proofs.Delivery
import Cs118.Confundo.Proofs.Position
/-!
# Cumulative acknowledgement

The client looks for the entry that expects the number of an acknowledgement and erases it
with everything before it.  That erases what is acknowledged, and only that, when the log is
in order at that number.  Time-outs move entries to the back, so it need not be.
-/

namespace Cs118.Confundo

open Cs118.Lib.Bytes
open Cs118.Lib.Outstanding
open Cs118.Lib.Run

/-- The number of the first byte after the segment of an entry, in a file whose numbers do
not wrap. -/
def stopNumber (file : Buffer) (log : Logger) : Nat := 12346 + endOf file log.filePos

/-- The number of the server's `ACK` that the client takes in by an action of its transfer
loop. -/
def Session.ackTaken (s : Session) : Action → Option UInt32
  | .clientReceive i =>
    if s.client.phase = .loopRecv then
      s.toClient[i]?.bind fun bytes =>
        if (readHeader bytes).flags = ackFlag then some (readHeader bytes).ack else none
    else none
  | _ => none

def Session.InOrder (file : Buffer) (s : Session) (action : Action) : Prop :=
  ∀ x ∈ s.ackTaken action, InOrderAt (stopNumber file) x.toNat s.client.cwndLogs

instance (file : Buffer) (s : Session) (action : Action) : Decidable (s.InOrder file action) :=
  Option.decidableForallMem (s.ackTaken action)

section CumulativeAck

variable {file : Buffer} {c : Client}

theorem Logged.stopNumber_eq (hsmall : Small file) {log : Logger} (h : Logged file log) :
    stopNumber file log = log.eAck.toNat := by
  have heAck : log.eAck = seqAt (endOf file log.filePos) := by
    rw [h.2]
    rfl
  have hend := endOf_le h.1.2
  unfold Small at hsmall
  rw [heAck, seqAt_toNat, Nat.mod_eq_of_lt (by unfold seqModulus; omega)]
  rfl

/-- The scan meets the law of cumulative acknowledgement exactly when the log is in order at
the number. -/
theorem onAck_exact_iff (hsmall : Small file) (hlogged : ∀ log ∈ c.cwndLogs, Logged file log)
    (x : UInt32) :
    (onAck c x).cwndLogs = c.cwndLogs.filter (fun log => x.toNat < stopNumber file log) ↔
      InOrderAt (stopNumber file) x.toNat c.cwndLogs := by
  have hstop : ∀ log ∈ c.cwndLogs, (stopNumber file log = x.toNat ↔ log.eAck = x) := by
    intro log hlog
    rw [(hlogged log hlog).stopNumber_eq hsmall, UInt32.toNat_inj]
  cases herase : eraseThrough x c.cwndLogs with
  | none =>
      have hsame : (onAck c x).cwndLogs = c.cwndLogs := by simp only [onAck, herase]
      rw [hsame]
      apply eq_filter_iff_of_miss
      intro log hlog heq
      exact eraseThrough_eq_none.mp herase log hlog ((hstop log hlog).mp heq)
  | some rest =>
      have hrest : (onAck c x).cwndLogs = rest := by
        obtain ⟨_, _, hgrow, -⟩ := growWindow_eq { c with cwndLogs := rest }
        simp only [onAck, herase, hgrow]
      obtain ⟨before, hit, hsplit, hhit, hfirst⟩ := eraseThrough_eq_some herase
      rw [hsplit] at hstop
      rw [hrest, hsplit]
      apply eq_filter_iff_of_hit
      · intro log hlog heq
        exact hfirst log hlog ((hstop log (by simp [hlog])).mp heq)
      · exact (hstop hit (by simp)).mpr hhit

theorem cwndLogs_of_ackTaken {addr : SockAddr} {s s' : Session} {action : Action}
    (hstep : Session.step file addr s action = some s') {x : UInt32}
    (hx : x ∈ s.ackTaken action) :
    s.client.inTransfer ∧ s'.client.cwndLogs = (onAck s.client x).cwndLogs := by
  cases action with
  | clientReceive i =>
      simp only [Session.ackTaken] at hx
      split_ifs at hx with hphase
      · obtain ⟨bytes, hbytes, hflags⟩ := Option.bind_eq_some_iff.mp hx
        split_ifs at hflags
        obtain rfl := Option.some.inj hflags
        refine ⟨Or.inr hphase, ?_⟩
        simp only [Session.step, hbytes, Option.bind_some] at hstep
        obtain ⟨next, hnext, rfl⟩ := Option.map_eq_some_iff.mp hstep
        simp only [Client.step, hphase] at hnext
        split_ifs at hnext
        obtain rfl := Option.some.inj hnext
        show (endIteration _).1.cwndLogs = _
        unfold endIteration
        split_ifs <;> rfl
      · simp at hx
  | client event => simp [Session.ackTaken] at hx
  | serverReceive i => simp [Session.ackTaken] at hx
  | loseToServer i => simp [Session.ackTaken] at hx
  | loseToClient i => simp [Session.ackTaken] at hx
  | copyToServer i => simp [Session.ackTaken] at hx
  | copyToClient i => simp [Session.ackTaken] at hx

/-- From every reachable state and along every run, an `ACK` leaves exactly the entries that
end beyond its number just when the log is in order at that number. -/
theorem cumulative_acknowledgement_iff {host : Nat} (hsmall : file.length ≤ 90054) {s : Session}
    (h : Session.Reachable file (inetAddr host) s) (actions : List Action) :
    AlongRun (Session.step file (inetAddr host))
        (fun s action s' => ∀ x ∈ s.ackTaken action, s'.client.cwndLogs =
          s.client.cwndLogs.filter fun log => x.toNat < stopNumber file log) s actions ↔
      AlongRun (Session.step file (inetAddr host))
        (fun s action _ => s.InOrder file action) s actions := by
  refine alongRun_congr (I := Session.Reachable file (inetAddr host)) ?_ ?_
    (fun _ _ => trivial) h
  · exact fun s action s' hs _ hstep _ => hs.tail trivial hstep
  · intro s action s' hs _ hstep
    refine forall_congr' fun x => forall_congr' fun hx => ?_
    obtain ⟨htransfer, hlogs⟩ := cwndLogs_of_ackTaken hstep hx
    rw [hlogs]
    exact onAck_exact_iff hsmall (hs.client.ok.transfer htransfer).aligned.inStep.logged x

def coveringRun : List Action :=
  [.client .sendSyn, .serverReceive 0, .clientReceive 0, .client (.iterate false),
    .client .nothing, .client (.iterate false), .serverReceive 0, .serverReceive 0,
    .loseToClient 0, .clientReceive 0]

theorem cumulative_acknowledgement_coveringRun :
    AlongRun (Session.step (List.replicate 513 7) (inetAddr 0))
      (fun s action s' => ∀ x ∈ s.ackTaken action, s'.client.cwndLogs =
        s.client.cwndLogs.filter fun log => x.toNat < stopNumber (List.replicate 513 7) log)
      Session.start coveringRun :=
  (cumulative_acknowledgement_iff (List.length_replicate.trans_le (by decide)) (.refl _)
    coveringRun).mpr (by decide +kernel)

/-- Two segments go out and only the first arrives; it times out first. -/
def overtakenRun : List Action :=
  [.client .sendSyn, .serverReceive 0, .clientReceive 0, .client (.iterate false),
    .client .nothing, .client (.iterate false), .client .nothing, .client (.iterate true),
    .serverReceive 0]

/-- The second segment, which the server has not got, is forgotten with the first. -/
theorem unacknowledged_segment_forgotten :
    ∃ s s', Session.Reachable (List.replicate 513 7) (inetAddr 0) s ∧
      Session.step (List.replicate 513 7) (inetAddr 0) s (.clientReceive 0) = some s' ∧
      s.ackTaken (.clientReceive 0) = some 12858 ∧
      s.client.cwndLogs = [⟨12859, 12858, 512⟩, ⟨12858, 12346, 0⟩] ∧
      s'.client.cwndLogs = [] ∧
      s'.client.cwndLogs ≠ s.client.cwndLogs.filter fun log =>
        (12858 : UInt32).toNat < stopNumber (List.replicate 513 7) log := by
  have hrun : (run (Session.step (List.replicate 513 7) (inetAddr 0)) Session.start
      overtakenRun).any (fun s =>
        (Session.step (List.replicate 513 7) (inetAddr 0) s (.clientReceive 0)).any fun s' =>
          s.ackTaken (.clientReceive 0) = some 12858 ∧
          s.client.cwndLogs = [⟨12859, 12858, 512⟩, ⟨12858, 12346, 0⟩] ∧
          s'.client.cwndLogs = [] ∧
          s'.client.cwndLogs ≠ s.client.cwndLogs.filter fun log =>
            (12858 : UInt32).toNat < stopNumber (List.replicate 513 7) log) = true := by
    decide +kernel
  obtain ⟨s, hs, hnext⟩ := (Option.any_eq_true _ _).mp hrun
  obtain ⟨s', hs', hstate⟩ := (Option.any_eq_true _ _).mp hnext
  exact ⟨s, s', reach_of_run (fun _ _ => trivial) hs, hs', of_decide_eq_true hstate⟩

end CumulativeAck

end Cs118.Confundo
