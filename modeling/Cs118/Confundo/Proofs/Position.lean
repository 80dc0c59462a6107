import Cs118.Confundo.Reception
import Cs118.Confundo.Proofs.Safety
/-!
# The transfer loop knows where it is

Whatever is sent to the client, its log ends where its file stream stands, and at the end of
the file the log is empty only when the loop is left.  So the loop is left on the
acknowledgement of the last byte.
-/

namespace Cs118.Confundo

open Cs118.Lib.Bytes
open Cs118.Lib.Run

def Client.next (file : Buffer) (c : Client) (event : ClientEvent) : Option Client :=
  (c.step file event).map (·.1)

def Client.Reachable (file : Buffer) (c : Client) : Prop :=
  Reach (Client.next file) (fun _ => True) Client.start c

/-- Stream, number and log are in step, and the last segment logged ends at the read offset. -/
structure Aligned (file : Buffer) (c : Client) : Prop where
  inStep : InStep file c
  lastEnds : ∀ log ∈ c.cwndLogs.getLast?, endOf file log.filePos = c.myfile.pos

/-- The invariant of the loop: something is logged when the end of the file has been hit. -/
structure Looping (file : Buffer) (c : Client) : Prop where
  aligned : Aligned file c
  pending : c.myfile.eof = true → c.cwndLogs ≠ []

structure ClientOk (file : Buffer) (c : Client) : Prop where
  greeting : c.phase = .synSend ∨ c.phase = .synWait → c.cwndLogs = []
  transfer : c.inTransfer → Looping file c

section

variable {file : Buffer} {c : Client}

/-! ## The parts of an iteration -/

theorem Aligned.of_fields {c' : Client} (h : Aligned file c) (hfile : c'.myfile = c.myfile)
    (hseq : c'.seqNum = c.seqNum) (hlogs : c'.cwndLogs = c.cwndLogs) : Aligned file c' where
  inStep := h.inStep.of_fields hfile hseq hlogs
  lastEnds := by
    rw [hlogs, hfile]
    exact h.lastEnds

theorem looping_afterSend (h : InStep file c) (heof : c.myfile.eof = false) :
    Looping file (afterSend file c) where
  aligned := by
    refine ⟨h.afterSend heof, fun log hlog => ?_⟩
    obtain rfl : entry file c.myfile.pos = log := by simpa [afterSend] using hlog
    rfl
  pending := fun _ => by simp [afterSend]

theorem eof_rewind (h : c.cwndLogs ≠ []) : (rewind c).myfile.eof = false := by
  obtain ⟨front, rest, hlogs⟩ := List.exists_cons_of_ne_nil h
  rw [rewind_cons hlogs]

/-- A datagram with the bytes of the segment that `log` stands for. -/
def CarriesSegment (file : Buffer) (log : Logger) (bytes : Buffer) : Prop :=
  ∃ ack id flags, bytes = datagram ⟨log.seq, ack, id, flags⟩ (getBytes file log.filePos dataSize)

theorem Looping.sendNext (h : Looping file c) {timeout : Bool}
    (henabled : timeout = true → c.cwndLogs ≠ []) :
    let next := sendNext file (if timeout then rewind c else c)
    Looping file next.1 ∧
      ∀ bytes ∈ next.2, ∃ log ∈ next.1.cwndLogs.getLast?, CarriesSegment file log bytes := by
  have hsent : ∀ c : Client, InStep file c → c.myfile.eof = false →
      Looping file (afterSend file c) ∧
        ∀ bytes ∈ [segmentOf file c],
          ∃ log ∈ (afterSend file c).cwndLogs.getLast?, CarriesSegment file log bytes := by
    intro c hstep heof
    refine ⟨looping_afterSend hstep heof, fun bytes hbytes => ?_⟩
    rw [List.mem_singleton.mp hbytes]
    exact ⟨entry file c.myfile.pos, by simp [afterSend], c.ackNum, c.idNum.toUInt16, c.flags, rfl⟩
  have hstep := h.aligned.inStep
  cases timeout with
  | true =>
      have hlogs := henabled rfl
      rw [if_pos rfl, sendNext_rewind hstep hlogs]
      exact hsent _ hstep.rewind (eof_rewind hlogs)
  | false =>
      rw [if_neg (by simp)]
      by_cases hcredit : 0 < c.cwndSpace ∧ c.myfile.eof = false
      · rw [sendNext_of_credit hstep hcredit.1 hcredit.2]
        exact hsent c hstep hcredit.2
      · rw [sendNext_of_no_credit hcredit]
        exact ⟨h, by simp⟩

theorem Aligned.onAck (h : Aligned file c) (ack : UInt32) : Aligned file (onAck c ack) := by
  have hinStep := h.inStep.onAck ack
  rcases onAck_cases c ack with ⟨hsame, -⟩ | ⟨before, hit, rest, _, _, hsplit, -, -, hack⟩
  · rwa [hsame]
  · rw [hack] at hinStep ⊢
    refine ⟨hinStep, fun log hlog => h.lastEnds log ?_⟩
    have hrest : rest.getLast? = some log := hlog
    simp [hsplit, List.getLast?_append, List.getLast?_cons, hrest]

/-- An acknowledgement empties the log only when it is the one that the last entry expects. -/
theorem onAck_empties {ack : UInt32} (hlogs : c.cwndLogs ≠ []) (h : (onAck c ack).cwndLogs = []) :
    ∃ log ∈ c.cwndLogs.getLast?, log.eAck = ack := by
  rcases onAck_cases c ack with ⟨hsame, -⟩ | ⟨before, hit, rest, _, _, hsplit, hhit, -, hack⟩
  · rw [hsame] at h
    exact absurd h hlogs
  · rw [hack] at h
    have hrest : rest = [] := h
    exact ⟨hit, by simp [hsplit, hrest], hhit⟩

theorem myfile_onAck (ack : UInt32) : (onAck c ack).myfile = c.myfile := by
  rcases onAck_cases c ack with ⟨hsame, -⟩ | ⟨_, _, _, _, _, -, -, -, hack⟩
  · rw [hsame]
  · rw [hack]

theorem Aligned.endIteration (h : Aligned file c) :
    (endIteration c).1.phase = .loopTop ∧ (endIteration c).2 = [] ∧
        Looping file (endIteration c).1 ∨
      (endIteration c).1.phase = .finWait ∧ c.myfile.eof = true ∧ c.cwndLogs = [] := by
  have htellg := h.inStep.tellg_eq_none
  unfold Confundo.endIteration
  split_ifs with hdone
  · exact Or.inr ⟨rfl, htellg.mp hdone.1, hdone.2⟩
  · exact Or.inl ⟨rfl, rfl, h.of_fields rfl rfl rfl,
      fun heof hlogs => hdone ⟨htellg.mpr heof, hlogs⟩⟩

/-! ## Every state -/

theorem clientOk_of_left (hphase : c.phase = .finWait ∨ c.phase = .timeWait ∨ c.phase = .closed ∨
    c.phase = .failed) : ClientOk file c := by
  constructor
  · rintro (hgreeting | hgreeting) <;> rw [hgreeting] at hphase <;> simp at hphase
  · rintro (htransfer | htransfer) <;> rw [htransfer] at hphase <;> simp at hphase

theorem clientOk_of_looping (h : Looping file c) (hphase : c.inTransfer) : ClientOk file c := by
  refine ⟨fun hgreeting => ?_, fun _ => h⟩
  rcases hphase with htransfer | htransfer <;> rw [htransfer] at hgreeting <;> simp at hgreeting

theorem clientOk_of_greeting (hphase : c.phase = .synSend ∨ c.phase = .synWait)
    (hlogs : c.cwndLogs = []) : ClientOk file c := by
  refine ⟨fun _ => hlogs, fun htransfer => ?_⟩
  rcases hphase with hgreeting | hgreeting <;> simp [Client.inTransfer, hgreeting] at htransfer

theorem clientOk_endIteration (h : Aligned file c) : ClientOk file (endIteration c).1 := by
  rcases h.endIteration with ⟨hphase, -, hlooping⟩ | ⟨hphase, -⟩
  · exact clientOk_of_looping hlooping (Or.inl hphase)
  · exact clientOk_of_left (Or.inl hphase)

theorem clientOk_enterTransfer (hseq : c.seqNum = 12346) (hlogs : c.cwndLogs = []) :
    ClientOk file (enterTransfer file c) := by
  unfold enterTransfer
  split_ifs with hlarge
  · exact clientOk_of_left (by simp)
  · refine clientOk_of_looping ⟨⟨inStep_of_start file _ hseq rfl hlogs, ?_⟩, ?_⟩ (Or.inl rfl)
    · simp [hlogs]
    · simp [InFile.start]

theorem clientOk_onSynReply (hphase : c.phase = .synWait) (hlogs : c.cwndLogs = []) (h : Header) :
    ClientOk file (onSynReply file c h) := by
  have hgrown : (if c.cwnd < c.ssThresh then { c with cwnd := c.cwnd + 512 } else c).cwndLogs =
      [] := by
    split_ifs <;> exact hlogs
  unfold onSynReply
  by_cases hreply : h.ack = 12346 ∨ h.flags = finFlag
  · rw [if_pos hreply]
    dsimp only
    by_cases hgreeted : h.flags = synAckFlag ∧ h.seq = 4321
    · have hack : h.ack = 12346 := by
        refine hreply.resolve_right fun hfin => ?_
        exact absurd (hgreeted.1.symm.trans hfin) (by decide)
      rw [if_pos hgreeted]
      exact clientOk_enterTransfer hack hgrown
    · rw [if_neg hgreeted]
      exact clientOk_of_greeting (Or.inl rfl) hgrown
  · rw [if_neg hreply]
    exact clientOk_of_greeting (Or.inr hphase) hlogs

theorem ClientOk.step (h : ClientOk file c) {event : ClientEvent} {next : Client × List Buffer}
    (hstep : c.step file event = some next) : ClientOk file next.1 := by
  by_cases hgreeting : c.phase = .synSend ∨ c.phase = .synWait
  · have hlogs := h.greeting hgreeting
    cases Client.greets_of_step hgreeting hstep with
    | sendSyn _ => exact clientOk_of_greeting (Or.inr rfl) hlogs
    | giveUp _ => exact clientOk_of_left (by simp)
    | synTimeout _ => exact clientOk_of_greeting (Or.inl rfl) hlogs
    | reply hphase => exact clientOk_onSynReply hphase hlogs _
  · cases Client.moves_of_step (not_or.mp hgreeting) hstep with
    | iterate hphase henabled =>
        have hnext := ((h.transfer (Or.inl hphase)).sendNext henabled).1
        exact clientOk_of_looping ⟨hnext.aligned.of_fields rfl rfl rfl, hnext.pending⟩ (Or.inr rfl)
    | ack hphase => exact clientOk_endIteration ((h.transfer (Or.inr hphase)).aligned.onAck _)
    | nothing hphase => exact clientOk_endIteration (h.transfer (Or.inr hphase)).aligned
    | giveUp _ => exact clientOk_of_left (by simp)
    | resendFin hphase => exact h
    | finReply hphase =>
        unfold onFinReply
        split_ifs
        · exact clientOk_of_left (by simp)
        · exact h
    | timeWait hphase =>
        refine clientOk_of_left (Or.inr (Or.inl ?_))
        unfold onTimeWait
        split_ifs <;> exact hphase
    | timeUp _ => exact clientOk_of_left (by simp)

theorem Client.Reachable.ok (h : c.Reachable file) : ClientOk file c := by
  refine Reach.invariant (P := ClientOk file) ?_
    (clientOk_of_greeting (Or.inl rfl) rfl) h
  intro c event c' hc _ hstep
  obtain ⟨next, hnext, rfl⟩ := Option.map_eq_some_iff.mp hstep
  exact hc.step hnext

theorem Session.Reachable.client {addr : SockAddr} {s : Session}
    (h : Session.Reachable file addr s) : s.client.Reachable file := by
  refine Reach.invariant (P := fun s => s.client.Reachable file) ?_ (.refl _) h
  intro s action s' hs _ hstep
  cases Session.moves_of_step hstep with
  | @client event next _ hclientStep hclient _ _ _ =>
      have hnext : Client.next file s.client event = some s'.client := by
        rw [Client.next, hclientStep, hclient]
        rfl
      exact hs.tail trivial hnext
  | server _ hanswers => exact hanswers.client ▸ hs
  | network hclient _ _ _ => exact hclient ▸ hs

/-- What stands in `recv_packet` is as good as any datagram. -/
theorem ClientProcess.Reachable.client {p : ClientProcess} (h : p.Reachable file) :
    p.client.Reachable file := by
  have hstart : ClientProcess.start.client.Reachable file := .refl Client.start
  refine Reach.invariant (P := fun p : ClientProcess => p.client.Reachable file) ?_ hstart h
  rintro p action p' hp - hstep
  obtain ⟨next, hnext, rfl⟩ := Option.map_eq_some_iff.mp hstep
  obtain ⟨seen, -, hmoved⟩ := ClientProcess.client_step hnext
  refine hp.tail (a := seen) trivial ?_
  rw [Client.next, hmoved]
  rfl

theorem ClientProcess.perceives_receive {p : ClientProcess} {event : ClientEvent} {held : Buffer}
    (h : p.perceives event = some (.receive held)) :
    ∃ bytes, event = .receive bytes ∧ held = p.recvPacket.overwrite bytes := by
  cases event with
  | receive bytes =>
      simp only [perceives] at h
      split_ifs at h
      exact ⟨bytes, rfl, (ClientEvent.receive.inj (Option.some.inj h)).symm⟩
  | sendSyn | synTimeout | giveUp | iterate | nothing | resendFin | timeUp =>
      simp [perceives] at h

/-! ## The position of the loop -/

/-- Where the loop stands in a file, in plain numbers.  A datagram without an `ack` field of
its own may also end the loop, by the one that is left in `recv_packet`. -/
structure Position (file : Buffer) (p : ClientProcess) : Prop where
  seqNum : p.client.seqNum.toNat = (12346 + p.client.myfile.pos) % seqModulus
  atEnd : p.client.myfile.eof = true → p.client.myfile.pos = file.length
  logs : ∀ log ∈ p.client.cwndLogs, log.filePos ≤ file.length ∧
    log.seq.toNat = (12346 + log.filePos) % seqModulus ∧
    log.eAck.toNat =
      (log.seq.toNat + min dataSize (file.length - log.filePos)) % seqModulus
  last : ∀ log ∈ p.client.cwndLogs.getLast?,
    log.filePos + min dataSize (file.length - log.filePos) = p.client.myfile.pos
  sends : ∀ event stack next, p.step file event stack = some next →
    next.1.client.inTransfer → ∀ bytes ∈ next.2,
      ∃ log ∈ next.1.client.cwndLogs.getLast?, CarriesSegment file log bytes
  leaves : ∀ event stack next, p.step file event stack = some next →
    next.1.client.phase = .finWait → ∃ bytes, event = .receive bytes ∧
      (12 ≤ bytes.length →
        (readHeader bytes).ack.toNat = (12346 + file.length) % seqModulus) ∧
      ∃ log ∈ p.client.cwndLogs,
        log.filePos + min dataSize (file.length - log.filePos) = file.length

theorem endOf_eq_add (file : Buffer) (pos : Nat) :
    endOf file pos = pos + min dataSize (file.length - pos) := by
  rw [endOf, length_chunk]

theorem Logged.numbers {log : Logger} (h : Logged file log) : log.filePos ≤ file.length ∧
    log.seq.toNat = (12346 + log.filePos) % seqModulus ∧
    log.eAck.toNat =
      (log.seq.toNat + min dataSize (file.length - log.filePos)) % seqModulus := by
  obtain ⟨hcut, hentry⟩ := h
  have hseq : log.seq.toNat = (12346 + log.filePos) % seqModulus := by
    rw [hentry]
    exact seqAt_toNat _
  refine ⟨hcut.2, hseq, ?_⟩
  have heAck : log.eAck.toNat = (12346 + endOf file log.filePos) % seqModulus := by
    conv_lhs => rw [hentry]
    exact seqAt_toNat _
  rw [heAck, hseq, endOf_eq_add, Nat.mod_add_mod, Nat.add_assoc]

theorem greeted_of_inTransfer (h : c.inTransfer) : c.phase ≠ .synSend ∧ c.phase ≠ .synWait := by
  rcases h with hphase | hphase <;> simp [hphase]

theorem Looping.sends (h : Looping file c) (hphase : c.inTransfer) {event : ClientEvent}
    {next : Client × List Buffer} (hstep : c.step file event = some next)
    (hnext : next.1.inTransfer) :
    ∀ bytes ∈ next.2, ∃ log ∈ next.1.cwndLogs.getLast?, CarriesSegment file log bytes := by
  have hquiet : ∀ {c : Client}, Aligned file c → (Confundo.endIteration c).1.inTransfer →
      (Confundo.endIteration c).2 = [] := by
    intro c halign htransfer
    rcases halign.endIteration with ⟨-, hnone, -⟩ | ⟨hleft, -⟩
    · exact hnone
    · simp [Client.inTransfer, hleft] at htransfer
  cases Client.moves_of_step (greeted_of_inTransfer hphase) hstep with
  | iterate _ henabled => exact (h.sendNext henabled).2
  | ack _ =>
      rw [hquiet (h.aligned.onAck _) hnext]
      simp
  | nothing _ =>
      rw [hquiet h.aligned hnext]
      simp
  | giveUp _ => simp
  | resendFin hleft | finReply hleft | timeWait hleft | timeUp hleft =>
      simp [Client.inTransfer, hleft] at hphase

theorem Looping.leaves (h : Looping file c) (hphase : c.inTransfer) {event : ClientEvent}
    {next : Client × List Buffer} (hstep : c.step file event = some next)
    (hnext : next.1.phase = .finWait) :
    ∃ bytes, event = .receive bytes ∧ ∃ log ∈ c.cwndLogs,
      log.eAck = (readHeader bytes).ack ∧ endOf file log.filePos = file.length := by
  cases Client.moves_of_step (greeted_of_inTransfer hphase) hstep with
  | iterate _ _ => simp at hnext
  | @ack bytes _ =>
      rcases (h.aligned.onAck (readHeader bytes).ack).endIteration with
        ⟨htop, -⟩ | ⟨-, heof, hlogs⟩
      · simp [htop] at hnext
      · rw [myfile_onAck] at heof
        obtain ⟨log, hlog, hack⟩ := onAck_empties (h.pending heof) hlogs
        refine ⟨bytes, rfl, log, List.mem_of_getLast? hlog, hack, ?_⟩
        rw [h.aligned.lastEnds log hlog]
        exact h.aligned.inStep.atEnd heof
  | nothing _ =>
      rcases h.aligned.endIteration with ⟨htop, -⟩ | ⟨-, heof, hlogs⟩
      · simp [htop] at hnext
      · exact absurd hlogs (h.pending heof)
  | giveUp _ => simp at hnext
  | resendFin hleft | finReply hleft | timeWait hleft | timeUp hleft =>
      simp [Client.inTransfer, hleft] at hphase

/-- In every reachable state of the transfer loop, whatever arrives and times out. -/
theorem position_of_reachable {p : ClientProcess} (h : p.Reachable file)
    (hphase : p.client.inTransfer) : Position file p := by
  have hlooping := h.client.ok.transfer hphase
  have hinStep := hlooping.aligned.inStep
  refine ⟨?_, hinStep.atEnd, fun log hlog => (hinStep.logged log hlog).numbers, ?_, ?_, ?_⟩
  · rw [hinStep.seq, seqAt_toNat]
  · intro log hlog
    rw [← endOf_eq_add]
    exact hlooping.aligned.lastEnds log hlog
  · intro event stack next hstep hnext
    obtain ⟨seen, -, hmoved⟩ := ClientProcess.client_step hstep
    exact hlooping.sends hphase hmoved hnext
  · intro event stack next hstep hnext
    obtain ⟨seen, hseen, hmoved⟩ := ClientProcess.client_step hstep
    obtain ⟨held, rfl, log, hlog, hack, hend⟩ := hlooping.leaves hphase hmoved hnext
    obtain ⟨bytes, hevent, rfl⟩ := ClientProcess.perceives_receive hseen
    obtain ⟨-, hseq, heAck⟩ := (hinStep.logged log hlog).numbers
    rw [endOf_eq_add] at hend
    refine ⟨bytes, hevent, fun hwhole => ?_, log, hlog, hend⟩
    rw [← readHeader_overwrite p.recvPacket hwhole, ← hack, heAck, hseq, Nat.mod_add_mod,
      Nat.add_assoc, hend]

end

/-- A client that has sent its three bytes twice, and been sent an acknowledgement in the
wrong byte order in between. -/
def retransmitted : ClientProcess where
  client :=
    { phase := .loopRecv, ssThresh := 512, cwnd := 512, seqNum := 12349, ackNum := 0, idNum := 1,
      cwndLogs := [⟨12349, 12346, 0⟩], cwndSpace := 0, flags := 0, myfile := ⟨3, true, true⟩ }
  recvPacket := ⟨4322, htonl 12349, 1, ackFlag⟩

theorem retransmitted_reachable : retransmitted.Reachable [1, 2, 3] := by
  have hrun : run (fun (p : ClientProcess) (action : ClientEvent × Header) =>
        (p.step [1, 2, 3] action.1 action.2).map (·.1)) ClientProcess.start
      [(.sendSyn, ⟨0, 0, 0, 0⟩),
        (.receive (datagram ⟨4321, 12346, 1, synAckFlag⟩ noData), ⟨1, 2, 3, 4⟩),
        (.iterate false, ⟨0, 0, 0, 0⟩),
        (.receive (datagram ⟨4322, htonl 12349, 1, ackFlag⟩ noData), ⟨0, 0, 0, 0⟩),
        (.iterate true, ⟨0, 0, 0, 0⟩)] = some retransmitted := by
    decide +kernel
  exact reach_of_run (fun _ _ => trivial) hrun

theorem position_retransmitted : Position [1, 2, 3] retransmitted :=
  position_of_reachable retransmitted_reachable (Or.inr rfl)

/-- A single byte makes the client swap that acknowledgement once more, and end the loop. -/
example : (retransmitted.step [1, 2, 3] (.receive [0]) ⟨0, 0, 0, 0⟩).map (·.1.client.phase) =
    some .finWait := by
  decide +kernel

end Cs118.Confundo
