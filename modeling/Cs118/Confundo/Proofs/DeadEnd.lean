import Cs118.Confundo.Proofs.Progress
/-!
# Dead ends of the transfer

The log may shrink to segments that end before the server's position, with a
window that does not reach it.  Once what is in flight is lost, the client
resends old segments for ever, and every answer carries a number it ignores.
-/

namespace Cs118.Confundo

open Cs118.Lib.Bytes
open Cs118.Lib.Outstanding
open Cs118.Lib.Run

/-- The number the server answers with starts or ends a logged segment, or the
window reaches what the server has written. -/
def InReach (s : Session) : Prop :=
  ∃ c ∈ s.connection,
    (∃ log ∈ s.client.cwndLogs,
      log.seq = c.packHeader.ack ∨ log.eAck = c.packHeader.ack) ∨
    c.myfile.contents.length ≤ s.client.myfile.pos + dataSize * s.client.cwndSpace.toNat

instance (s : Session) : Decidable (InReach s) := inferInstanceAs (Decidable (∃ c ∈ _, _))

section DeadEnd

variable {file : Buffer} {host i k a : Nat} {slot : Nat → Connection} {s s' : Session}

theorem Delivering.inReach_iff (h : Delivering file host i k slot a s) (hsmall : Small file)
    (htransfer : s.client.inTransfer) :
    InReach s ↔ (∃ log ∈ s.client.cwndLogs, Touches file a log) ∨
      a ≤ s.client.myfile.pos + dataSize * s.client.cwndSpace.toNat := by
  obtain ⟨hack, -⟩ := h.safe.holds.expects (h.safe.early htransfer)
  have hbound := h.safe.holds.boundary.1
  have hlength : (slot i).myfile.contents.length = a := by
    rw [h.safe.holds.contents, List.length_take, min_eq_left hbound]
  have hlog : ∀ log ∈ s.client.cwndLogs,
      (log.seq = seqAt a ∨ log.eAck = seqAt a) ↔ Touches file a log := by
    intro log hmem
    obtain ⟨hcut, hentry⟩ := h.safe.client.inStep.logged log hmem
    have hseq : log.seq = seqAt log.filePos := by
      rw [hentry]
      rfl
    have heAck : log.eAck = seqAt (endOf file log.filePos) := by
      rw [hentry]
      rfl
    rw [hseq, heAck]
    constructor
    · exact Or.imp (hsmall.seqAt_inj hcut.2 hbound) (hsmall.seqAt_inj (endOf_le hcut.2) hbound)
    · exact Or.imp (congrArg seqAt) (congrArg seqAt)
  simp only [InReach, h.safe.connection, Option.mem_def, Option.some.injEq, exists_eq_left', hack,
    hlength]
  refine or_congr_left (exists_congr fun log => ?_)
  exact and_congr_right (hlog log)

/-! ## Hopeless clients -/

/-- Everything logged ends before the server's position, and the window does not
reach it. -/
structure Hopeless (file : Buffer) (a : Nat) (c : Client) : Prop where
  transfer : c.inTransfer
  window : c.myfile.pos + dataSize * c.cwndSpace.toNat < a
  behind : ∀ log ∈ c.cwndLogs, endOf file log.filePos < a

def OldSegment (file : Buffer) (i a : Nat) (bytes : Buffer) : Prop :=
  ∃ pos ack flags, pos < a ∧ (flags = ackFlag ∨ flags = 0) ∧
    bytes = datagram ⟨seqAt pos, ack, UInt16.ofNat (i + 1), flags⟩ (chunk file pos)

theorem oldSegment_segmentOf {c : Client} (hclient : Sending file i c)
    (hpos : c.myfile.pos < a) : OldSegment file i a (segmentOf file c) := by
  rw [segmentOf, hclient.toUInt16_idNum]
  exact ⟨_, _, _, hpos, hclient.flags, rfl⟩

section Client

variable {c : Client}

theorem Hopeless.notEof (h : Hopeless file a c) (hstep : InStep file c)
    (hbound : a ≤ file.length) : c.myfile.eof = false := by
  by_contra hnot
  have hend := hstep.atEnd (by simpa using hnot)
  have hwindow := h.window
  omega

theorem Hopeless.afterSend (h : Hopeless file a c) (hstep : InStep file c)
    (hspace : 0 < c.cwndSpace) (heof : c.myfile.eof = false) :
    Hopeless file a { afterSend file c with phase := .loopRecv } := by
  have hwindow := h.window
  have hend := endOf_eq (hstep.cut heof).2
  obtain ⟨hpos, hspent⟩ := toNat_sub_one hspace
  have hnext : endOf file c.myfile.pos + dataSize * (c.cwndSpace - 1).toNat < a := by
    rw [hspent, hend]
    unfold dataSize at *
    omega
  refine ⟨Or.inr rfl, hnext, ?_⟩
  intro log hlog
  simp only [Confundo.afterSend, List.mem_append, List.mem_singleton] at hlog
  rcases hlog with hlog | rfl
  · exact h.behind log hlog
  · show endOf file c.myfile.pos < a
    omega

theorem Hopeless.rewind (h : Hopeless file a c) (hlogs : c.cwndLogs ≠ []) :
    (Confundo.rewind c).myfile.pos < a ∧
      Hopeless file a { Confundo.afterSend file (Confundo.rewind c) with phase := .loopRecv } := by
  obtain ⟨front, rest, hcons⟩ := List.exists_cons_of_ne_nil hlogs
  have hfront := h.behind front (by simp [hcons])
  have hpos := le_endOf file front.filePos
  have hspace : ((1 : UInt32) - 1).toNat = 0 := by decide
  rw [rewind_cons hcons]
  refine ⟨hpos.trans_lt hfront, Or.inr rfl, ?_, ?_⟩
  · simp only [Confundo.afterSend, hspace]
    omega
  intro log hlog
  simp only [Confundo.afterSend, List.mem_append, List.mem_singleton] at hlog
  rcases hlog with hlog | rfl
  · exact h.behind log (by simp [hcons, hlog])
  · exact hfront

theorem Hopeless.onAck (h : Hopeless file a c) (hsmall : Small file) (hstep : InStep file c)
    (hbound : a ≤ file.length) : onAck c (seqAt a) = c := by
  rcases onAck_cases c (seqAt a) with ⟨hsame, -⟩ | ⟨before, hit, rest, _, _, hsplit, hhit, -⟩
  · exact hsame
  · have hmem : hit ∈ c.cwndLogs := by simp [hsplit]
    obtain ⟨hcut, hentry⟩ := hstep.logged hit hmem
    rw [hentry] at hhit
    have hend := hsmall.seqAt_inj (endOf_le hcut.2) hbound hhit
    have := h.behind hit hmem
    omega

theorem Hopeless.endIteration (h : Hopeless file a c) (hstep : InStep file c)
    (hbound : a ≤ file.length) :
    endIteration c = ({ c with phase := .loopTop }, []) ∧
      Hopeless file a { c with phase := .loopTop } := by
  refine ⟨if_neg fun hexit => ?_, Or.inl rfl, h.window, h.behind⟩
  have heof := hstep.tellg_eq_none.mp hexit.1
  rw [h.notEof hstep hbound] at heof
  exact absurd heof (by simp)

/-- A hopeless client gives up or stays hopeless, and sends old segments only. -/
theorem Hopeless.step (h : Hopeless file a c) (hsmall : Small file) (hclient : Sending file i c)
    (hbound : a ≤ file.length) {event : ClientEvent} {next : Client × List Buffer}
    (hevent : ∀ bytes, event = .receive bytes → (readHeader bytes).ack = seqAt a)
    (hstep : c.step file event = some next) :
    (next.1.phase = .failed ∨ Hopeless file a next.1) ∧
      ∀ bytes ∈ next.2, OldSegment file i a bytes := by
  have heof := h.notEof hclient.inStep hbound
  have hpos : c.myfile.pos < a := by
    have := h.window
    omega
  have hout : ∀ {phase : Phase}, c.phase = phase → phase = .loopTop ∨ phase = .loopRecv := by
    rintro _ rfl
    exact h.transfer
  cases Client.moves_of_step hclient.greeted hstep with
  | @iterate timeout hphase henabled =>
      cases timeout with
      | true =>
          obtain ⟨hold, hnext⟩ := h.rewind (henabled rfl)
          have hsame := sendNext_rewind hclient.inStep (henabled rfl)
          rw [if_pos rfl, hsame]
          refine ⟨Or.inr hnext, fun bytes hbytes => ?_⟩
          obtain rfl := List.mem_singleton.mp hbytes
          exact oldSegment_segmentOf hclient.rewind hold
      | false =>
          rw [if_neg (by simp)]
          by_cases hspace : 0 < c.cwndSpace
          · rw [sendNext_of_credit hclient.inStep hspace heof]
            refine ⟨Or.inr (h.afterSend hclient.inStep hspace heof), fun bytes hbytes => ?_⟩
            obtain rfl := List.mem_singleton.mp hbytes
            exact oldSegment_segmentOf hclient hpos
          · rw [sendNext_of_no_credit fun hcredit => hspace hcredit.1]
            exact ⟨Or.inr ⟨Or.inr rfl, h.window, h.behind⟩, by simp⟩
  | @ack bytes hphase =>
      obtain ⟨hstay, hnext⟩ := h.endIteration hclient.inStep hbound
      rw [hevent bytes rfl, h.onAck hsmall hclient.inStep hbound, hstay]
      exact ⟨Or.inr hnext, by simp⟩
  | nothing hphase =>
      obtain ⟨hstay, hnext⟩ := h.endIteration hclient.inStep hbound
      rw [hstay]
      exact ⟨Or.inr hnext, by simp⟩
  | giveUp _ => exact ⟨Or.inl rfl, by simp⟩
  | resendFin hphase => exact absurd (hout hphase) (by simp)
  | finReply hphase => exact absurd (hout hphase) (by simp)
  | timeWait hphase => exact absurd (hout hphase) (by simp)
  | timeUp hphase => exact absurd (hout hphase) (by simp)

end Client

/-! ## Stuck sessions -/

structure Stuck (file : Buffer) (host i k : Nat) (slot : Nat → Connection) (a : Nat)
    (s : Session) : Prop where
  safe : Adopted file host i k slot a s
  client : Hopeless file a s.client
  toServer : ∀ bytes ∈ s.toServer, OldSegment file i a bytes
  toClient : ∀ bytes ∈ s.toClient, (readHeader bytes).ack = seqAt a

theorem Stuck.step (h : Stuck file host i k slot a s) (hsmall : Small file) {action : Action}
    (hstep : Session.step file (inetAddr host) s action = some s') :
    s'.client.phase = .failed ∨ ∃ slot', Stuck file host i k slot' a s' := by
  have hbound := h.safe.holds.boundary.1
  cases Session.moves_of_step hstep with
  | client hevent hclientStep hclient hserver hto hfrom =>
      obtain ⟨hnext, hout⟩ := h.client.step hsmall h.safe.client hbound
        (fun bytes heq => h.toClient bytes (hevent bytes heq)) hclientStep
      rw [← hclient] at hnext
      refine hnext.imp id fun hhopeless => ⟨slot, ?_, hhopeless, ?_, ?_⟩
      · exact h.safe.client_step hevent hclientStep hclient hserver hto hfrom
      · intro bytes hbytes
        rw [hto, List.mem_append] at hbytes
        exact hbytes.elim (h.toServer bytes) (hout bytes)
      · exact fun bytes hbytes => h.toClient bytes (hfrom hbytes)
  | server hbytes hs =>
      obtain ⟨pos, ack, flags, hlt, hflags, rfl⟩ := h.toServer _ hbytes
      have hseq : seqAt pos ≠ seqAt a := by
        intro heq
        have := hsmall.seqAt_inj (hlt.le.trans hbound) hbound heq
        omega
      obtain ⟨c, seq, payload, hnext, hfrom⟩ :=
        h.safe.receive_other (h.safe.early h.client.transfer) hflags hseq hs
      refine Or.inr ⟨_, hnext, hs.client ▸ h.client, ?_, ?_⟩
      · exact fun bytes hmem => h.toServer bytes (hs.toServer hmem)
      · intro bytes hmem
        rw [hfrom, List.mem_append, List.mem_singleton] at hmem
        rcases hmem with hmem | rfl
        · exact h.toClient bytes hmem
        · rw [readHeader_datagram]
  | network hclient hserver hto hfrom =>
      exact Or.inr ⟨slot, h.safe.network_step hclient hserver hto hfrom, hclient ▸ h.client,
        fun bytes hbytes => h.toServer bytes (hto hbytes),
        fun bytes hbytes => h.toClient bytes (hfrom hbytes)⟩

theorem failed_step (hphase : s.client.phase = .failed) {action : Action}
    (hstep : Session.step file (inetAddr host) s action = some s') :
    s'.client.phase = .failed := by
  cases Session.moves_of_step hstep with
  | client _ hclientStep _ _ _ _ =>
      have hnone : ∀ event, s.client.step file event = none := by
        intro event
        unfold Client.step
        rw [hphase]
      exact absurd hclientStep (by simp [hnone])
  | server _ hs => rw [hs.client, hphase]
  | network hclient _ _ _ => rw [hclient, hphase]

theorem Stuck.not_canLeave (h : Stuck file host i k slot a s) (hsmall : Small file) :
    ¬ CanLeave file host s := by
  rintro ⟨t, hreach, hphase⟩
  have hstuck : t.client.phase = .failed ∨ ∃ slot', Stuck file host i k slot' a t := by
    refine Reach.invariant (P := fun t => t.client.phase = .failed ∨
      ∃ slot', Stuck file host i k slot' a t) ?_ (Or.inr ⟨slot, h⟩) hreach
    rintro s action s' (hfailed | ⟨slot', hstuck⟩) _ hstep
    · exact Or.inl (failed_step hfailed hstep)
    · exact hstuck.step hsmall hstep
  rcases hstuck with hfailed | ⟨slot', hstuck⟩
  · exact absurd (hfailed.symm.trans hphase) (by simp)
  · have htransfer := hstuck.client.transfer
    unfold Client.inTransfer at htransfer
    rw [hphase] at htransfer
    exact absurd htransfer (by simp)

theorem Delivering.hopeless (h : Delivering file host i k slot a s) (hsmall : Small file)
    (htransfer : s.client.inTransfer) (hnot : ¬ InReach s) : Hopeless file a s.client := by
  rw [h.inReach_iff hsmall htransfer, not_or] at hnot
  obtain ⟨htouches, hwindow⟩ := hnot
  refine ⟨htransfer, Nat.lt_of_not_le hwindow, ?_⟩
  have hspans : ∀ span ∈ spans file s.client.cwndLogs, ∃ log ∈ s.client.cwndLogs,
      ⟨log.filePos, endOf file log.filePos⟩ = span := fun span hmem => List.mem_map.mp hmem
  have hstop := Chain.stop_le_acked (h.track.chain htransfer).linked (by omega)
    (by
      intro span hmem hlt
      obtain ⟨log, hlog, rfl⟩ := hspans span hmem
      exact (h.safe.client.inStep.logged log hlog).1.endOf_le_of_lt h.safe.holds.boundary hlt)
    (by
      intro span hmem heq
      obtain ⟨log, hlog, rfl⟩ := hspans span hmem
      exact htouches ⟨log, hlog, Or.inl heq⟩)
  intro log hlog
  have hle : endOf file log.filePos ≤ a := hstop _ (List.mem_map.mpr ⟨log, hlog, rfl⟩)
  have hne : endOf file log.filePos ≠ a := fun heq => htouches ⟨log, hlog, Or.inr heq⟩
  omega

theorem lose_all (s : Session) :
    Reach (Session.step file (inetAddr host)) Action.isLoss s
      { s with toServer := [], toClient := [] } := by
  have hclient : ∀ (lost : List Buffer) (s : Session), s.toClient = lost →
      Reach (Session.step file (inetAddr host)) Action.isLoss s { s with toClient := [] } := by
    intro lost
    induction lost with
    | nil =>
        intro s hs
        rw [← hs]
        exact .refl s
    | cons bytes lost ih =>
        intro s hs
        have hstep : Session.step file (inetAddr host) s (.loseToClient 0) =
            some { s with toClient := lost } := by simp [Session.step, hs]
        exact (Reach.single (a := .loseToClient 0) trivial hstep).trans
          (ih { s with toClient := lost } rfl)
  have hserver : ∀ (lost : List Buffer) (s : Session), s.toServer = lost →
      Reach (Session.step file (inetAddr host)) Action.isLoss s { s with toServer := [] } := by
    intro lost
    induction lost with
    | nil =>
        intro s hs
        rw [← hs]
        exact .refl s
    | cons bytes lost ih =>
        intro s hs
        have hstep : Session.step file (inetAddr host) s (.loseToServer 0) =
            some { s with toServer := lost } := by simp [Session.step, hs]
        exact (Reach.single (a := .loseToServer 0) trivial hstep).trans
          (ih { s with toServer := lost } rfl)
  exact (hserver _ s rfl).trans (hclient _ { s with toServer := [] } rfl)

/-- Out of reach, losing what is in flight is the end of the transfer. -/
theorem Delivering.dead_end (h : Delivering file host i k slot a s) (hsmall : Small file)
    (htransfer : s.client.inTransfer) (hnot : ¬ InReach s) :
    ∃ s', Reach (Session.step file (inetAddr host)) Action.isLoss s s' ∧
      s'.client = s.client ∧ ¬ CanLeave file host s' := by
  refine ⟨_, lose_all s, rfl, ?_⟩
  have hsafe : Adopted file host i k slot a { s with toServer := [], toClient := [] } :=
    h.safe.network_step rfl rfl (List.nil_subset _) (List.nil_subset _)
  have hstuck : Stuck file host i k slot a { s with toServer := [], toClient := [] } :=
    ⟨hsafe, h.hopeless hsmall htransfer hnot, by simp, by simp⟩
  exact hstuck.not_canLeave hsmall

theorem isLoss_reach (h : Reach (Session.step file (inetAddr host)) Action.isLoss s s') :
    Reach (Session.step file (inetAddr host)) Action.noCopy s s' := by
  apply h.weaken
  intro action hloss
  cases action <;> trivial

theorem isLoss_same (h : Reach (Session.step file (inetAddr host)) Action.isLoss s s') :
    s'.client = s.client ∧ s'.server = s.server := by
  refine Reach.invariant (P := fun t => t.client = s.client ∧ t.server = s.server) ?_
    ⟨rfl, rfl⟩ h
  rintro t action t' ⟨hclient, hserver⟩ hloss hstep
  cases action <;> try exact hloss.elim
  all_goals
    simp only [Session.step] at hstep
    split_ifs at hstep
    obtain rfl := Option.some.inj hstep
    exact ⟨hclient, hserver⟩

theorem delivering_of_reachable (hsmall : Small file)
    (h : Session.Reachable file (inetAddr host) s) (htransfer : s.client.inTransfer) :
    ∃ i k slot a, Delivering file host i k slot a s := by
  rcases greeting_or_delivering hsmall h with ⟨k, slot, hgreet⟩ | hdelivering
  · rcases htransfer with hphase | hphase
    · exact absurd hgreet.phase (by simp [hphase])
    · exact absurd hgreet.phase (by simp [hphase])
  · exact hdelivering

/-- In a run without duplication the client can always leave its loop, whatever
of the datagrams in flight is lost, exactly while the server's number is in reach. -/
theorem canLeave_iff_inReach (hsmall : file.length ≤ 90054)
    (h : Session.ReachableOnce file (inetAddr host) s) (htransfer : s.client.inTransfer) :
    (∀ s', Reach (Session.step file (inetAddr host)) Action.isLoss s s' →
        CanLeave file host s') ↔ InReach s := by
  obtain ⟨i, k, slot, a, hdelivering⟩ := delivering_of_reachable hsmall h.reachable htransfer
  constructor
  · intro hleave
    by_contra hnot
    obtain ⟨s', hloss, -, hdead⟩ := hdelivering.dead_end hsmall htransfer hnot
    exact hdead (hleave s' hloss)
  · intro hreach s' hloss
    obtain ⟨hclient, hserver⟩ := isLoss_same hloss
    have htransfer' : s'.client.inTransfer := hclient ▸ htransfer
    have hreach' : InReach s' := by
      simpa only [InReach, Session.connection, hclient, hserver] using hreach
    have hreachable : Session.Reachable file (inetAddr host) s' :=
      Reach.trans h.reachable ((isLoss_reach hloss).weaken fun _ _ => trivial)
    obtain ⟨i', k', slot', a', hdelivering'⟩ :=
      delivering_of_reachable hsmall hreachable htransfer'
    exact hdelivering'.canLeave hsmall htransfer'
      ((hdelivering'.inReach_iff hsmall htransfer').mp hreach')

/-- The handshake with a client that has one byte to send. -/
theorem canLeave_one_byte :
    ∃ s, run (Session.step [7] (inetAddr 0)) Session.start
        [.client .sendSyn, .serverReceive 0, .clientReceive 0] = some s ∧
      ∀ s', Reach (Session.step [7] (inetAddr 0)) Action.isLoss s s' → CanLeave [7] 0 s' := by
  have hrun : (run (Session.step [7] (inetAddr 0)) Session.start
      [.client .sendSyn, .serverReceive 0, .clientReceive 0]).any
        (fun s => s.client.inTransfer ∧ InReach s) = true := by decide +kernel
  obtain ⟨s, hs, hstate⟩ := (Option.any_eq_true _ _).mp hrun
  obtain ⟨htransfer, hreach⟩ := of_decide_eq_true hstate
  refine ⟨s, hs, (canLeave_iff_inReach (by decide) ?_ htransfer).mpr hreach⟩
  exact reach_of_run (by decide) hs

/-- Both segments arrive, the first acknowledgement is lost, and the second comes
between two time-outs. -/
def deadEndRun : List Action :=
  [.client .sendSyn, .serverReceive 0, .clientReceive 0, .client (.iterate false),
    .client .nothing, .client (.iterate false), .client .nothing, .serverReceive 0,
    .serverReceive 0, .loseToClient 0, .client (.iterate true), .clientReceive 0,
    .client (.iterate true)]

theorem dead_end_513_bytes :
    ∃ s, Session.ReachableOnce (List.replicate 513 7) (inetAddr 0) s ∧
      s.client.inTransfer ∧ ¬ CanLeave (List.replicate 513 7) 0 s := by
  have hrun : (run (Session.step (List.replicate 513 7) (inetAddr 0)) Session.start
      deadEndRun).any (fun s => s.client.inTransfer ∧ ¬ InReach s) = true := by decide +kernel
  obtain ⟨s, hs, hstate⟩ := (Option.any_eq_true _ _).mp hrun
  obtain ⟨htransfer, hnot⟩ := of_decide_eq_true hstate
  have hreach : Session.ReachableOnce (List.replicate 513 7) (inetAddr 0) s :=
    reach_of_run (by decide) hs
  have hsmall : Small (List.replicate 513 (7 : UInt8)) := by
    unfold Small
    rw [List.length_replicate]
    decide
  obtain ⟨i, k, slot, a, hdelivering⟩ :=
    delivering_of_reachable hsmall hreach.reachable htransfer
  obtain ⟨s', hloss, hclient, hdead⟩ := hdelivering.dead_end hsmall htransfer hnot
  exact ⟨s', Reach.trans hreach (isLoss_reach hloss), hclient ▸ htransfer, hdead⟩

end DeadEnd

end Cs118.Confundo
