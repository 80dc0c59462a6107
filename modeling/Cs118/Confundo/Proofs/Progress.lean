import Cs118.Confundo.Proofs.Rounds
/-!
# When the client can leave its loop

The server answers every segment with its own number.  If that number starts or
ends a logged segment, resending that segment brings the two ends together; if
the window reaches it, sending on does.  From then on they go in lockstep.
-/

namespace Cs118.Confundo

open Cs118.Lib.Bytes
open Cs118.Lib.Outstanding
open Cs118.Lib.Run

/-- Some run in which no datagram is copied takes the client out of its loop the
normal way. -/
def CanLeave (file : Buffer) (host : Nat) (s : Session) : Prop :=
  ∃ s', Reach (Session.step file (inetAddr host)) Action.noCopy s s' ∧
    s'.client.phase = .finWait

theorem CanLeave.of_reach {file : Buffer} {host : Nat} {s t : Session}
    (hst : Reach (Session.step file (inetAddr host)) Action.noCopy s t)
    (ht : CanLeave file host t) : CanLeave file host s := by
  obtain ⟨s', hreach, hphase⟩ := ht
  exact ⟨s', hst.trans hreach, hphase⟩

section Progress

variable {file : Buffer} {host i k a : Nat} {slot : Nat → Connection} {s : Session}

def Touches (file : Buffer) (a : Nat) (log : Logger) : Prop :=
  log.filePos = a ∨ endOf file log.filePos = a

/-! ## Lockstep -/

theorem Lockstep.canLeave (h : Lockstep file host i k slot a s)
    (haccepted : file.length ≤ 100 * 1024 * 1024) : CanLeave file host s := by
  have hle : a ≤ file.length := h.safe.holds.boundary.1
  induction hleft : file.length - a using Nat.strongRecOn generalizing a s slot with
  | ind left ih =>
      have hiterate := step_iterate host h.safe.client.inStep h.phase h.credit h.more
      have hfirst : Reach (Session.step file (inetAddr host)) Action.noCopy s _ :=
        .single (a := .client (.iterate false)) trivial hiterate
      have hto : (afterIteration file s s.client).toServer =
          s.toServer ++ [segmentOf file s.client] := rfl
      obtain ⟨slot', s', hround, hexit | ⟨hnext, hfull, -⟩⟩ :=
        h.exchange haccepted (h.safe.iterate h.phase h.credit h.more) rfl hto
      · exact ⟨s', hfirst.trans hround, hexit.1⟩
      · have hmore : a < file.length ∧ a < endOf file a := by
          rw [endOf_eq hle]
          unfold dataSize at *
          omega
        exact (ih _ (by omega) hnext hnext.safe.holds.boundary.1 rfl).of_reach
          (hfirst.trans hround)

theorem Delivering.lockstep (h : Delivering file host i k slot a s)
    (hphase : s.client.phase = .loopTop) (hlogs : s.client.cwndLogs = [])
    (hpos : s.client.myfile.pos = a) : Lockstep file host i k slot a s := by
  obtain ⟨heof, hspace⟩ := h.track.ready hphase hlogs
  exact ⟨h.safe, hphase, hlogs, hpos, heof, hspace, hpos ▸ h.track.creditTop hphase heof⟩

theorem Delivering.nothing (h : Delivering file host i k slot a s) (hsmall : Small file)
    (hphase : s.client.phase = .loopRecv) :
    ∃ s', Reach (Session.step file (inetAddr host)) Action.noCopy s s' ∧
      s' = { s with client := { s.client with phase := .loopTop } } ∧
      Delivering file host i k slot a s' := by
  have hbusy := h.track.busy hphase
  have hstep := step_nothing file host hphase hbusy
  have hstay := endIteration_of_logged hbusy
  refine ⟨_, .single (a := .client .nothing) trivial hstep, rfl, ?_⟩
  have hclient : s.client.step file .nothing = some (endIteration s.client) := by
    simp [Client.step, hphase]
  exact h.client_step hsmall (by simp) hclient (by rw [hstay]) rfl (by rw [hstay]; simp)
    (List.Subset.refl _)

/-! ## Resending -/

theorem Delivering.timeout (h : Delivering file host i k slot a s)
    (hphase : s.client.phase = .loopTop) {front : Logger} {rest : List Logger}
    (hlogs : s.client.cwndLogs = front :: rest) :
    Delivering file host i k slot a (afterIteration file s (rewind s.client)) := by
  have hne : s.client.cwndLogs ≠ [] := by simp [hlogs]
  exact ⟨h.safe.timeout hphase hne, h.track.resend h.safe.client.inStep hphase hlogs⟩

theorem Delivering.rotate (h : Delivering file host i k slot a s) (hsmall : Small file)
    (hphase : s.client.phase = .loopTop) {before after : List Logger} {hit : Logger}
    (hlogs : s.client.cwndLogs = before ++ hit :: after) :
    ∃ s', Reach (Session.step file (inetAddr host)) Action.noCopy s s' ∧
      Delivering file host i k slot a s' ∧ s'.client.phase = .loopTop ∧
      s'.client.cwndLogs = hit :: (after ++ before) := by
  induction before generalizing s after with
  | nil => exact ⟨s, .refl s, h, hphase, by simpa using hlogs⟩
  | cons front before ih =>
      have htimeout := step_timeout host h.safe.client.inStep hphase (by simp [hlogs])
      have hmid := h.timeout hphase hlogs
      have hmidLogs : (afterIteration file s (rewind s.client)).client.cwndLogs =
          before ++ hit :: (after ++ [front]) := by
        have hmoved := afterSend_rewind h.safe.client.inStep hlogs
        simpa [afterIteration] using hmoved
      obtain ⟨_, hnothing, rfl, hnext⟩ := hmid.nothing hsmall rfl
      obtain ⟨s', hreach, hdelivering, hphase', hlogs'⟩ := ih hnext rfl hmidLogs
      refine ⟨s', ?_, hdelivering, hphase', by simpa using hlogs'⟩
      exact ((Reach.single (a := .client (.iterate true)) trivial htimeout).trans hnothing).trans
        hreach

theorem Delivering.exchange (h : Delivering file host i k slot a s) (hsmall : Small file)
    (hphase : s.client.phase = .loopRecv) {pos : Nat} (hcut : Cut file pos)
    (htouch : pos = a ∨ endOf file pos = a) {sent : List Buffer} {ack : UInt32} {flags : UInt16}
    (hflags : flags = ackFlag ∨ flags = 0)
    (hto : s.toServer = sent ++
      [datagram ⟨seqAt pos, ack, UInt16.ofNat (i + 1), flags⟩ (chunk file pos)]) :
    ∃ slot' s', Reach (Session.step file (inetAddr host)) Action.noCopy s s' ∧
      Delivering file host i k slot' (endOf file pos) s' ∧
      s'.client = (endIteration (onAck s.client (seqAt (endOf file pos)))).1 := by
  have hpos : pos = a ∨ seqAt pos ≠ seqAt a ∧ endOf file pos = a := by
    by_cases heq : pos = a
    · exact Or.inl heq
    · have hend := htouch.resolve_left heq
      refine Or.inr ⟨fun hseq => heq ?_, hend⟩
      exact hsmall.seqAt_inj hcut.2 h.safe.holds.boundary.1 hseq
  have hahead : a ≤ endOf file pos := by
    rcases htouch with rfl | hend
    · exact le_endOf file pos
    · exact hend.ge
  obtain ⟨slot', s', hreach, hadopted, hclient, -, -⟩ :=
    h.safe.exchange hphase hcut hpos hflags hto
  refine ⟨slot', s', hreach, ⟨hadopted, ?_⟩, hclient⟩
  have hbound := hadopted.holds.boundary.1
  have htrack : OnTrack file (endOf file pos) 0 s.client :=
    h.track.receive hahead hbound fun hfin => by
      have := h.safe.early (Or.inr hphase)
      omega
  rw [hclient]
  have hheader : ServerHeader file k (endOf file pos) 0
      ⟨0, seqAt (endOf file pos), 0, ackFlag⟩ := .ack le_rfl hcut.boundary_endOf
  exact (htrack.ack hsmall h.safe.client.inStep hphase rfl hbound hheader).receive le_rfl hbound
    (by simp)

/-- What is left of a log after the acknowledgement of its last entry, all of
whose possible matches come before it. -/
theorem acknowledged_suffix {before after rest : List Logger} {hit last : Logger}
    (hsplit : rest ++ [last] = before ++ hit :: after) :
    after.length < (last :: rest).length ∧ (after = [] ∨ last ∈ after) := by
  constructor
  · have hlen := congrArg List.length hsplit
    simp at hlen ⊢
    omega
  · rcases List.eq_nil_or_concat' after with hnil | ⟨init, x, hconcat⟩
    · exact Or.inl hnil
    · right
      rw [hconcat, ← List.cons_append, ← List.append_assoc] at hsplit
      obtain ⟨-, hlast⟩ := List.append_inj' hsplit rfl
      obtain rfl : last = x := by simpa using hlast
      simp [hconcat]

/-- The front of the log touches the server's position: one resend and its answer
take the client out of the loop or shorten its log. -/
theorem Delivering.resend (h : Delivering file host i k slot a s) (hsmall : Small file)
    (hphase : s.client.phase = .loopTop) {front : Logger} {rest : List Logger}
    (hlogs : s.client.cwndLogs = front :: rest) (htouch : Touches file a front) :
    ∃ slot' s', Reach (Session.step file (inetAddr host)) Action.noCopy s s' ∧
      Delivering file host i k slot' (endOf file front.filePos) s' ∧
      (s'.client.phase = .finWait ∨
        s'.client.phase = .loopTop ∧ s'.client.myfile.pos = endOf file front.filePos ∧
          s'.client.cwndLogs.length < s.client.cwndLogs.length ∧
          (s'.client.cwndLogs = [] ∨ front ∈ s'.client.cwndLogs)) := by
  obtain ⟨hcut, hfront⟩ := h.safe.client.inStep.logged front (by simp [hlogs])
  have htimeout := step_timeout host h.safe.client.inStep hphase (by simp [hlogs])
  have hmid := h.timeout hphase hlogs
  have hrewound := h.safe.client.rewind
  have hpos : (rewind s.client).myfile.pos = front.filePos := by rw [rewind_cons hlogs]
  have hto : (afterIteration file s (rewind s.client)).toServer = s.toServer ++
      [datagram ⟨seqAt front.filePos, (rewind s.client).ackNum, UInt16.ofNat (i + 1),
        (rewind s.client).flags⟩ (chunk file front.filePos)] := by
    rw [← hpos, ← hrewound.toUInt16_idNum]
    rfl
  obtain ⟨slot', s', hround, hnext, hclient⟩ :=
    hmid.exchange hsmall rfl hcut htouch hrewound.flags hto
  refine ⟨slot', s', (Reach.single (a := .client (.iterate true)) trivial htimeout).trans hround,
    hnext, ?_⟩
  have hmidLogs : (afterIteration file s (rewind s.client)).client.cwndLogs = rest ++ [front] :=
    afterSend_rewind h.safe.client.inStep hlogs
  have heAck : front.eAck = seqAt (endOf file front.filePos) := by
    rw [hfront]
    rfl
  rcases onAck_cases (afterIteration file s (rewind s.client)).client
      (seqAt (endOf file front.filePos)) with
    ⟨-, hnone⟩ | ⟨before, hit, after, cwnd, cwndSpace, hsplit, -, -, hack⟩
  · exact absurd heAck (hnone front (by simp [hmidLogs]))
  · obtain ⟨hshorter, hlast⟩ := acknowledged_suffix (hmidLogs.symm.trans hsplit)
    rw [hack] at hclient
    unfold endIteration at hclient
    split_ifs at hclient
    · exact Or.inl (by rw [hclient])
    · refine Or.inr ⟨by rw [hclient], ?_, ?_, ?_⟩
      · rw [hclient]
        exact congrArg (endOf file) hpos
      · rw [hclient, hlogs]
        exact hshorter
      · rw [hclient]
        exact hlast

theorem Delivering.canLeave_of_touches (h : Delivering file host i k slot a s)
    (hsmall : Small file) (hphase : s.client.phase = .loopTop)
    (htouches : ∃ log ∈ s.client.cwndLogs, Touches file a log) : CanLeave file host s := by
  induction hleft : s.client.cwndLogs.length using Nat.strongRecOn
    generalizing a s slot with
  | ind left ih =>
      obtain ⟨hit, hmem, htouch⟩ := htouches
      obtain ⟨before, after, hlogs⟩ := List.append_of_mem hmem
      obtain ⟨t, hrotate, ht, htphase, htlogs⟩ := h.rotate hsmall hphase hlogs
      obtain ⟨slot', s', hresend, hnext, hexit | ⟨hphase', hpos, hshorter, hrest⟩⟩ :=
        ht.resend hsmall htphase htlogs htouch
      · exact ⟨s', hrotate.trans hresend, hexit⟩
      · apply CanLeave.of_reach (hrotate.trans hresend)
        rcases hrest with hempty | hfront
        · apply (hnext.lockstep hphase' hempty hpos).canLeave
          unfold Small at hsmall
          omega
        · have hsame : t.client.cwndLogs.length = s.client.cwndLogs.length := by
            rw [htlogs, hlogs]
            simp
            omega
          exact ih _ (by omega) hnext hphase' ⟨hit, hfront, Or.inr rfl⟩ rfl

/-! ## Sending on -/

/-- A client that has read on to the server's position and has segments
outstanding has logged one that touches it. -/
theorem Delivering.touches_of_le (h : Delivering file host i k slot a s)
    (hphase : s.client.phase = .loopTop) (hlogs : s.client.cwndLogs ≠ [])
    (hle : a ≤ s.client.myfile.pos) : ∃ log ∈ s.client.cwndLogs, Touches file a log := by
  have hchain := h.track.chain (Or.inl hphase)
  have hlogged := h.safe.client.inStep.logged
  rcases Nat.lt_or_eq_of_le hle with hlt | heq
  · obtain ⟨span, hmem, hstart, hstop⟩ := hchain.covered a le_rfl hlt
    obtain ⟨log, hlog, rfl⟩ := List.mem_map.mp hmem
    refine ⟨log, hlog, Or.inl (le_antisymm hstart ?_)⟩
    by_contra hnot
    have := (hlogged log hlog).1.endOf_le_of_lt h.safe.holds.boundary (Nat.lt_of_not_le hnot)
    exact absurd hstop (Nat.not_lt.mpr this)
  · obtain ⟨init, log, hconcat⟩ := (List.eq_nil_or_concat' _).resolve_left hlogs
    refine ⟨log, by simp [hconcat], Or.inr ?_⟩
    have hlast := hchain.last
    rw [hconcat, spans_append, spans_cons, spans_nil, lastStop_append] at hlast
    exact hlast.trans heq.symm

theorem Delivering.canLeave_of_window (h : Delivering file host i k slot a s)
    (hsmall : Small file) (hphase : s.client.phase = .loopTop)
    (hwindow : a ≤ s.client.myfile.pos + dataSize * s.client.cwndSpace.toNat) :
    CanLeave file host s := by
  induction hleft : a - s.client.myfile.pos using Nat.strongRecOn generalizing s with
  | ind left ih =>
      by_cases hreached : a ≤ s.client.myfile.pos
      · by_cases hlogs : s.client.cwndLogs = []
        · have hchain := h.track.chain (Or.inl hphase)
          rw [hlogs, spans_nil] at hchain
          apply (h.lockstep hphase hlogs (le_antisymm hchain.offset_le hreached)).canLeave
          unfold Small at hsmall
          omega
        · exact h.canLeave_of_touches hsmall hphase (h.touches_of_le hphase hlogs hreached)
      · have hlt : s.client.myfile.pos < a := Nat.lt_of_not_le hreached
        have hbound := h.safe.holds.boundary.1
        have heof : s.client.myfile.eof = false := by
          by_contra hnot
          have := h.safe.client.inStep.atEnd (by simpa using hnot)
          omega
        have hspace : 0 < s.client.cwndSpace.toNat := by
          by_contra hnot
          have hzero : s.client.cwndSpace.toNat = 0 := by omega
          rw [hzero] at hwindow
          omega
        have hcut := h.safe.client.inStep.cut heof
        have hend := hcut.endOf_le_of_lt h.safe.holds.boundary hlt
        have hiterate := step_iterate host h.safe.client.inStep hphase hspace heof
        have hmid : Delivering file host i k slot a (afterIteration file s s.client) :=
          ⟨h.safe.iterate hphase hspace heof, h.track.afterSend hphase hspace heof⟩
        obtain ⟨_, hnothing, rfl, hnext⟩ := hmid.nothing hsmall rfl
        have hspent := (toNat_sub_one hspace).2
        refine (ih _ ?_ hnext rfl ?_ rfl).of_reach
          ((Reach.single (a := .client (.iterate false)) trivial hiterate).trans hnothing)
        · have := endOf_eq hcut.2
          show a - endOf file s.client.myfile.pos < left
          unfold dataSize at *
          omega
        · show a ≤ endOf file s.client.myfile.pos + dataSize * (s.client.cwndSpace - 1).toNat
          rw [endOf_eq hcut.2, hspent]
          unfold dataSize at *
          omega

theorem Delivering.canLeave (h : Delivering file host i k slot a s) (hsmall : Small file)
    (htransfer : s.client.inTransfer)
    (hreach : (∃ log ∈ s.client.cwndLogs, Touches file a log) ∨
      a ≤ s.client.myfile.pos + dataSize * s.client.cwndSpace.toNat) : CanLeave file host s := by
  rcases htransfer with hphase | hphase
  · rcases hreach with htouches | hwindow
    · exact h.canLeave_of_touches hsmall hphase htouches
    · exact h.canLeave_of_window hsmall hphase hwindow
  · obtain ⟨_, hnothing, rfl, hnext⟩ := h.nothing hsmall hphase
    apply CanLeave.of_reach hnothing
    rcases hreach with htouches | hwindow
    · exact hnext.canLeave_of_touches hsmall rfl htouches
    · exact hnext.canLeave_of_window hsmall rfl hwindow

end Progress

end Cs118.Confundo
