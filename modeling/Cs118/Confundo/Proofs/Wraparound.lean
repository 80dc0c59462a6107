import Cs118.Confundo.Proofs.Rounds
/-!
# Files whose sequence numbers wrap

A length that exceeds the offset of a segment by a positive multiple of 102401
makes the server, when it has the whole file, wait for the number of that
segment.  A copy of the segment that the network kept until then is appended.
-/

namespace Cs118.Confundo

open Cs118.Lib.Bytes
open Cs118.Lib.Run

section Wraparound

variable {file : Buffer} {host i k a : Nat} {slot : Nat → Connection} {s s' : Session}

def InFlight (file : Buffer) (i pos : Nat) (s : Session) : Prop :=
  ∃ ack flags, (flags = ackFlag ∨ flags = 0) ∧
    datagram ⟨seqAt pos, ack, UInt16.ofNat (i + 1), flags⟩ (chunk file pos) ∈ s.toServer

/-- The network has kept a copy of every segment up to `a`. -/
def Hoarded (file : Buffer) (i a : Nat) (s : Session) : Prop :=
  ∀ pos, Cut file pos → pos < a → InFlight file i pos s

theorem Hoarded.grow (h : Hoarded file i a s) (hkeep : s.toServer ⊆ s'.toServer)
    (hcut : Cut file a) (hnew : InFlight file i a s') :
    Hoarded file i (endOf file a) s' := by
  intro pos hpos hlt
  rcases Nat.lt_trichotomy pos a with hold | rfl | hbeyond
  · obtain ⟨ack, flags, hflags, hmem⟩ := h pos hpos hold
    exact ⟨ack, flags, hflags, hkeep hmem⟩
  · exact hnew
  · have := hcut.endOf_le_of_lt hpos.boundary hbeyond
    omega

theorem Lockstep.send (h : Lockstep file host i k slot a s) :
    ∃ mid sent, Reach (Session.step file (inetAddr host)) (fun _ => True) s mid ∧
      Adopted file host i k slot a mid ∧
      mid.client = { afterSend file s.client with phase := .loopRecv } ∧
      mid.toServer = sent ++ [segmentOf file s.client] ∧ s.toServer ⊆ sent ∧
      segmentOf file s.client ∈ sent := by
  have hiterate := step_iterate host h.safe.client.inStep h.phase h.credit h.more
  have hadopted := h.safe.iterate h.phase h.credit h.more
  let first := afterIteration file s s.client
  let mid : Session := { first with toServer := first.toServer ++ [segmentOf file s.client] }
  have hcopy : Session.step file (inetAddr host) first (.copyToServer s.toServer.length) =
      some mid := by
    simp [Session.step, first, mid, afterIteration]
  refine ⟨mid, first.toServer, (Reach.single trivial hiterate).tail trivial hcopy, ?_, rfl, rfl,
    List.subset_append_left _ _, by simp [first, afterIteration]⟩
  refine hadopted.network_step rfl rfl ?_ (List.Subset.refl _)
  exact List.append_subset.mpr ⟨List.Subset.refl _,
    List.cons_subset.mpr ⟨by simp [afterIteration], List.nil_subset _⟩⟩

/-- Stop and wait to the end of the file, with a copy of every segment kept. -/
theorem Lockstep.hoard (haccepted : file.length ≤ 100 * 1024 * 1024)
    (hlock : Lockstep file host i k slot a s) (hkept : Hoarded file i a s) :
    ∃ slot' s', Reach (Session.step file (inetAddr host)) (fun _ => True) s s' ∧
      Adopted file host i k slot' file.length s' ∧ s'.client.inTransfer ∧
      Hoarded file i file.length s' := by
  have hle : a ≤ file.length := hlock.safe.holds.boundary.1
  induction hleft : file.length - a using Nat.strongRecOn generalizing a s slot with
  | ind left ih =>
      by_cases hdone : a = file.length
      · subst hdone
        exact ⟨slot, s, .refl s, hlock.safe, Or.inl hlock.phase, hkept⟩
      · have hcut : Cut file a := hlock.pos ▸ hlock.safe.client.inStep.cut hlock.more
        obtain ⟨mid, sent, hsend, hadopted, hclient, hto, hkeep, hcopy⟩ := hlock.send
        have hsegment := hlock.safe.segmentOf_eq
        rw [hlock.pos] at hsegment
        have hflags := hlock.safe.client.flags
        have hgrow : ∀ {t : Session}, t.toServer = sent → Hoarded file i (endOf file a) t := by
          intro t ht
          refine hkept.grow (by rwa [ht]) hcut ⟨s.client.ackNum, _, hflags, ?_⟩
          rwa [ht, ← hsegment]
        by_cases hend : endOf file a = file.length
        · obtain ⟨last, hreceive, hanswers, hsent⟩ :=
            step_serverReceive file host hto
          rw [hsegment] at hanswers
          have htransfer : mid.client.inTransfer := Or.inr (by rw [hclient])
          obtain ⟨c, _, _, hnext, -⟩ :=
            hadopted.receive_next (hadopted.early htransfer) hcut hflags hanswers
          refine ⟨Function.update slot i c, last, hsend.tail trivial hreceive, hend ▸ hnext, ?_,
            hend ▸ hgrow hsent⟩
          rw [hanswers.client]
          exact htransfer
        · obtain ⟨slot', next, hround, hexit | ⟨hnext, hfull, hsent⟩⟩ :=
            hlock.exchange haccepted hadopted hclient hto
          · exact absurd hexit.2 hend
          · have hmore : a < endOf file a := by
              rw [endOf_eq hle]
              unfold dataSize at *
              omega
            obtain ⟨slot'', s'', hrest, hresult⟩ := ih _ (by omega) hnext (hgrow hsent)
              hnext.safe.holds.boundary.1 rfl
            exact ⟨slot'', s'',
              (hsend.trans (hround.weaken fun _ _ => trivial)).trans hrest, hresult⟩

theorem Adopted.receive_expected (h : Adopted file host i k slot a s)
    (hopen : (slot i).isFin = 0) {pos : Nat} {ack : UInt32} {flags : UInt16}
    (hflags : flags = ackFlag ∨ flags = 0) (hseq : seqAt pos = seqAt a)
    (hs : s.Answers (inetAddr host)
      (datagram ⟨seqAt pos, ack, UInt16.ofNat (i + 1), flags⟩ (chunk file pos)) s') :
    ∃ c, s'.connection = some c ∧ c.myfile.contents = file.take a ++ chunk file pos := by
  obtain ⟨hexpect, hfile⟩ := h.holds.expects hopen
  obtain ⟨seq, hbranch⟩ := dataBranch_of_eq (chunk file pos)
    (h := ⟨seqAt pos, ack, UInt16.ofNat (i + 1), flags⟩) hopen hfile (hseq.trans hexpect.symm)
  obtain ⟨htable, -⟩ :=
    h.serves.receive_data (inetAddr host) h.adopted (length_chunk_le file pos) rfl hflags hbranch
  have hserves := h.serves.update ((congrArg Server.allConnection hs.server).trans htable)
    h.holds.id h.holds.source
  have hconnection := hserves.connection h.adopted (hs.client ▸ h.client.idNum)
  rw [Function.update_self] at hconnection
  exact ⟨_, hconnection, congrArg (· ++ chunk file pos) h.holds.contents⟩

/-- Every length that wraps onto a segment has a run that breaks the file. -/
theorem broken_of_wraps (host : Nat) (haccepted : file.length ≤ 100 * 1024 * 1024)
    (hwraps : Wraps file.length) :
    ∃ s, Session.Reachable file (inetAddr host) s ∧
      ∃ c, s.connection = some c ∧ ¬ c.myfile.contents <+: file := by
  obtain ⟨turns, index, hturns, hlength⟩ := hwraps
  obtain ⟨slot, s, hstart, hlock, -⟩ := lockstep_start host (not_fileTooLarge haccepted)
  obtain ⟨slot', s', hhoard, hadopted, htransfer, hkept⟩ :=
    hlock.hoard haccepted (fun pos _ hpos => absurd hpos (Nat.not_lt_zero pos))
  -- the kept segment whose number the server now waits for
  have hlt : dataSize * index < file.length := by
    rw [hlength]
    have : 0 < seqModulus * turns := Nat.mul_pos (by decide) hturns
    omega
  have hcut : Cut file (dataSize * index) := ⟨Nat.mul_mod_right _ _, hlt.le⟩
  have hseq : seqAt (dataSize * index) = seqAt file.length := by
    rw [seqAt_eq_iff, hlength]
    exact (Nat.modEq_iff_dvd' (Nat.le_add_left _ _)).mpr ⟨turns, by omega⟩
  obtain ⟨ack, flags, hflags, hmem⟩ := hkept _ hcut hlt
  obtain ⟨before, after, hsplit⟩ := List.append_of_mem hmem
  have hget : s'.toServer[before.length]? = some
      (datagram ⟨seqAt (dataSize * index), ack, UInt16.ofNat (0 + 1), flags⟩
        (chunk file (dataSize * index))) := by simp [hsplit]
  let last : Session :=
    { s' with
      server := (s'.server.receive (inetAddr host)
        (datagram ⟨seqAt (dataSize * index), ack, UInt16.ofNat (0 + 1), flags⟩
          (chunk file (dataSize * index)))).1
      toServer := s'.toServer.eraseIdx before.length
      toClient := s'.toClient ++ sendsTo (inetAddr host) (s'.server.receive (inetAddr host)
        (datagram ⟨seqAt (dataSize * index), ack, UInt16.ofNat (0 + 1), flags⟩
          (chunk file (dataSize * index)))).2 }
  have hstep : Session.step file (inetAddr host) s' (.serverReceive before.length) =
      some last := by
    simp only [Session.step, hget, Option.map_some, last]
  have hanswers : s'.Answers (inetAddr host)
      (datagram ⟨seqAt (dataSize * index), ack, UInt16.ofNat (0 + 1), flags⟩
        (chunk file (dataSize * index))) last := ⟨rfl, rfl, List.eraseIdx_subset, rfl⟩
  obtain ⟨c, hc, hcontents⟩ :=
    hadopted.receive_expected (hadopted.early htransfer) hflags hseq hanswers
  refine ⟨last, ((hstart.weaken fun _ _ => trivial).trans hhoard).tail trivial hstep, c, hc, ?_⟩
  intro hprefix
  have hlong := hprefix.length_le
  rw [hcontents, List.take_length, List.length_append, length_chunk] at hlong
  unfold dataSize at *
  omega

/-- The file the server writes is a prefix of the client's in every run exactly
when the length is not of the form `102401 * k + 512 * i` with `0 < k`. -/
theorem prefix_iff_not_wraps (file : Buffer) (host : Nat)
    (haccepted : file.length ≤ 100 * 1024 * 1024) :
    (∀ s, Session.Reachable file (inetAddr host) s →
        ∀ c, s.connection = some c → c.myfile.contents <+: file) ↔
      ∀ turns index, 0 < turns → file.length ≠ 102401 * turns + 512 * index := by
  constructor
  · intro hsafe turns index hturns hlength
    obtain ⟨s, hreach, c, hc, hbroken⟩ :=
      broken_of_wraps host haccepted ⟨turns, index, hturns, hlength⟩
    exact hbroken (hsafe s hreach c hc)
  · intro hlength s hreach c hc
    apply prefix_of_unambiguous (unambiguous_of_not_wraps _) hreach hc
    rintro ⟨turns, index, hturns, heq⟩
    exact hlength turns index hturns heq

/-- 130000 bytes wrap once but onto no segment: 130000 - 102401 is not a
multiple of 512. -/
theorem prefix_of_130000_bytes :
    ¬ ∃ s, Session.Reachable (List.replicate 130000 7) (inetAddr 0) s ∧
      ∃ c, s.connection = some c ∧ ¬ c.myfile.contents <+: List.replicate 130000 7 := by
  rintro ⟨s, hreach, c, hc, hbroken⟩
  apply hbroken
  refine (prefix_iff_not_wraps (List.replicate 130000 7) 0 ?_).mpr ?_ s hreach c hc
  · rw [List.length_replicate]
    decide
  · intro turns index hturns
    rw [List.length_replicate]
    omega

/-- 102401 bytes: the server is back at the number of the first segment. -/
theorem broken_102401_bytes :
    ∃ s, Session.Reachable (List.replicate 102401 7) (inetAddr 0) s ∧
      ∃ c, s.connection = some c ∧ ¬ c.myfile.contents <+: List.replicate 102401 7 := by
  apply broken_of_wraps
  · rw [List.length_replicate]
    decide
  · refine ⟨1, 0, by decide, ?_⟩
    rw [List.length_replicate]
    decide

end Wraparound

end Cs118.Confundo
