import Cs118.Confundo.Proofs.Delivery
/-!
# Rounds a client and the server can play

Runs are put together from three pieces: the client sends the segment at its
read offset, it resends its oldest segment, and the last segment sent travels to
the server and its answer back.
-/

namespace Cs118.Confundo

open Cs118.Lib.Bytes
open Cs118.Lib.Run

section Rounds

variable {file : Buffer} {host i k a : Nat} {slot : Nat → Connection} {s : Session}

def afterIteration (file : Buffer) (s : Session) (c : Client) : Session :=
  { s with
    client := { afterSend file c with phase := .loopRecv }
    toServer := s.toServer ++ [segmentOf file c] }

variable (host) in
theorem step_iterate (hstep : InStep file s.client) (hphase : s.client.phase = .loopTop)
    (hspace : 0 < s.client.cwndSpace) (heof : s.client.myfile.eof = false) :
    Session.step file (inetAddr host) s (.client (.iterate false)) =
      some (afterIteration file s s.client) := by
  simp [Session.step, ClientEvent.isReceive, Client.step, hphase,
    sendNext_of_credit hstep hspace heof, afterIteration]

variable (host) in
theorem step_timeout (hstep : InStep file s.client) (hphase : s.client.phase = .loopTop)
    (hlogs : s.client.cwndLogs ≠ []) :
    Session.step file (inetAddr host) s (.client (.iterate true)) =
      some (afterIteration file s (rewind s.client)) := by
  simp [Session.step, ClientEvent.isReceive, Client.step, hphase, hlogs,
    sendNext_rewind hstep hlogs, afterIteration]

variable (file host) in
theorem step_nothing (hphase : s.client.phase = .loopRecv) (hlogs : s.client.cwndLogs ≠ []) :
    Session.step file (inetAddr host) s (.client .nothing) =
      some { s with client := { s.client with phase := .loopTop } } := by
  simp [Session.step, ClientEvent.isReceive, Client.step, hphase, endIteration_of_logged hlogs]

variable (file host) in
theorem step_serverReceive {sent : List Buffer} {bytes : Buffer}
    (hto : s.toServer = sent ++ [bytes]) :
    ∃ s', Session.step file (inetAddr host) s (.serverReceive sent.length) = some s' ∧
      s.Answers (inetAddr host) bytes s' ∧ s'.toServer = sent := by
  have hget : s.toServer[sent.length]? = some bytes := by simp [hto]
  have herase : s.toServer.eraseIdx sent.length = sent := by
    rw [hto, List.eraseIdx_append_of_length_le le_rfl]
    simp
  refine ⟨{ s with
      server := (s.server.receive (inetAddr host) bytes).1
      toServer := s.toServer.eraseIdx sent.length
      toClient :=
        s.toClient ++ sendsTo (inetAddr host) (s.server.receive (inetAddr host) bytes).2 },
    ?_, ⟨rfl, rfl, List.eraseIdx_subset, rfl⟩, herase⟩
  simp [Session.step, hget]

variable (file host) in
theorem step_clientReceive {sent : List Buffer} {bytes : Buffer}
    (hfrom : s.toClient = sent ++ [bytes]) (hphase : s.client.phase = .loopRecv)
    (hbytes : bytes ≠ []) :
    Session.step file (inetAddr host) s (.clientReceive sent.length) =
      some
        { s with
          client := (endIteration (onAck s.client (readHeader bytes).ack)).1
          toServer :=
            s.toServer ++ (endIteration (onAck s.client (readHeader bytes).ack)).2
          toClient := sent } := by
  have hget : s.toClient[sent.length]? = some bytes := by simp [hfrom]
  have herase : s.toClient.eraseIdx sent.length = sent := by
    rw [hfrom, List.eraseIdx_append_of_length_le le_rfl]
    simp
  simp [Session.step, hget, Client.step, hphase, hbytes, herase]

/-- The last datagram to the server is the segment at `pos`, which ends where
the server will then be.  It is delivered, and so is the answer. -/
theorem Adopted.exchange (h : Adopted file host i k slot a s)
    (hphase : s.client.phase = .loopRecv) {pos : Nat} (hcut : Cut file pos)
    (hpos : pos = a ∨ seqAt pos ≠ seqAt a ∧ endOf file pos = a) {sent : List Buffer}
    {ack : UInt32} {flags : UInt16} (hflags : flags = ackFlag ∨ flags = 0)
    (hto : s.toServer = sent ++
      [datagram ⟨seqAt pos, ack, UInt16.ofNat (i + 1), flags⟩ (chunk file pos)]) :
    ∃ slot' s', Reach (Session.step file (inetAddr host)) Action.noCopy s s' ∧
      Adopted file host i k slot' (endOf file pos) s' ∧
      s'.client = (endIteration (onAck s.client (seqAt (endOf file pos)))).1 ∧
      s'.toServer =
        sent ++ (endIteration (onAck s.client (seqAt (endOf file pos)))).2 ∧
      s'.toClient = s.toClient := by
  obtain ⟨mid, hstep, hanswers, hsent⟩ := step_serverReceive file host hto
  have hopen := h.early (Or.inr hphase)
  have hmid : ∃ c seq payload,
      Adopted file host i k (Function.update slot i c) (endOf file pos) mid ∧
        mid.toClient = s.toClient ++
          [datagram ⟨seq, seqAt (endOf file pos), UInt16.ofNat (i + 1), ackFlag⟩ payload] := by
    rcases hpos with rfl | ⟨hne, hend⟩
    · exact h.receive_next hopen hcut hflags hanswers
    · rw [hend]
      exact h.receive_other hopen hflags hne hanswers
  obtain ⟨c, seq, payload, hadopted, hfrom⟩ := hmid
  have hmidPhase : mid.client.phase = .loopRecv := by rw [hanswers.client, hphase]
  have hreceive := step_clientReceive file host hfrom hmidPhase
    (datagram_ne_nil _ _)
  rw [readHeader_datagram, hanswers.client, hsent] at hreceive
  have hfirst : Reach (Session.step file (inetAddr host)) Action.noCopy s mid :=
    .single (a := .serverReceive _) trivial hstep
  refine ⟨Function.update slot i c, _, hfirst.tail (a := .clientReceive _) trivial hreceive, ?_,
    rfl, rfl, rfl⟩
  have hclient : mid.client.step file (.receive (datagram
      ⟨seq, seqAt (endOf file pos), UInt16.ofNat (i + 1), ackFlag⟩ payload)) =
        some (endIteration (onAck mid.client (seqAt (endOf file pos)))) := by
    simp [Client.step, hmidPhase, datagram_ne_nil]
  refine hadopted.client_step ?_ hclient ?_ rfl ?_ ?_
  · rintro bytes ⟨⟩
    simp [hfrom]
  · rw [hanswers.client]
  · simp [hsent, hanswers.client]
  · simp [hfrom]

theorem Adopted.iterate (h : Adopted file host i k slot a s)
    (hphase : s.client.phase = .loopTop) (hspace : 0 < s.client.cwndSpace)
    (heof : s.client.myfile.eof = false) :
    Adopted file host i k slot a (afterIteration file s s.client) := by
  have hclient : s.client.step file (.iterate false) =
      some ({ afterSend file s.client with phase := .loopRecv }, [segmentOf file s.client]) := by
    simp [Client.step, hphase, sendNext_of_credit h.client.inStep hspace heof]
  exact h.client_step (by simp) hclient rfl rfl rfl (List.Subset.refl _)

theorem Adopted.timeout (h : Adopted file host i k slot a s)
    (hphase : s.client.phase = .loopTop) (hlogs : s.client.cwndLogs ≠ []) :
    Adopted file host i k slot a (afterIteration file s (rewind s.client)) := by
  have hclient : s.client.step file (.iterate true) =
      some ({ afterSend file (rewind s.client) with phase := .loopRecv },
        [segmentOf file (rewind s.client)]) := by
    simp [Client.step, hphase, hlogs, sendNext_rewind h.client.inStep hlogs]
  exact h.client_step (by simp) hclient rfl rfl rfl (List.Subset.refl _)

theorem Adopted.nothing (h : Adopted file host i k slot a s)
    (hphase : s.client.phase = .loopRecv) (hlogs : s.client.cwndLogs ≠ []) :
    Adopted file host i k slot a { s with client := { s.client with phase := .loopTop } } := by
  have hclient : s.client.step file .nothing = some ({ s.client with phase := .loopTop }, []) := by
    simp [Client.step, hphase, endIteration_of_logged hlogs]
  exact h.client_step (by simp) hclient rfl rfl (List.append_nil _).symm (List.Subset.refl _)

theorem Adopted.segmentOf_eq (h : Adopted file host i k slot a s) :
    segmentOf file s.client =
      datagram ⟨seqAt s.client.myfile.pos, s.client.ackNum, UInt16.ofNat (i + 1),
        s.client.flags⟩ (chunk file s.client.myfile.pos) := by
  rw [segmentOf, h.client.toUInt16_idNum]

/-! ## Stop and wait -/

/-- The client has nothing outstanding, the server has what was read so far, and
the next iteration sends. -/
structure Lockstep (file : Buffer) (host i k : Nat) (slot : Nat → Connection) (a : Nat)
    (s : Session) : Prop where
  safe : Adopted file host i k slot a s
  phase : s.client.phase = .loopTop
  logs : s.client.cwndLogs = []
  pos : s.client.myfile.pos = a
  more : s.client.myfile.eof = false
  credit : 0 < s.client.cwndSpace
  window : s.client.cwndSpace.toNat ≤ 2 + a / dataSize

theorem onAck_afterSend (file : Buffer) (c : Client) (hlogs : c.cwndLogs = []) :
    ∃ cwnd cwndSpace,
      onAck { afterSend file c with phase := .loopRecv } (seqAt (endOf file c.myfile.pos)) =
        { afterSend file c with phase := .loopRecv, cwndLogs := [], cwnd, cwndSpace } ∧
      (cwndSpace = c.cwndSpace - 1 + 1 ∨ cwndSpace = c.cwndSpace - 1 + 2) := by
  have herase : eraseThrough (seqAt (endOf file c.myfile.pos)) [entry file c.myfile.pos] =
      some [] := by simp [eraseThrough, entry]
  obtain ⟨cwnd, cwndSpace, hgrow, hspace⟩ := growWindow_eq
    { afterSend file c with phase := .loopRecv, cwndLogs := [] }
  refine ⟨cwnd, cwndSpace, ?_, hspace⟩
  unfold onAck
  simp only [afterSend, hlogs, List.nil_append, herase]
  exact hgrow

/-- The segment just sent and its answer travel: the client has read on to where
the server is, or has left the loop. -/
theorem Lockstep.exchange (h : Lockstep file host i k slot a s)
    (haccepted : file.length ≤ 100 * 1024 * 1024) {mid : Session}
    (hmid : Adopted file host i k slot a mid)
    (hclient : mid.client = { afterSend file s.client with phase := .loopRecv })
    {sent : List Buffer} (hto : mid.toServer = sent ++ [segmentOf file s.client]) :
    ∃ slot' s', Reach (Session.step file (inetAddr host)) Action.noCopy mid s' ∧
      (s'.client.phase = .finWait ∧ endOf file a = file.length ∨
        Lockstep file host i k slot' (endOf file a) s' ∧ a + dataSize ≤ file.length ∧
          s'.toServer = sent) := by
  have hcut : Cut file a := h.pos ▸ h.safe.client.inStep.cut h.more
  rw [h.safe.segmentOf_eq, h.pos] at hto
  obtain ⟨slot', s', hreach, hadopted, hnext, hsent, -⟩ := hmid.exchange (by rw [hclient]) hcut
    (Or.inl rfl) h.safe.client.flags hto
  refine ⟨slot', s', hreach, ?_⟩
  obtain ⟨cwnd, cwndSpace, hack, hspace⟩ := onAck_afterSend file s.client h.logs
  rw [hclient, ← h.pos, hack] at hnext hsent
  have hlen := length_chunk file a
  by_cases hshort : (chunk file a).length < dataSize
  · left
    have hexit : endIteration
        { afterSend file s.client with phase := .loopRecv, cwndLogs := [], cwnd, cwndSpace } =
        (_, _) := if_pos ⟨by simp [InFile.tellg, afterSend, h.pos, hshort], rfl⟩
    rw [hexit] at hnext
    refine ⟨by rw [hnext], ?_⟩
    have := hcut.2
    unfold endOf
    omega
  · right
    have hstay : endIteration
        { afterSend file s.client with phase := .loopRecv, cwndLogs := [], cwnd, cwndSpace } =
        (_, _) := if_neg (by simp [InFile.tellg, afterSend, h.pos, hshort])
    rw [hstay] at hnext hsent
    have hfull : a + dataSize ≤ file.length := by
      unfold dataSize at *
      omega
    have hcredit : 0 < cwndSpace.toNat ∧ cwndSpace.toNat ≤ 2 + endOf file a / dataSize := by
      obtain ⟨hpos, hspent⟩ := toNat_sub_one h.credit
      have hwindow := h.window
      have hle := hcut.2
      unfold endOf dataSize at *
      rcases hspace with rfl | rfl
      · rw [toNat_add_one (by omega)]
        omega
      · rw [toNat_add_two (by omega)]
        omega
    refine ⟨⟨hadopted, ?_, ?_, ?_, ?_, ?_, ?_⟩, hfull, by simpa using hsent⟩
    · rw [hnext]
    · rw [hnext]
    · rw [hnext, ← h.pos]
      rfl
    · rw [hnext]
      simp [afterSend, h.pos, hshort]
    · rw [hnext]
      exact hcredit.1
    · rw [hnext]
      exact hcredit.2

theorem not_fileTooLarge (haccepted : file.length ≤ 100 * 1024 * 1024) :
    fileTooLarge file = false := by
  unfold fileTooLarge maxFileSize
  rw [Int32.toInt_ofNat_of_lt (by omega)]
  simp
  omega

theorem lockstep_start (host : Nat) (haccepted : fileTooLarge file = false) :
    ∃ slot s, Reach (Session.step file (inetAddr host)) Action.noCopy Session.start s ∧
      Lockstep file host 0 1 slot 0 s ∧ s.client = Client.greeted 1 := by
  let slot : Nat → Connection := fun _ => Connection.unused
  let greeting : Session :=
    { Session.start with
      client := { Client.start with phase := .synWait }
      toServer := [datagram ⟨12345, 0, 0, synFlag⟩ noData] }
  have hsend : Session.step file (inetAddr host) Session.start (.client .sendSyn) =
      some greeting := rfl
  have hgreeting : greeting.toServer = [] ++ [datagram ⟨12345, 0, 0, synFlag⟩ noData] := rfl
  obtain ⟨mid, hreceive, hanswers, hsent⟩ := step_serverReceive file host hgreeting
  -- the server opens its first connection
  have hserves : Serves (inetAddr host) 0 slot greeting.server := (greeting_start host slot).serves
  obtain ⟨-, hopened, hsends⟩ := (hserves.receive_syn (by rintro _ rfl; rfl) host rfl).resolve_right
    fun h => h.1 (by decide)
  have hfrom : mid.toClient = [] ++ [datagram ⟨4321, 12346, UInt16.ofNat (0 + 1), synAckFlag⟩
      (padded ⟨12345, 0, 0, synFlag⟩ noData).data] := by
    rw [hanswers.toClient, hsends]
    exact congrArg _ (sendsTo_cons_self _ _ _)
  -- and the client adopts it
  have hreply : Session.step file (inetAddr host) mid (.clientReceive 0) =
      some { mid with client := Client.greeted 1, toServer := [], toClient := [] } := by
    have hclient : mid.client = { Client.start with phase := .synWait } := hanswers.client
    have hadopt := onSynReply_synAck file (UInt16.ofNat (0 + 1))
    rw [haccepted] at hadopt
    simp only [Session.step, hfrom, hclient, Client.step, List.nil_append,
      List.getElem?_cons_zero, Option.bind_some, Option.map_some, readHeader_datagram, hadopt, hsent]
    rfl
  have hreach : Reach (Session.step file (inetAddr host)) Action.noCopy Session.start _ :=
    ((Reach.single (a := .client .sendSyn) trivial hsend).tail
      (a := .serverReceive 0) trivial hreceive).tail (a := .clientReceive 0) trivial hreply
  refine ⟨Function.update slot 0 (opened (inetAddr host) 0), _, hreach, ⟨?_, rfl, rfl, rfl, rfl,
    (by decide : (0 : UInt32) < 2), (by decide : (2 : UInt32).toNat ≤ 2 + 0 / dataSize)⟩, rfl⟩
  have hself : Function.update slot 0 (opened (inetAddr host) 0) 0 = opened (inetAddr host) 0 :=
    Function.update_self ..
  exact
    { serves := hanswers.server ▸ hopened
      adopted := by decide
      fresh := fun j hj hne => absurd hj (by omega)
      holds := by
        rw [hself]
        exact holds_opened file (inetAddr host) 0
      client := sending_greeted file (by decide)
      early := fun _ => by
        rw [hself]
        rfl
      toServer := by simp
      toClient := by simp }

end Rounds

end Cs118.Confundo
