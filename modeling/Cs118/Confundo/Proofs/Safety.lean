import Cs118.Confundo.Proofs.Receiver
import Cs118.Confundo.Proofs.Sender
/-!
# What the server writes is a prefix of the file

The joint invariant of a session: before the client has adopted a connection
every connection is fresh; afterwards the adopted one holds a prefix of the file
and every segment in flight is a segment of the file.  Only the server's
equality test on sequence numbers needs them to be unambiguous.
-/

namespace Cs118.Confundo

open Cs118.Lib.Bytes
open Cs118.Lib.Run

/-! ## The client after the handshake -/

inductive Client.Moves (file : Buffer) (c : Client) : ClientEvent → Client × List Buffer → Prop
  | iterate {timeout : Bool} (hphase : c.phase = .loopTop)
      (henabled : timeout = true → c.cwndLogs ≠ []) :
      Moves file c (.iterate timeout)
        ({ (sendNext file (if timeout then rewind c else c)).1 with phase := .loopRecv },
          (sendNext file (if timeout then rewind c else c)).2)
  | ack {bytes : Buffer} (hphase : c.phase = .loopRecv) :
      Moves file c (.receive bytes) (endIteration (onAck c (readHeader bytes).ack))
  | nothing (hphase : c.phase = .loopRecv) : Moves file c .nothing (endIteration c)
  | giveUp (hphase : c.phase = .loopRecv ∨ c.phase = .finWait) :
      Moves file c .giveUp ({ c with phase := .failed }, [])
  | resendFin (hphase : c.phase = .finWait) : Moves file c .resendFin (c, [finPacket c])
  | finReply {bytes : Buffer} (hphase : c.phase = .finWait) :
      Moves file c (.receive bytes) (onFinReply c (readHeader bytes))
  | timeWait {bytes : Buffer} (hphase : c.phase = .timeWait) :
      Moves file c (.receive bytes) (onTimeWait c (readHeader bytes))
  | timeUp (hphase : c.phase = .timeWait) : Moves file c .timeUp ({ c with phase := .closed }, [])

theorem Client.moves_of_step {file : Buffer} {c : Client} {event : ClientEvent}
    {next : Client × List Buffer} (hgreeted : c.phase ≠ .synSend ∧ c.phase ≠ .synWait)
    (hstep : c.step file event = some next) : c.Moves file event next := by
  obtain ⟨hsend, hwait⟩ := hgreeted
  cases hphase : c.phase with
  | synSend => exact absurd hphase hsend
  | synWait => exact absurd hphase hwait
  | loopTop =>
      cases event <;> simp only [Client.step, hphase, reduceCtorEq] at hstep
      rename_i timeout
      by_cases hidle : timeout = true ∧ c.cwndLogs = []
      · rw [if_pos hidle] at hstep
        exact absurd hstep (by simp)
      · rw [if_neg hidle] at hstep
        obtain rfl := Option.some.inj hstep
        exact .iterate hphase fun htimeout hlogs => hidle ⟨htimeout, hlogs⟩
  | loopRecv =>
      cases event <;> simp only [Client.step, hphase, reduceCtorEq] at hstep
      · obtain rfl := Option.some.inj hstep
        exact .giveUp (Or.inl hphase)
      · split_ifs at hstep
        obtain rfl := Option.some.inj hstep
        exact .ack hphase
      · obtain rfl := Option.some.inj hstep
        exact .nothing hphase
  | finWait =>
      cases event <;> simp only [Client.step, hphase, reduceCtorEq] at hstep
      · obtain rfl := Option.some.inj hstep
        exact .giveUp (Or.inr hphase)
      · split_ifs at hstep
        obtain rfl := Option.some.inj hstep
        exact .finReply hphase
      · obtain rfl := Option.some.inj hstep
        exact .resendFin hphase
  | timeWait =>
      cases event <;> simp only [Client.step, hphase, reduceCtorEq] at hstep
      · split_ifs at hstep
        obtain rfl := Option.some.inj hstep
        exact .timeWait hphase
      · obtain rfl := Option.some.inj hstep
        exact .timeUp hphase
  | closed => cases event <;> simp only [Client.step, hphase, reduceCtorEq] at hstep
  | failed => cases event <;> simp only [Client.step, hphase, reduceCtorEq] at hstep

inductive Client.Greets (file : Buffer) (c : Client) : ClientEvent → Client × List Buffer → Prop
  | sendSyn (hphase : c.phase = .synSend) :
      Greets file c .sendSyn ({ c with phase := .synWait }, [synPacket c])
  | giveUp (hphase : c.phase = .synSend) : Greets file c .giveUp ({ c with phase := .failed }, [])
  | synTimeout (hphase : c.phase = .synWait) :
      Greets file c .synTimeout ({ c with phase := .synSend }, [])
  | reply {bytes : Buffer} (hphase : c.phase = .synWait) :
      Greets file c (.receive bytes) (onSynReply file c (readHeader bytes), [])

theorem Client.greets_of_step {file : Buffer} {c : Client} {event : ClientEvent}
    {next : Client × List Buffer} (hgreeting : c.phase = .synSend ∨ c.phase = .synWait)
    (hstep : c.step file event = some next) : c.Greets file event next := by
  rcases hgreeting with hphase | hphase
  · cases event <;> simp only [Client.step, hphase, reduceCtorEq] at hstep
    · obtain rfl := Option.some.inj hstep
      exact .sendSyn hphase
    · obtain rfl := Option.some.inj hstep
      exact .giveUp hphase
  · cases event <;> simp only [Client.step, hphase, reduceCtorEq] at hstep
    · obtain rfl := Option.some.inj hstep
      exact .synTimeout hphase
    · obtain rfl := Option.some.inj hstep
      exact .reply hphase

structure Sending (file : Buffer) (i : Nat) (c : Client) : Prop where
  inStep : InStep file c
  idNum : c.idNum = UInt32.ofNat (i + 1)
  flags : c.flags = ackFlag ∨ c.flags = 0
  greeted : c.phase ≠ .synSend ∧ c.phase ≠ .synWait

theorem Sending.toUInt16_idNum {file : Buffer} {i : Nat} {c : Client} (h : Sending file i c) :
    c.idNum.toUInt16 = UInt16.ofNat (i + 1) := by
  rw [h.idNum]
  simp

theorem Sending.of_fields {file : Buffer} {i : Nat} {c c' : Client} (h : Sending file i c)
    (hfile : c'.myfile = c.myfile) (hseq : c'.seqNum = c.seqNum)
    (hlogs : c'.cwndLogs = c.cwndLogs) (hid : c'.idNum = c.idNum) (hflags : c'.flags = c.flags)
    (hphase : c'.phase ≠ .synSend ∧ c'.phase ≠ .synWait) : Sending file i c' where
  inStep := h.inStep.of_fields hfile hseq hlogs
  idNum := hid.trans h.idNum
  flags := hflags ▸ h.flags
  greeted := hphase

theorem Sending.rewind {file : Buffer} {i : Nat} {c : Client} (h : Sending file i c) :
    Sending file i (rewind c) := by
  have hstep := h.inStep.rewind
  cases hlogs : c.cwndLogs with
  | nil =>
      unfold Confundo.rewind
      rw [hlogs]
      exact h
  | cons front rest =>
      rw [rewind_cons hlogs] at hstep ⊢
      exact ⟨hstep, h.idNum, h.flags, h.greeted⟩

theorem Sending.onAck {file : Buffer} {i : Nat} {c : Client} (h : Sending file i c)
    (ack : UInt32) : Sending file i (onAck c ack) := by
  have hstep := h.inStep.onAck ack
  rcases onAck_cases c ack with ⟨hsame, -⟩ | ⟨_, _, _, _, _, -, -, -, hack⟩
  · rwa [hsame]
  · rw [hack] at hstep ⊢
    exact ⟨hstep, h.idNum, h.flags, h.greeted⟩

theorem Sending.sendNext {file : Buffer} {i : Nat} {c : Client} (h : Sending file i c)
    (late : Prop) (fin : Nat) :
    Sending file i { (sendNext file c).1 with phase := .loopRecv } ∧
      ∀ bytes ∈ (sendNext file c).2, ClientDatagram file i late fin bytes := by
  by_cases hcredit : 0 < c.cwndSpace ∧ c.myfile.eof = false
  · rw [sendNext_of_credit h.inStep hcredit.1 hcredit.2]
    constructor
    · have hstep := h.inStep.afterSend hcredit.2
      exact ⟨hstep.of_fields rfl rfl rfl, h.idNum, Or.inr rfl, by simp⟩
    · intro bytes hbytes
      obtain rfl : bytes = segmentOf file c := by simpa using hbytes
      rw [segmentOf, h.toUInt16_idNum]
      exact .segment (h.inStep.cut hcredit.2) h.flags
  · rw [sendNext_of_no_credit hcredit]
    exact ⟨h.of_fields rfl rfl rfl rfl rfl (by simp), by simp⟩

theorem Sending.finPacket {file : Buffer} {i : Nat} {c : Client} (h : Sending file i c)
    {late : Prop} (hlate : late) (fin : Nat) :
    ClientDatagram file i late fin (finPacket c) := by
  rw [Confundo.finPacket, h.toUInt16_idNum]
  exact .finish hlate

theorem Sending.endIteration {file : Buffer} {i : Nat} {c : Client} (h : Sending file i c)
    (fin : Nat) :
    Sending file i (endIteration c).1 ∧
      ∀ bytes ∈ (endIteration c).2,
        ClientDatagram file i (¬ (endIteration c).1.inTransfer) fin bytes := by
  unfold Confundo.endIteration
  split_ifs
  · have hnext : Sending file i { c with phase := .finWait, ackNum := 0 } :=
      h.of_fields rfl rfl rfl rfl rfl (by simp)
    refine ⟨hnext, fun bytes hbytes => ?_⟩
    obtain rfl := List.mem_singleton.mp hbytes
    exact hnext.finPacket (by simp [Client.inTransfer]) fin
  · exact ⟨h.of_fields rfl rfl rfl rfl rfl (by simp), by simp⟩

/-- Whatever a client in or after the transfer does, it keeps its connection, its
datagrams describe the file, and a `FIN` comes only after the transfer. -/
theorem Sending.step {file : Buffer} {i k a fin : Nat} {c : Client} (h : Sending file i c)
    {event : ClientEvent} {next : Client × List Buffer}
    (hevent : ∀ bytes, event = .receive bytes → Carries (ServerHeader file k a fin) bytes)
    (hstep : c.step file event = some next) :
    Sending file i next.1 ∧ (¬ c.inTransfer → ¬ next.1.inTransfer) ∧
      ∀ bytes ∈ next.2, ClientDatagram file i (¬ next.1.inTransfer) fin bytes := by
  have hlast : ∀ seq bytes, fin = 1 → bytes ∈ [Confundo.lastAck c seq] →
      ∀ late, ClientDatagram file i late fin bytes := by
    intro seq bytes hfin hbytes late
    obtain rfl := List.mem_singleton.mp hbytes
    rw [Confundo.lastAck, h.toUInt16_idNum]
    exact .lastAck hfin
  cases Client.moves_of_step h.greeted hstep with
  | @iterate timeout hphase _ =>
      have hready : Sending file i (if timeout = true then Confundo.rewind c else c) := by
        split_ifs
        · exact h.rewind
        · exact h
      obtain ⟨hnext, hout⟩ := hready.sendNext False fin
      exact ⟨hnext, fun hlate => absurd (Or.inl hphase) hlate,
        fun bytes hbytes => (hout bytes hbytes).mono False.elim id⟩
  | ack hphase =>
      obtain ⟨hnext, hout⟩ := (h.onAck _).endIteration fin
      exact ⟨hnext, fun hlate => absurd (Or.inr hphase) hlate, hout⟩
  | nothing hphase =>
      obtain ⟨hnext, hout⟩ := h.endIteration fin
      exact ⟨hnext, fun hlate => absurd (Or.inr hphase) hlate, hout⟩
  | giveUp _ =>
      exact ⟨h.of_fields rfl rfl rfl rfl rfl (by simp), by simp [Client.inTransfer], by simp⟩
  | resendFin hphase =>
      refine ⟨h, id, fun bytes hbytes => ?_⟩
      obtain rfl := List.mem_singleton.mp hbytes
      exact h.finPacket (by simp [Client.inTransfer, hphase]) fin
  | @finReply bytes hphase =>
      obtain ⟨-, hheader⟩ := hevent bytes rfl
      unfold onFinReply
      by_cases hreply : ((readHeader bytes).ack = c.seqNum + 1 ∨
          (readHeader bytes).flags = finFlag) ∧
          ((readHeader bytes).flags = ackFinFlag ∨ (readHeader bytes).flags = finFlag)
      · have hfin := hheader.fin_of_flags hreply.2
        rw [if_pos hreply]
        exact ⟨h.of_fields rfl rfl rfl rfl rfl (by simp), by simp [Client.inTransfer],
          fun out hout => hlast _ out hfin hout _⟩
      · rw [if_neg hreply]
        exact ⟨h, id, by simp⟩
  | @timeWait bytes hphase =>
      obtain ⟨-, hheader⟩ := hevent bytes rfl
      unfold onTimeWait
      by_cases hflags : (readHeader bytes).flags = finFlag
      · have hfin := hheader.fin_of_flags (Or.inr hflags)
        rw [if_pos hflags]
        exact ⟨h.of_fields rfl rfl rfl rfl rfl h.greeted, by simp [Client.inTransfer, hphase],
          fun out hout => hlast _ out hfin hout _⟩
      · rw [if_neg hflags]
        exact ⟨h, id, by simp⟩
  | timeUp hphase =>
      exact ⟨h.of_fields rfl rfl rfl rfl rfl (by simp), by simp [Client.inTransfer], by simp⟩

/-! ## The joint invariant -/

/-- No connection has been adopted yet. -/
structure Greeting (host : Nat) (k : Nat) (slot : Nat → Connection) (s : Session) : Prop where
  serves : Serves (inetAddr host) k slot s.server
  fresh : ∀ j < k, slot j = opened (inetAddr host) j
  phase : s.client.phase = .synSend ∨ s.client.phase = .synWait ∨ s.client.phase = .failed
  client : s.client = { Client.start with phase := s.client.phase }
  toServer : ∀ bytes ∈ s.toServer, bytes = datagram ⟨12345, 0, 0, synFlag⟩ noData
  toClient : ∀ bytes ∈ s.toClient, Carries (SynReply k) bytes

/-- The client has adopted connection `i + 1`, which has the first `a` bytes. -/
structure Adopted (file : Buffer) (host i k : Nat) (slot : Nat → Connection) (a : Nat)
    (s : Session) : Prop where
  serves : Serves (inetAddr host) k slot s.server
  adopted : i < k
  fresh : ∀ j < k, j ≠ i → slot j = opened (inetAddr host) j
  holds : Holds file (inetAddr host) i a (slot i)
  client : Sending file i s.client
  early : s.client.inTransfer → (slot i).isFin = 0
  toServer : ∀ bytes ∈ s.toServer,
    ClientDatagram file i (¬ s.client.inTransfer) (slot i).isFin bytes
  toClient : ∀ bytes ∈ s.toClient,
    Carries (ServerHeader file k a (slot i).isFin) bytes

section Adopted

variable {file : Buffer} {host i k a : Nat} {slot : Nat → Connection} {s s' : Session}

theorem Adopted.after_client (h : Adopted file host i k slot a s)
    (hserver : s'.server = s.server) (hclient : Sending file i s'.client)
    (hlate : ¬ s.client.inTransfer → ¬ s'.client.inTransfer)
    (hto : ∀ bytes ∈ s'.toServer, bytes ∈ s.toServer ∨
      ClientDatagram file i (¬ s'.client.inTransfer) (slot i).isFin bytes)
    (hfrom : s'.toClient ⊆ s.toClient) : Adopted file host i k slot a s' where
  serves := hserver ▸ h.serves
  adopted := h.adopted
  fresh := h.fresh
  holds := h.holds
  client := hclient
  early := fun htransfer => h.early (by_contra fun hnot => hlate hnot htransfer)
  toServer := by
    intro bytes hbytes
    rcases hto bytes hbytes with hold | hnew
    · exact (h.toServer bytes hold).mono hlate id
    · exact hnew
  toClient := fun bytes hbytes => h.toClient bytes (hfrom hbytes)

theorem Adopted.after_server (h : Adopted file host i k slot a s) {k' a' : Nat}
    {slot' : Nat → Connection} (hk : k ≤ k') (ha : a ≤ a')
    (hfin : (slot i).isFin = 1 → (slot' i).isFin = 1)
    (hserves : Serves (inetAddr host) k' slot' s'.server)
    (hfresh : ∀ j < k', j ≠ i → slot' j = opened (inetAddr host) j)
    (hholds : Holds file (inetAddr host) i a' (slot' i))
    (hearly : s.client.inTransfer → (slot' i).isFin = 0)
    (hclient : s'.client = s.client) (hto : s'.toServer ⊆ s.toServer)
    (hfrom : ∀ bytes ∈ s'.toClient, bytes ∈ s.toClient ∨
      Carries (ServerHeader file k' a' (slot' i).isFin) bytes) :
    Adopted file host i k' slot' a' s' where
  serves := hserves
  adopted := h.adopted.trans_le hk
  fresh := hfresh
  holds := hholds
  client := hclient ▸ h.client
  early := by
    rw [hclient]
    exact hearly
  toServer := by
    intro bytes hbytes
    rw [hclient]
    exact (h.toServer bytes (hto hbytes)).mono id hfin
  toClient := by
    intro bytes hbytes
    rcases hfrom bytes hbytes with hold | hnew
    · exact (h.toClient bytes hold).imp fun _ hh => hh.mono hk ha hfin
    · exact hnew

theorem Adopted.after_update (h : Adopted file host i k slot a s) {bytes : Buffer}
    (hs : s.Answers (inetAddr host) bytes s') {c : Connection} {a' : Nat} {sends : List Send}
    (hreceive : (s.server.receive (inetAddr host) bytes).1.allConnection =
        tableOf k (Function.update slot i c) ∧
      (s.server.receive (inetAddr host) bytes).2 = sends)
    (ha : a ≤ a') (hfin : (slot i).isFin = 1 → c.isFin = 1)
    (hholds : Holds file (inetAddr host) i a' c) (hearly : s.client.inTransfer → c.isFin = 0)
    (hsends : ∀ bytes, (inetAddr host, bytes) ∈ sends →
      Carries (ServerHeader file k a' c.isFin) bytes) :
    Adopted file host i k (Function.update slot i c) a' s' := by
  have hself : Function.update slot i c i = c := Function.update_self ..
  have hserves : Serves (inetAddr host) k (Function.update slot i c) s'.server :=
    h.serves.update (hs.server ▸ hreceive.1) hholds.id hholds.source
  refine h.after_server le_rfl ha ?_ hserves ?_ ?_ ?_ hs.client hs.toServer ?_
  · rwa [hself]
  · intro j hj hji
    rw [Function.update_of_ne hji]
    exact h.fresh j hj hji
  · rwa [hself]
  · rwa [hself]
  · intro out hout
    rw [hs.toClient, hreceive.2, List.mem_append] at hout
    rw [hself]
    exact hout.imp id fun hnew => hsends out (sendsTo_subset hnew)

theorem Adopted.receive_next (h : Adopted file host i k slot a s) (hopen : (slot i).isFin = 0)
    (hcut : Cut file a) {ack : UInt32} {flags : UInt16} (hflags : flags = ackFlag ∨ flags = 0)
    (hs : s.Answers (inetAddr host)
      (datagram ⟨seqAt a, ack, UInt16.ofNat (i + 1), flags⟩ (chunk file a)) s') :
    ∃ c seq payload, Adopted file host i k (Function.update slot i c) (endOf file a) s' ∧
      s'.toClient = s.toClient ++
        [datagram ⟨seq, seqAt (endOf file a), UInt16.ofNat (i + 1), ackFlag⟩ payload] := by
  obtain ⟨c, seq, payload, hbranch, hholds, hopen'⟩ :=
    h.holds.dataBranch_next hopen hcut
      (h := ⟨seqAt a, ack, UInt16.ofNat (i + 1), flags⟩) rfl
  have hreceive := h.serves.receive_data (inetAddr host) h.adopted (length_chunk_le file a) rfl hflags hbranch
  refine ⟨c, seq, payload, h.after_update hs hreceive (le_endOf file a) ?_ hholds
    (fun _ => hopen') ?_, ?_⟩
  · intro hclosed
    omega
  · intro out hout
    obtain rfl : out = _ := congrArg Prod.snd (List.mem_singleton.mp hout)
    exact carries_datagram _ (.ack le_rfl hcut.boundary_endOf)
  · rw [hs.toClient, hreceive.2, sendsTo_cons_self, sendsTo_nil]

theorem Adopted.receive_other (h : Adopted file host i k slot a s)
    (hopen : (slot i).isFin = 0) {pos : Nat} {ack : UInt32} {flags : UInt16}
    (hflags : flags = ackFlag ∨ flags = 0) (hseq : seqAt pos ≠ seqAt a)
    (hs : s.Answers (inetAddr host)
      (datagram ⟨seqAt pos, ack, UInt16.ofNat (i + 1), flags⟩ (chunk file pos)) s') :
    ∃ c seq payload, Adopted file host i k (Function.update slot i c) a s' ∧
      s'.toClient = s.toClient ++
        [datagram ⟨seq, seqAt a, UInt16.ofNat (i + 1), ackFlag⟩ payload] := by
  obtain ⟨c, seq, payload, hbranch, hholds, hopen'⟩ :=
    h.holds.dataBranch_other hopen (h := ⟨seqAt pos, ack, UInt16.ofNat (i + 1), flags⟩) hseq
      (chunk file pos) (12 + (chunk file pos).length)
  have hreceive := h.serves.receive_data (inetAddr host) h.adopted (length_chunk_le file pos) rfl hflags hbranch
  refine ⟨c, seq, payload, h.after_update hs hreceive le_rfl ?_ hholds (fun _ => hopen') ?_, ?_⟩
  · intro hclosed
    omega
  · intro out hout
    obtain rfl : out = _ := congrArg Prod.snd (List.mem_singleton.mp hout)
    exact carries_datagram _ (.ack le_rfl h.holds.boundary)
  · rw [hs.toClient, hreceive.2, sendsTo_cons_self, sendsTo_nil]

theorem Adopted.receive_closed (h : Adopted file host i k slot a s)
    (hclosed : (slot i).isFin = 1) {seq ack : UInt32} {flags : UInt16} {payload : Buffer}
    (hfits : payload.length ≤ dataSize) (hflags : flags = ackFlag ∨ flags = 0)
    (hs : s.Answers (inetAddr host)
      (datagram ⟨seq, ack, UInt16.ofNat (i + 1), flags⟩ payload) s') :
    ∃ c, Adopted file host i k (Function.update slot i c) a s' ∧ c.isFin = 1 := by
  obtain ⟨c, hbranch, hholds, hclosed'⟩ := h.holds.dataBranch_closed hclosed
    (padded ⟨seq, ack, UInt16.ofNat (i + 1), flags⟩ payload) (12 + payload.length)
  have hreceive := h.serves.receive_data (inetAddr host) h.adopted hfits rfl hflags hbranch
  refine ⟨c, h.after_update hs hreceive le_rfl (fun _ => hclosed') hholds ?_ (by simp), hclosed'⟩
  intro htransfer
  have := h.early htransfer
  omega

theorem Adopted.receive_fin (h : Adopted file host i k slot a s)
    (hlate : ¬ s.client.inTransfer) {seq : UInt32}
    (hs : s.Answers (inetAddr host)
      (datagram ⟨seq, 0, UInt16.ofNat (i + 1), finFlag⟩ noData) s') :
    ∃ c, Adopted file host i k (Function.update slot i c) a s' ∧ c.isFin = 1 := by
  obtain ⟨c, sends, hbranch, hsends, hholds, hclosed⟩ := h.holds.finBranch
    (padded ⟨seq, 0, UInt16.ofNat (i + 1), finFlag⟩ noData)
  have hreceive := h.serves.receive_fin (inetAddr host) h.adopted length_noData.le rfl rfl hbranch
  refine ⟨c, h.after_update hs hreceive le_rfl (fun _ => hclosed) hholds
    (fun htransfer => absurd htransfer hlate) ?_, hclosed⟩
  intro out hout
  obtain ⟨header, payload, heq⟩ := hsends _ hout
  obtain rfl : out = _ := congrArg Prod.snd heq
  exact carries_datagram _ (.finished hclosed)

theorem Adopted.receive_syn (h : Adopted file host i k slot a s)
    (hs : s.Answers (inetAddr host) (datagram ⟨12345, 0, 0, synFlag⟩ noData) s') :
    ∃ k' slot', Adopted file host i k' slot' a s' ∧ slot' i = slot i := by
  obtain ⟨k', slot', hk, hold, hnew, hserves, hsends⟩ := Confundo.receive_syn h.serves
  have hself : slot' i = slot i := hold i h.adopted
  refine ⟨k', slot', h.after_server hk le_rfl ?_ (hs.server ▸ hserves) ?_ ?_ ?_ hs.client
    hs.toServer ?_, hself⟩
  · rw [hself]
    exact id
  · intro j hj hji
    by_cases hjk : j < k
    · rw [hold j hjk]
      exact h.fresh j hjk hji
    · exact hnew j hj (Nat.le_of_not_lt hjk)
  · rw [hself]
    exact h.holds
  · rw [hself]
    exact h.early
  · intro out hout
    rw [hs.toClient, List.mem_append] at hout
    exact hout.imp id fun hreply => (hsends out hreply).imp fun _ => .greeting

theorem Adopted.answers (h : Adopted file host i k slot a s) (huniq : Unambiguous file)
    {bytes : Buffer} (hbytes : bytes ∈ s.toServer) (hs : s.Answers (inetAddr host) bytes s') :
    ∃ k' slot' a', a ≤ a' ∧ ((slot i).isFin = 1 → (slot' i).isFin = 1) ∧
      Adopted file host i k' slot' a' s' := by
  have hopen_or := h.holds.fin
  cases h.toServer bytes hbytes with
  | syn =>
      obtain ⟨k', slot', hnext, hself⟩ := h.receive_syn hs
      exact ⟨k', slot', a, le_rfl, by rw [hself]; exact id, hnext⟩
  | @segment pos ack flags hcut hflags =>
      rcases hopen_or with hopen | hclosed
      · by_cases hseq : seqAt pos = seqAt a
        · obtain rfl : pos = a := huniq.eq hcut h.holds.boundary hseq
          obtain ⟨c, _, _, hnext, -⟩ := h.receive_next hopen hcut hflags hs
          exact ⟨k, _, _, le_endOf file pos, fun hclosed => by omega, hnext⟩
        · obtain ⟨c, _, _, hnext, -⟩ := h.receive_other hopen hflags hseq hs
          exact ⟨k, _, _, le_rfl, fun hclosed => by omega, hnext⟩
      · obtain ⟨c, hnext, hfin⟩ := h.receive_closed hclosed (length_chunk_le file pos) hflags hs
        exact ⟨k, _, _, le_rfl, fun _ => by rw [Function.update_self]; exact hfin, hnext⟩
  | finish hlate =>
      obtain ⟨c, hnext, hfin⟩ := h.receive_fin hlate hs
      exact ⟨k, _, _, le_rfl, fun _ => by rw [Function.update_self]; exact hfin, hnext⟩
  | lastAck hclosed =>
      obtain ⟨c, hnext, hfin⟩ := h.receive_closed hclosed length_noData.le (Or.inl rfl) hs
      exact ⟨k, _, _, le_rfl, fun _ => by rw [Function.update_self]; exact hfin, hnext⟩

theorem Adopted.client_step (h : Adopted file host i k slot a s) {event : ClientEvent}
    {next : Client × List Buffer} (hevent : ∀ bytes, event = .receive bytes → bytes ∈ s.toClient)
    (hstep : s.client.step file event = some next) (hclient : s'.client = next.1)
    (hserver : s'.server = s.server) (hto : s'.toServer = s.toServer ++ next.2)
    (hfrom : s'.toClient ⊆ s.toClient) : Adopted file host i k slot a s' := by
  obtain ⟨hsending, hlate, hout⟩ :=
    h.client.step (fun bytes heq => h.toClient bytes (hevent bytes heq)) hstep
  rw [← hclient] at hsending hlate hout
  refine h.after_client hserver hsending hlate ?_ hfrom
  intro bytes hbytes
  rw [hto, List.mem_append] at hbytes
  exact hbytes.imp id fun hnew => hout bytes hnew

theorem Adopted.network_step (h : Adopted file host i k slot a s)
    (hclient : s'.client = s.client) (hserver : s'.server = s.server)
    (hto : s'.toServer ⊆ s.toServer) (hfrom : s'.toClient ⊆ s.toClient) :
    Adopted file host i k slot a s' :=
  h.after_client hserver (hclient ▸ h.client) (by rw [hclient]; exact id)
    (fun bytes hbytes => Or.inl (hto hbytes)) hfrom

/-- One step keeps the invariant, and the server never loses anything. -/
theorem Adopted.step (h : Adopted file host i k slot a s) (huniq : Unambiguous file)
    {action : Action} (hstep : Session.step file (inetAddr host) s action = some s') :
    ∃ k' slot' a', a ≤ a' ∧ Adopted file host i k' slot' a' s' := by
  cases Session.moves_of_step hstep with
  | client hevent hclientStep hclient hserver hto hfrom =>
      exact ⟨k, slot, a, le_rfl, h.client_step hevent hclientStep hclient hserver hto hfrom⟩
  | server hbytes hs =>
      obtain ⟨k', slot', a', ha, -, hnext⟩ := h.answers huniq hbytes hs
      exact ⟨k', slot', a', ha, hnext⟩
  | network hclient hserver hto hfrom =>
      exact ⟨k, slot, a, le_rfl, h.network_step hclient hserver hto hfrom⟩

theorem Adopted.connection (h : Adopted file host i k slot a s) :
    s.connection = some (slot i) :=
  h.serves.connection h.adopted h.client.idNum

end Adopted

/-! ## The handshake -/

def Client.greeted (id : UInt32) : Client :=
  ⟨.loopTop, 10000, 1024, 12346, 4322, id, [], 2, ackFlag, InFile.start⟩

def Client.refused (id : UInt32) : Client :=
  ⟨.failed, 10000, 1024, 12346, 4322, id, [], 0, 0, InFile.start⟩

theorem onSynReply_synAck (file : Buffer) (id : UInt16) :
    onSynReply file { Client.start with phase := .synWait } ⟨4321, 12346, id, synAckFlag⟩ =
      if fileTooLarge file then Client.refused id.toUInt32 else Client.greeted id.toUInt32 := by
  unfold onSynReply
  rw [if_pos (Or.inl rfl), if_pos ⟨rfl, rfl⟩, if_pos (by decide)]
  unfold enterTransfer
  have hcwnd : (512 : UInt32) + 512 = 1024 := by decide
  have hspace : (1024 : UInt32) / 512 = 2 := by decide
  have hack : (4321 : UInt32) + 1 = 4322 := by decide
  simp only [Client.start, Client.refused, Client.greeted, hcwnd, hspace, hack]

theorem onSynReply_synEcho (file : Buffer) (c : Client) :
    onSynReply file c (Header.ntoh ⟨12345, 0, 0, synFlag⟩) = c := by
  unfold onSynReply
  exact if_neg (by decide)

theorem inStep_of_start (file : Buffer) (c : Client) (hseq : c.seqNum = 12346)
    (hfile : c.myfile = InFile.start) (hlogs : c.cwndLogs = []) : InStep file c where
  boundary := hfile ▸ boundary_zero file
  atEnd := by simp [hfile, InFile.start]
  cut := fun _ => hfile ▸ ⟨rfl, Nat.zero_le _⟩
  failEof := by rw [hfile]; rfl
  seq := by rw [hseq, hfile]; rfl
  logged := by simp [hlogs]

theorem sending_greeted (file : Buffer) {j : Nat} (hj : j < 10) :
    Sending file j (Client.greeted (UInt16.ofNat (j + 1)).toUInt32) where
  inStep := inStep_of_start file _ rfl rfl rfl
  idNum := toUInt32_ofNat_succ hj
  flags := Or.inl rfl
  greeted := by simp [Client.greeted]

theorem sending_refused (file : Buffer) {j : Nat} (hj : j < 10) :
    Sending file j (Client.refused (UInt16.ofNat (j + 1)).toUInt32) where
  inStep := inStep_of_start file _ rfl rfl rfl
  idNum := toUInt32_ofNat_succ hj
  flags := Or.inr rfl
  greeted := by simp [Client.refused]

section Greeting

variable {file : Buffer} {host k : Nat} {slot : Nat → Connection} {s s' : Session}

theorem Greeting.client_step (h : Greeting host k slot s) {event : ClientEvent}
    {next : Client × List Buffer} (hevent : ∀ bytes, event = .receive bytes → bytes ∈ s.toClient)
    (hstep : s.client.step file event = some next) :
    (next.1 = { Client.start with phase := next.1.phase } ∧
        (next.1.phase = .synSend ∨ next.1.phase = .synWait ∨ next.1.phase = .failed) ∧
        ∀ bytes ∈ next.2, bytes = datagram ⟨12345, 0, 0, synFlag⟩ noData) ∨
      ∃ j < k, next.2 = [] ∧
        next.1 = if fileTooLarge file then Client.refused (UInt16.ofNat (j + 1)).toUInt32
          else Client.greeted (UInt16.ofNat (j + 1)).toUInt32 := by
  have hclient := h.client
  rcases h.phase with hphase | hphase | hphase <;> rw [hphase] at hclient <;>
    rw [hclient] at hstep
  · cases event <;> simp only [Client.step, reduceCtorEq] at hstep
    · obtain rfl := Option.some.inj hstep
      exact Or.inl ⟨rfl, by simp, fun bytes hbytes => List.mem_singleton.mp hbytes⟩
    · obtain rfl := Option.some.inj hstep
      exact Or.inl ⟨rfl, by simp, by simp⟩
  · cases event <;> simp only [Client.step, reduceCtorEq] at hstep
    · obtain rfl := Option.some.inj hstep
      exact Or.inl ⟨rfl, by simp, by simp⟩
    · rename_i bytes
      obtain ⟨-, hreply⟩ := h.toClient bytes (hevent bytes rfl)
      obtain rfl := Option.some.inj hstep
      generalize readHeader bytes = header at hreply
      cases hreply with
      | synEcho =>
          rw [onSynReply_synEcho]
          exact Or.inl ⟨rfl, by simp, by simp⟩
      | @synAck j hj => exact Or.inr ⟨j, hj, rfl, onSynReply_synAck file _⟩
  · cases event <;> simp only [Client.step, reduceCtorEq] at hstep

/-- A client that has been greeted, or has left with its file, adopts a fresh connection. -/
theorem Greeting.adopted (h : Greeting host k slot s) {j : Nat} (hj : j < k)
    (hserver : s'.server = s.server)
    (hnew : s'.client = Client.greeted (UInt16.ofNat (j + 1)).toUInt32 ∨
      s'.client = Client.refused (UInt16.ofNat (j + 1)).toUInt32)
    (hquiet : s'.toServer ⊆ s.toServer) (hfrom : s'.toClient ⊆ s.toClient) :
    Adopted file host j k slot 0 s' := by
  have hfew : j < 10 := hj.trans_le h.serves.few
  have hslot := h.fresh j hj
  exact
    { serves := hserver ▸ h.serves
      adopted := hj
      fresh := fun l hl _ => h.fresh l hl
      holds := hslot ▸ holds_opened file (inetAddr host) j
      client := by
        rcases hnew with hnew | hnew <;> rw [hnew]
        · exact sending_greeted file hfew
        · exact sending_refused file hfew
      early := fun _ => by rw [hslot]; rfl
      toServer := by
        intro bytes hbytes
        rw [h.toServer bytes (hquiet hbytes)]
        exact .syn
      toClient := fun bytes hbytes =>
        (h.toClient bytes (hfrom hbytes)).imp fun _ => .greeting }

theorem Greeting.step (h : Greeting host k slot s) {action : Action}
    (hstep : Session.step file (inetAddr host) s action = some s') :
    (∃ k' slot', Greeting host k' slot' s') ∨
      ∃ i, Adopted file host i k slot 0 s' ∧
        (s'.client = Client.greeted (UInt16.ofNat (i + 1)).toUInt32 ∨
          s'.client = Client.refused (UInt16.ofNat (i + 1)).toUInt32) ∧
        s'.toServer ⊆ s.toServer := by
  cases Session.moves_of_step hstep with
  | client hevent hclientStep hclient hserver hto hfrom =>
      rcases h.client_step hevent hclientStep with ⟨hsame, hphase, hout⟩ | ⟨j, hj, hout, hnext⟩
      · rw [← hclient] at hsame hphase
        refine Or.inl ⟨k, slot, hserver ▸ h.serves, h.fresh, hphase, hsame, ?_,
          fun bytes hbytes => h.toClient bytes (hfrom hbytes)⟩
        intro bytes hbytes
        rw [hto, List.mem_append] at hbytes
        exact hbytes.elim (h.toServer bytes) (hout bytes)
      · rw [← hclient] at hnext
        have hnew : s'.client = Client.greeted (UInt16.ofNat (j + 1)).toUInt32 ∨
            s'.client = Client.refused (UInt16.ofNat (j + 1)).toUInt32 := by
          rw [hnext]
          split_ifs
          · exact Or.inr rfl
          · exact Or.inl rfl
        have hquiet : s'.toServer ⊆ s.toServer := by
          rw [hto, hout, List.append_nil]
          exact List.Subset.refl _
        exact Or.inr ⟨j, h.adopted hj hserver hnew hquiet hfrom, hnew, hquiet⟩
  | server hbytes hs =>
      obtain rfl := h.toServer _ hbytes
      obtain ⟨k', slot', hk, hold, hnew, hserves, hsends⟩ := receive_syn h.serves
      refine Or.inl ⟨k', slot', hs.server ▸ hserves, ?_, ?_, ?_, ?_, ?_⟩
      · intro j hj
        by_cases hjk : j < k
        · rw [hold j hjk]
          exact h.fresh j hjk
        · exact hnew j hj (Nat.le_of_not_lt hjk)
      · rw [hs.client]
        exact h.phase
      · rw [hs.client]
        exact h.client
      · exact fun bytes hbytes => h.toServer bytes (hs.toServer hbytes)
      · intro bytes hbytes
        rw [hs.toClient, List.mem_append] at hbytes
        exact hbytes.elim (fun hmem => (h.toClient bytes hmem).imp fun _ hh => hh.mono hk)
          (hsends bytes)
  | network hclient hserver hto hfrom =>
      exact Or.inl ⟨k, slot, hserver ▸ h.serves, h.fresh, hclient ▸ h.phase, hclient ▸ h.client,
        fun bytes hbytes => h.toServer bytes (hto hbytes),
        fun bytes hbytes => h.toClient bytes (hfrom hbytes)⟩

theorem greeting_start (host : Nat) (slot : Nat → Connection) :
    Greeting host 0 slot Session.start where
  serves := ⟨by omega, rfl, by simp, by simp⟩
  fresh := by simp
  phase := Or.inl rfl
  client := rfl
  toServer := by simp [Session.start]
  toClient := by simp [Session.start]

theorem Greeting.connection (h : Greeting host k slot s) {c : Connection}
    (hc : s.connection = some c) : c.myfile.contents = [] ∧ c.packHeader.seq ≠ 4322 := by
  have hmem : c ∈ s.server.allConnection := List.mem_of_find?_eq_some hc
  rw [h.serves.table, tableOf, List.mem_append, List.mem_map, List.mem_replicate] at hmem
  rcases hmem with ⟨j, hj, rfl⟩ | ⟨-, rfl⟩
  · rw [h.fresh j (by simpa using hj)]
    exact ⟨rfl, (by decide : (4321 : UInt32) ≠ 4322)⟩
  · exact ⟨rfl, (by decide : (0 : UInt32) ≠ 4322)⟩

end Greeting

/-! ## Prefix safety -/

/-- In every reachable state the client is still greeting, or the invariant of
an adopted connection holds. -/
theorem greeting_or_adopted {file : Buffer} {host : Nat} (huniq : Unambiguous file)
    {s : Session} (h : Session.Reachable file (inetAddr host) s) :
    (∃ k slot, Greeting host k slot s) ∨ ∃ i k slot a, Adopted file host i k slot a s := by
  refine Reach.invariant (P := fun s => (∃ k slot, Greeting host k slot s) ∨
    ∃ i k slot a, Adopted file host i k slot a s) ?_ ?_ h
  · intro s action s' hs _ hstep
    rcases hs with ⟨k, slot, hgreet⟩ | ⟨i, k, slot, a, hadopted⟩
    · rcases hgreet.step hstep with hnext | ⟨i, hnext, -⟩
      · exact Or.inl hnext
      · exact Or.inr ⟨i, k, slot, 0, hnext⟩
    · obtain ⟨k', slot', a', -, hnext⟩ := hadopted.step huniq hstep
      exact Or.inr ⟨i, k', slot', a', hnext⟩
  · exact Or.inl ⟨0, fun _ => Connection.unused, greeting_start host _⟩

/-- As long as sequence numbers are unambiguous, the adopted connection's file is
a prefix of the client's. -/
theorem prefix_of_unambiguous {file : Buffer} {host : Nat} (huniq : Unambiguous file)
    {s : Session} (h : Session.Reachable file (inetAddr host) s) {c : Connection}
    (hc : s.connection = some c) : c.myfile.contents <+: file := by
  rcases greeting_or_adopted huniq h with ⟨k, slot, hgreet⟩ | ⟨i, k, slot, a, hadopted⟩
  · rw [(hgreet.connection hc).1]
    exact List.nil_prefix
  · obtain rfl : slot i = c := Option.some.inj (hadopted.connection.symm.trans hc)
    rw [hadopted.holds.contents]
    exact List.take_prefix a file

end Cs118.Confundo
