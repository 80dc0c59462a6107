import Cs118.Confundo.Proofs.Safety
import Cs118.Confundo.Proofs.Slots
/-!
# The acknowledgement of the greeting

The client acknowledges the server's `SYN`-`ACK` with the first transmission of its first
segment and with nothing else.  The server takes data with and without it, so a
retransmission that arrives first is appended while the handshake is still open.
-/

namespace Cs118.Confundo

open Cs118.Lib.Bytes
open Cs118.Lib.Run

/-- The server has the client's acknowledgement, or nothing of its file. -/
def Connection.Complete (c : Connection) : Prop :=
  c.myfile.contents ≠ [] → c.packHeader.seq = 4322

/-- The handshake of the client's connection is complete once data has been appended. -/
def Session.HandshakeDone (s : Session) : Prop := ∀ c ∈ s.connection, c.Complete

def Session.delivered (s : Session) : Action → Option Buffer
  | .serverReceive i => s.toServer[i]?
  | _ => none

structure InOrderData (bytes : Buffer) (c : Connection) : Prop where
  flags : (receivePacket bytes).packHeader.flags = ackFlag ∨
    (receivePacket bytes).packHeader.flags = 0
  id : (receivePacket bytes).packHeader.id = c.packHeader.id
  seq : (receivePacket bytes).packHeader.seq = c.packHeader.ack
  notClosed : c.isFin ≠ 1
  payload : 12 < bytes.length

instance (bytes : Buffer) (c : Connection) : Decidable (InOrderData bytes c) :=
  decidable_of_iff (((receivePacket bytes).packHeader.flags = ackFlag ∨
      (receivePacket bytes).packHeader.flags = 0) ∧
      (receivePacket bytes).packHeader.id = c.packHeader.id ∧
      (receivePacket bytes).packHeader.seq = c.packHeader.ack ∧ c.isFin ≠ 1 ∧ 12 < bytes.length)
    ⟨fun h => ⟨h.1, h.2.1, h.2.2.1, h.2.2.2.1, h.2.2.2.2⟩,
      fun h => ⟨h.flags, h.id, h.seq, h.notClosed, h.payload⟩⟩

/-- A datagram with the client's acknowledgement of the `SYN`-`ACK` for the open connection
`c`. -/
structure AcksGreeting (bytes : Buffer) (c : Connection) : Prop where
  flags : (receivePacket bytes).packHeader.flags = ackFlag ∨
    (receivePacket bytes).packHeader.flags = 0
  id : (receivePacket bytes).packHeader.id = c.packHeader.id
  ack : (receivePacket bytes).packHeader.ack = 4322
  notClosed : c.isFin ≠ 1

/-- In-order data comes with the acknowledgement, or after it. -/
def Session.AcknowledgedFirst (s : Session) (action : Action) : Prop :=
  ∀ bytes ∈ s.delivered action, ∀ c ∈ s.connection, InOrderData bytes c →
    (receivePacket bytes).packHeader.ack = 4322 ∨ c.packHeader.seq = 4322

/-! ## What the client says -/

inductive Utterance (i fin : Nat) : Buffer → Prop
  | syn : Utterance i fin (datagram ⟨12345, 0, 0, synFlag⟩ noData)
  | segment {seq ack : UInt32} {flags : UInt16} {payload : Buffer}
      (hack : ack = 4322 ∨ ack = 0) (hflags : flags = ackFlag ∨ flags = 0)
      (hfits : payload.length ≤ dataSize) :
      Utterance i fin (datagram ⟨seq, ack, UInt16.ofNat (i + 1), flags⟩ payload)
  | finish {seq : UInt32} :
      Utterance i fin (datagram ⟨seq, 0, UInt16.ofNat (i + 1), finFlag⟩ noData)
  | lastAck {seq ack : UInt32} (hfin : fin = 1) :
      Utterance i fin (datagram ⟨seq, ack, UInt16.ofNat (i + 1), ackFlag⟩ noData)

theorem Utterance.mono {i fin fin' : Nat} {bytes : Buffer} (h : Utterance i fin bytes)
    (hfin : fin = 1 → fin' = 1) : Utterance i fin' bytes := by
  cases h with
  | syn => exact .syn
  | segment hack hflags hfits => exact .segment hack hflags hfits
  | finish => exact .finish
  | lastAck h => exact .lastAck (hfin h)

/-- A client past the handshake: it acknowledges the greeting or nothing. -/
structure Joining (i : Nat) (c : Client) : Prop where
  idNum : c.idNum = UInt32.ofNat (i + 1)
  ackNum : c.inTransfer → c.ackNum = 4322 ∨ c.ackNum = 0
  flags : c.flags = ackFlag ∨ c.flags = 0
  greeted : c.phase ≠ .synSend ∧ c.phase ≠ .synWait

section

variable {file : Buffer} {i fin : Nat} {c : Client}

theorem Joining.toUInt16_idNum (h : Joining i c) : c.idNum.toUInt16 = UInt16.ofNat (i + 1) := by
  rw [h.idNum]
  simp

theorem Joining.of_fields {c' : Client} (h : Joining i c) (hid : c'.idNum = c.idNum)
    (hack : c'.inTransfer → c.inTransfer ∧ c'.ackNum = c.ackNum) (hflags : c'.flags = c.flags)
    (hphase : c'.phase ≠ .synSend ∧ c'.phase ≠ .synWait) : Joining i c' where
  idNum := hid.trans h.idNum
  ackNum htransfer := by
    obtain ⟨hold, heq⟩ := hack htransfer
    rw [heq]
    exact h.ackNum hold
  flags := hflags ▸ h.flags
  greeted := hphase

theorem Joining.finPacket (h : Joining i c) : Utterance i fin (finPacket c) := by
  rw [Confundo.finPacket, h.toUInt16_idNum]
  exact .finish

theorem Joining.lastAck (h : Joining i c) (hfin : fin = 1) (seq : UInt32) :
    Utterance i fin (lastAck c seq) := by
  rw [Confundo.lastAck, h.toUInt16_idNum]
  exact .lastAck hfin

theorem Joining.rewind (h : Joining i c) : Joining i (rewind c) := by
  cases hlogs : c.cwndLogs with
  | nil =>
      unfold Confundo.rewind
      rwa [hlogs]
  | cons front rest =>
      rw [rewind_cons hlogs]
      exact h.of_fields rfl (fun htransfer => ⟨htransfer, rfl⟩) rfl h.greeted

theorem length_read_le (f : InFile) (file : Buffer) : (f.read file dataSize).1.length ≤ dataSize := by
  have hchunk : (getBytes file f.pos dataSize).length ≤ dataSize := length_chunk_le file f.pos
  unfold InFile.read
  dsimp only
  split_ifs <;> exact hchunk

theorem Joining.sendNext (h : Joining i c) (htransfer : c.inTransfer) :
    Joining i { (sendNext file c).1 with phase := .loopRecv } ∧
      ∀ bytes ∈ (sendNext file c).2, Utterance i fin bytes := by
  unfold Confundo.sendNext
  split_ifs
  · refine ⟨⟨h.idNum, fun _ => Or.inr rfl, Or.inr rfl, by simp⟩, fun bytes hbytes => ?_⟩
    rw [List.mem_singleton.mp hbytes, h.toUInt16_idNum]
    exact .segment (h.ackNum htransfer) h.flags (length_read_le _ _)
  · exact ⟨h.of_fields rfl (fun _ => ⟨htransfer, rfl⟩) rfl (by simp), by simp⟩

theorem Joining.endIteration (h : Joining i c) (htransfer : c.inTransfer) :
    Joining i (endIteration c).1 ∧ ∀ bytes ∈ (endIteration c).2, Utterance i fin bytes := by
  unfold Confundo.endIteration
  split_ifs
  · have hnext : Joining i { c with phase := .finWait, ackNum := 0 } :=
      ⟨h.idNum, fun _ => Or.inr rfl, h.flags, by simp⟩
    refine ⟨hnext, fun bytes hbytes => ?_⟩
    rw [List.mem_singleton.mp hbytes]
    exact hnext.finPacket
  · exact ⟨h.of_fields rfl (fun _ => ⟨htransfer, rfl⟩) rfl (by simp), by simp⟩

theorem Joining.onAck (h : Joining i c) (ack : UInt32) : Joining i (onAck c ack) := by
  rcases onAck_cases c ack with ⟨hsame, -⟩ | ⟨_, _, _, _, _, -, -, -, hack⟩
  · rwa [hsame]
  · rw [hack]
    exact h.of_fields rfl (fun htransfer => ⟨htransfer, rfl⟩) rfl h.greeted

theorem inTransfer_onAck (htransfer : c.inTransfer) (ack : UInt32) :
    (onAck c ack).inTransfer := by
  rcases onAck_cases c ack with ⟨hsame, -⟩ | ⟨_, _, _, _, _, -, -, -, hack⟩
  · rwa [hsame]
  · rwa [hack]

theorem inTransfer_rewind (htransfer : c.inTransfer) : (rewind c).inTransfer := by
  unfold Confundo.rewind
  cases c.cwndLogs <;> exact htransfer

/-- Whatever the client does past the handshake, only its last acknowledgement, an answer to
the server's `FIN`, acknowledges anything but the greeting. -/
theorem Joining.step (h : Joining i c) {event : ClientEvent} {next : Client × List Buffer}
    (hevent : ∀ bytes, event = .receive bytes → (readHeader bytes).flags = ackFinFlag ∨
      (readHeader bytes).flags = finFlag → fin = 1)
    (hstep : c.step file event = some next) :
    Joining i next.1 ∧ ∀ bytes ∈ next.2, Utterance i fin bytes := by
  have hlast : ∀ seq, fin = 1 → ∀ bytes ∈ [Confundo.lastAck c seq], Utterance i fin bytes := by
    intro seq hfin bytes hbytes
    rw [List.mem_singleton.mp hbytes]
    exact h.lastAck hfin seq
  cases Client.moves_of_step h.greeted hstep with
  | @iterate timeout hphase _ =>
      cases timeout with
      | true => exact h.rewind.sendNext (inTransfer_rewind (Or.inl hphase))
      | false => exact h.sendNext (Or.inl hphase)
  | ack hphase => exact (h.onAck _).endIteration (inTransfer_onAck (Or.inr hphase) _)
  | nothing hphase => exact h.endIteration (Or.inr hphase)
  | giveUp _ =>
      exact ⟨h.of_fields rfl (by simp [Client.inTransfer]) rfl (by simp), by simp⟩
  | resendFin _ =>
      refine ⟨h, fun bytes hbytes => ?_⟩
      rw [List.mem_singleton.mp hbytes]
      exact h.finPacket
  | @finReply bytes hphase =>
      unfold onFinReply
      split_ifs with hreply
      · exact ⟨h.of_fields rfl (by simp [Client.inTransfer]) rfl (by simp),
          hlast _ (hevent bytes rfl hreply.2)⟩
      · exact ⟨h, by simp⟩
  | @timeWait bytes hphase =>
      unfold onTimeWait
      split_ifs with hflags
      · exact ⟨h.of_fields rfl (by simp [Client.inTransfer, hphase]) rfl h.greeted,
          hlast _ (hevent bytes rfl (Or.inr hflags))⟩
      · exact ⟨h, by simp⟩
  | timeUp hphase =>
      exact ⟨h.of_fields rfl (by simp [Client.inTransfer]) rfl (by simp), by simp⟩

end

/-! ## What the server makes of it -/

theorem seq_noteAck {buf : Packet} {c : Connection}
    (hseq : c.packHeader.seq = 4321 ∨ c.packHeader.seq = 4322)
    (hack : buf.packHeader.ack = 4322 ∨ buf.packHeader.ack = 0) :
    (noteAck buf c).packHeader.seq =
      if buf.packHeader.ack = 4322 then 4322 else c.packHeader.seq := by
  unfold noteAck
  rcases hseq with hseq | hseq <;> rcases hack with hack | hack <;> rw [hseq, hack]
  · exact rfl
  · rw [if_neg (by decide), if_neg (by decide), if_neg (by decide), hseq]
  · rw [if_pos rfl, if_pos rfl, hseq]
  · rw [if_neg (by decide), if_neg (by decide), if_neg (by decide), hseq]

theorem seq_dataBranch (buf : Packet) (n : Nat) {c : Connection} (hopen : c.isFin ≠ 1)
    (hseq : c.packHeader.seq = 4321 ∨ c.packHeader.seq = 4322)
    (hack : buf.packHeader.ack = 4322 ∨ buf.packHeader.ack = 0) :
    (dataBranch buf n c).1.packHeader.seq =
      if buf.packHeader.ack = 4322 then 4322 else c.packHeader.seq := by
  unfold dataBranch
  rw [if_neg hopen]
  by_cases hnext : buf.packHeader.seq = c.packHeader.ack
  · simp only [if_pos hnext]
    exact (seq_noteAck (by exact hseq) hack).trans rfl
  · simp only [if_neg hnext]
    exact seq_noteAck hseq hack

/-- A complete handshake stays complete unless data comes too early, and the server's own
number moves on with the acknowledgement. -/
structure Progress (bytes : Buffer) (c c' : Connection) : Prop where
  complete : c.Complete → (c'.Complete ↔ (InOrderData bytes c →
    (receivePacket bytes).packHeader.ack = 4322 ∨ c.packHeader.seq = 4322))
  greeted : c'.packHeader.seq = 4322 ↔ c.packHeader.seq = 4322 ∨ AcksGreeting bytes c

theorem progress_of_kept {bytes : Buffer} {c c' : Connection}
    (hnot : ((receivePacket bytes).packHeader.flags = ackFlag ∨
      (receivePacket bytes).packHeader.flags = 0) → c.isFin = 1)
    (hcontents : c'.myfile.contents = c.myfile.contents)
    (hseq : c'.packHeader.seq = c.packHeader.seq) : Progress bytes c c' where
  complete := by
    intro hcomplete
    refine iff_of_true ?_ fun hdata => absurd (hnot hdata.flags) hdata.notClosed
    unfold Connection.Complete at *
    rwa [hcontents, hseq]
  greeted := by
    rw [hseq]
    exact (or_iff_left fun hack => hack.notClosed (hnot hack.flags)).symm

structure Answered (bytes : Buffer) (c c' : Connection) : Prop where
  id : c'.packHeader.id = c.packHeader.id
  srcAddr : c'.srcAddr = c.srcAddr
  isFin : c'.isFin = c.isFin
  ready : c'.myfile.Ready
  greets : c'.packHeader.seq = 4321 ∨ c'.packHeader.seq = 4322
  progress : Progress bytes c c'

theorem write_padded {f : OutFile} (hfile : f.Ready) (h : Header) (payload : Buffer) :
    f.write (padded h payload).data (((12 + payload.length : Nat) : Int) - 12) =
      { f with contents := f.contents ++ payload } := by
  have hcount : ((12 + payload.length : Nat) : Int) - 12 = (payload.length : Nat) := by omega
  rw [hcount, OutFile.write_ofNat hfile, padded, List.take_left' rfl]

theorem progress_of_data {h : Header} {payload : Buffer} {c c' : Connection}
    (hfits : payload.length ≤ dataSize) (hflags : h.flags = ackFlag ∨ h.flags = 0)
    (hid : h.id = c.packHeader.id) (hopen : c.isFin ≠ 1)
    (hdone : c'.packHeader.seq = 4322 ↔ h.ack = 4322 ∨ c.packHeader.seq = 4322)
    (hcontents : c'.myfile.contents = if h.seq = c.packHeader.ack then c.myfile.contents ++ payload
      else c.myfile.contents) :
    Progress (datagram h payload) c c' := by
  have hpacket : receivePacket (datagram h payload) = padded h payload :=
    receivePacket_datagram h hfits
  refine ⟨fun hcomplete => ?_, ?_⟩
  swap
  · rw [hdone, or_comm]
    refine or_congr_right ⟨fun hack => ?_, fun hack => ?_⟩
    · exact ⟨by rwa [hpacket], by rwa [hpacket], by rwa [hpacket], hopen⟩
    · have := hack.ack
      rwa [hpacket] at this
  rw [hpacket, padded_packHeader, ← hdone]
  unfold Connection.Complete at hcomplete ⊢
  rw [hcontents]
  by_cases hinOrder : h.seq = c.packHeader.ack
  · rw [if_pos hinOrder]
    by_cases hempty : payload = []
    · -- the empty last segment leaves the file as it is
      subst hempty
      have hnot : ¬ InOrderData (datagram h []) c := fun hdata => by
        have := hdata.payload
        simp at this
      rw [List.append_nil]
      exact iff_of_true (fun hwritten => hdone.mpr (Or.inr (hcomplete hwritten)))
        fun hdata => absurd hdata hnot
    · have hdata : InOrderData (datagram h payload) c := by
        refine ⟨by rwa [hpacket], by rwa [hpacket], by rwa [hpacket], hopen, ?_⟩
        have := List.length_pos_iff.mpr hempty
        rw [length_datagram]
        omega
      have happended : c.myfile.contents ++ payload ≠ [] := by simp [hempty]
      exact ⟨fun hnext _ => hnext happended, fun hnext _ => hnext hdata⟩
  · rw [if_neg hinOrder]
    refine iff_of_true (fun hwritten => hdone.mpr (Or.inr (hcomplete hwritten)))
      fun hdata => absurd hdata.seq ?_
    rwa [hpacket]

theorem answered_dataBranch {h : Header} {payload : Buffer} {c : Connection}
    (hfits : payload.length ≤ dataSize) (hflags : h.flags = ackFlag ∨ h.flags = 0)
    (hack : h.ack = 4322 ∨ h.ack = 0) (hid : h.id = c.packHeader.id) (hopen : c.isFin ≠ 1)
    (hfile : c.myfile.Ready)
    (hseq : c.packHeader.seq = 4321 ∨ c.packHeader.seq = 4322) :
    ∃ c' buf, dataBranch (padded h payload) (12 + payload.length) c = (c', [reply c' buf]) ∧
      c'.packHeader.flags = ackFlag ∧ Answered (datagram h payload) c c' := by
  have hpacket : receivePacket (datagram h payload) = padded h payload :=
    receivePacket_datagram h hfits
  have hnumber := seq_dataBranch (padded h payload) (12 + payload.length) hopen hseq hack
  rcases dataBranch_cases (padded h payload) (12 + payload.length) c with
    ⟨hfin, -⟩ | ⟨-, seq, heq⟩
  · exact absurd hfin hopen
  rw [heq] at hnumber
  have hvalue : seq = if h.ack = 4322 then 4322 else c.packHeader.seq := hnumber
  have hdone : seq = 4322 ↔ h.ack = 4322 ∨ c.packHeader.seq = 4322 := by
    rw [hvalue]
    split_ifs with hgreets <;> simp [hgreets]
  have hmyfile : (if h.seq = c.packHeader.ack then
      c.myfile.write (padded h payload).data (((12 + payload.length : Nat) : Int) - 12)
      else c.myfile) = { c.myfile with
        contents := if h.seq = c.packHeader.ack then c.myfile.contents ++ payload
          else c.myfile.contents } := by
    rw [write_padded hfile]
    split_ifs <;> rfl
  rw [padded_packHeader, hmyfile] at heq
  refine ⟨_, _, heq, rfl, rfl, rfl, rfl, ⟨hfile.isOpen, hfile.good⟩, ?_, ?_⟩
  · show seq = 4321 ∨ seq = 4322
    rw [hvalue]
    split_ifs
    · exact Or.inr rfl
    · exact hseq
  · exact progress_of_data hfits hflags hid hopen hdone rfl

/-! ## The joint invariant -/

structure Joined (host i k : Nat) (slot : Nat → Connection) (s : Session) : Prop where
  serves : Serves (inetAddr host) k slot s.server
  adopted : i < k
  greets : (slot i).packHeader.seq = 4321 ∨ (slot i).packHeader.seq = 4322
  ready : (slot i).isFin ≠ 1 → (slot i).myfile.Ready
  client : Joining i s.client
  toServer : ∀ bytes ∈ s.toServer, Utterance i (slot i).isFin bytes
  toClient : ∀ bytes ∈ s.toClient, (readHeader bytes).flags = ackFinFlag ∨
    (readHeader bytes).flags = finFlag → (slot i).isFin = 1

section Joined

variable {file : Buffer} {host i k : Nat} {slot : Nat → Connection} {s s' : Session}

theorem Joined.connection (h : Joined host i k slot s) : s.connection = some (slot i) :=
  h.serves.connection h.adopted h.client.idNum

theorem Joined.after_client (h : Joined host i k slot s) (hserver : s'.server = s.server)
    (hclient : Joining i s'.client)
    (hto : ∀ bytes ∈ s'.toServer, bytes ∈ s.toServer ∨ Utterance i (slot i).isFin bytes)
    (hfrom : s'.toClient ⊆ s.toClient) : Joined host i k slot s' where
  serves := hserver ▸ h.serves
  adopted := h.adopted
  greets := h.greets
  ready := h.ready
  client := hclient
  toServer := fun bytes hbytes => (hto bytes hbytes).elim (h.toServer bytes) id
  toClient := fun bytes hbytes => h.toClient bytes (hfrom hbytes)

theorem Joined.after_update (h : Joined host i k slot s) {bytes : Buffer}
    (hs : s.Answers (inetAddr host) bytes s') {c : Connection} {sends : List Send}
    (hreceive : (s.server.receive (inetAddr host) bytes).1.allConnection =
        tableOf k (Function.update slot i c) ∧
      (s.server.receive (inetAddr host) bytes).2 = sends)
    (hid : c.packHeader.id = (slot i).packHeader.id) (hsource : c.srcAddr = (slot i).srcAddr)
    (hfin : (slot i).isFin = 1 → c.isFin = 1)
    (hgreets : c.packHeader.seq = 4321 ∨ c.packHeader.seq = 4322)
    (hready : c.isFin ≠ 1 → c.myfile.Ready)
    (hsends : ∀ send ∈ sends, (readHeader send.2).flags = ackFinFlag ∨
      (readHeader send.2).flags = finFlag → c.isFin = 1) :
    Joined host i k (Function.update slot i c) s' := by
  have hself : Function.update slot i c i = c := Function.update_self ..
  refine
    { serves := h.serves.update (hs.server ▸ hreceive.1) (hid.trans (h.serves.ids i h.adopted))
        (hsource.trans (h.serves.owners i h.adopted))
      adopted := h.adopted
      greets := by rwa [hself]
      ready := by rwa [hself]
      client := hs.client ▸ h.client
      toServer := ?_
      toClient := ?_ }
  · intro out hout
    rw [hself]
    exact (h.toServer out (hs.toServer hout)).mono hfin
  · intro out hout hflags
    rw [hself]
    rw [hs.toClient, hreceive.2, List.mem_append] at hout
    rcases hout with hold | hnew
    · exact hfin (h.toClient out hold hflags)
    · exact hsends _ (sendsTo_subset hnew) hflags

theorem Joined.receive_syn (h : Joined host i k slot s)
    (hs : s.Answers (inetAddr host) (datagram ⟨12345, 0, 0, synFlag⟩ noData) s') :
    ∃ k' slot', Joined host i k' slot' s' ∧ slot' i = slot i := by
  obtain ⟨k', slot', hk, hold, -, hserves, hsends⟩ := Confundo.receive_syn h.serves
  have hself : slot' i = slot i := hold i h.adopted
  refine ⟨k', slot',
    { serves := hs.server ▸ hserves
      adopted := h.adopted.trans_le hk
      greets := by rw [hself]; exact h.greets
      ready := by rw [hself]; exact h.ready
      client := hs.client ▸ h.client
      toServer := ?_
      toClient := ?_ }, hself⟩
  · intro bytes hbytes
    rw [hself]
    exact h.toServer bytes (hs.toServer hbytes)
  · intro bytes hbytes hflags
    rw [hself]
    rw [hs.toClient, List.mem_append] at hbytes
    rcases hbytes with hkept | hnew
    · exact h.toClient bytes hkept hflags
    · have hreply : ServerHeader [] k' 0 0 (readHeader bytes) := .greeting (hsends bytes hnew).2
      exact absurd (hreply.fin_of_flags hflags) (by decide)

theorem Joined.receive_closed (h : Joined host i k slot s) (hclosed : (slot i).isFin = 1)
    {seq ack : UInt32} {flags : UInt16} {payload : Buffer} (hfits : payload.length ≤ dataSize)
    (hflags : flags = ackFlag ∨ flags = 0)
    (hs : s.Answers (inetAddr host)
      (datagram ⟨seq, ack, UInt16.ofNat (i + 1), flags⟩ payload) s') :
    ∃ slot', Joined host i k slot' s' ∧
      Progress (datagram ⟨seq, ack, UInt16.ofNat (i + 1), flags⟩ payload) (slot i) (slot' i) := by
  have hreceive := h.serves.receive_data (h := ⟨seq, ack, UInt16.ofNat (i + 1), flags⟩)
    (inetAddr host) h.adopted hfits rfl hflags (dataBranch_closed hclosed)
  refine ⟨_, h.after_update hs hreceive rfl rfl id h.greets (fun hopen => absurd hclosed hopen)
    (by simp), ?_⟩
  rw [Function.update_self]
  exact progress_of_kept (fun _ => hclosed) (OutFile.contents_close _) rfl

theorem Joined.receive_fin (h : Joined host i k slot s) {seq : UInt32}
    (hs : s.Answers (inetAddr host)
      (datagram ⟨seq, 0, UInt16.ofNat (i + 1), finFlag⟩ noData) s') :
    ∃ slot', Joined host i k slot' s' ∧
      Progress (datagram ⟨seq, 0, UInt16.ofNat (i + 1), finFlag⟩ noData) (slot i) (slot' i) := by
  obtain ⟨ack, hbranch⟩ :=
    finBranch_eq (padded ⟨seq, 0, UInt16.ofNat (i + 1), finFlag⟩ noData) (slot i)
  have hreceive := h.serves.receive_fin (inetAddr host) h.adopted length_noData.le rfl rfl hbranch
  refine ⟨_, h.after_update hs hreceive rfl rfl (fun _ => rfl) h.greets
    (fun hopen => absurd rfl hopen) (fun _ _ _ => rfl), ?_⟩
  rw [Function.update_self]
  refine progress_of_kept (fun hflags => ?_) rfl rfl
  rw [receivePacket_datagram _ length_noData.le] at hflags
  exact absurd (show finFlag = ackFlag ∨ finFlag = 0 from hflags) (by decide)

theorem Joined.receive_open (h : Joined host i k slot s) (hopen : (slot i).isFin ≠ 1)
    {seq ack : UInt32} {flags : UInt16} {payload : Buffer} (hack : ack = 4322 ∨ ack = 0)
    (hflags : flags = ackFlag ∨ flags = 0) (hfits : payload.length ≤ dataSize)
    (hs : s.Answers (inetAddr host)
      (datagram ⟨seq, ack, UInt16.ofNat (i + 1), flags⟩ payload) s') :
    ∃ slot', Joined host i k slot' s' ∧
      Progress (datagram ⟨seq, ack, UInt16.ofNat (i + 1), flags⟩ payload) (slot i) (slot' i) := by
  obtain ⟨c', buf, hbranch, hreply, hanswered⟩ :=
    answered_dataBranch (h := ⟨seq, ack, UInt16.ofNat (i + 1), flags⟩) hfits hflags hack
      (h.serves.ids i h.adopted).symm hopen (h.ready hopen) h.greets
  have hreceive := h.serves.receive_data (inetAddr host) h.adopted hfits rfl hflags hbranch
  refine ⟨_, h.after_update hs hreceive hanswered.id hanswered.srcAddr
    (fun hclosed => absurd hclosed hopen) hanswered.greets ?_ ?_, ?_⟩
  · exact fun _ => hanswered.ready
  · intro send hsend hfin
    rw [List.mem_singleton.mp hsend, reply, readHeader_datagram, hreply] at hfin
    exact absurd hfin (by decide)
  · rw [Function.update_self]
    exact hanswered.progress

theorem Joined.answers (h : Joined host i k slot s) {bytes : Buffer} (hbytes : bytes ∈ s.toServer)
    (hs : s.Answers (inetAddr host) bytes s') :
    ∃ k' slot', Joined host i k' slot' s' ∧ Progress bytes (slot i) (slot' i) := by
  cases h.toServer bytes hbytes with
  | syn =>
      obtain ⟨k', slot', hnext, hsame⟩ := h.receive_syn hs
      refine ⟨k', slot', hnext, ?_⟩
      rw [hsame]
      refine progress_of_kept (fun hflags => ?_) rfl rfl
      rw [receivePacket_datagram _ length_noData.le] at hflags
      exact absurd (show synFlag = ackFlag ∨ synFlag = 0 from hflags) (by decide)
  | segment hack hflags hfits =>
      by_cases hclosed : (slot i).isFin = 1
      · exact ⟨k, h.receive_closed hclosed hfits hflags hs⟩
      · exact ⟨k, h.receive_open hclosed hack hflags hfits hs⟩
  | finish => exact ⟨k, h.receive_fin hs⟩
  | lastAck hfin => exact ⟨k, h.receive_closed hfin length_noData.le (Or.inl rfl) hs⟩

theorem Joined.step (h : Joined host i k slot s) {action : Action}
    (hstep : Session.step file (inetAddr host) s action = some s') :
    ∃ k' slot', Joined host i k' slot' s' := by
  cases Session.moves_of_step hstep with
  | client hevent hclientStep hclient hserver hto hfrom =>
      obtain ⟨hnext, hout⟩ :=
        h.client.step (fun bytes heq => h.toClient bytes (hevent bytes heq)) hclientStep
      rw [← hclient] at hnext
      refine ⟨k, slot, h.after_client hserver hnext (fun bytes hbytes => ?_) hfrom⟩
      rw [hto, List.mem_append] at hbytes
      exact hbytes.imp id (hout bytes)
  | server hbytes hs =>
      obtain ⟨k', slot', hnext, -⟩ := h.answers hbytes hs
      exact ⟨k', slot', hnext⟩
  | network hclient hserver hto hfrom =>
      exact ⟨k, slot, h.after_client hserver (hclient ▸ h.client)
        (fun bytes hbytes => Or.inl (hto hbytes)) hfrom⟩

theorem Greeting.joins {slot : Nat → Connection} (hgreet : Greeting host k slot s)
    (hadopted : Adopted file host i k slot 0 s') (hclient : s'.client.ackNum = 4322)
    (hto : s'.toServer ⊆ s.toServer) : Joined host i k slot s' where
  serves := hadopted.serves
  adopted := hadopted.adopted
  greets := by
    rw [hgreet.fresh i hadopted.adopted]
    exact Or.inl rfl
  ready := by
    rw [hgreet.fresh i hadopted.adopted]
    exact fun _ => ⟨rfl, rfl⟩
  client := ⟨hadopted.client.idNum, fun _ => Or.inl hclient, hadopted.client.flags,
    hadopted.client.greeted⟩
  toServer := by
    intro bytes hbytes
    rw [hgreet.toServer bytes (hto hbytes)]
    exact .syn
  toClient := fun bytes hbytes hflags => (hadopted.toClient bytes hbytes).2.fin_of_flags hflags

end Joined

/-! ## Every run -/

section

variable {file : Buffer} {host : Nat} {s s' : Session}

def Session.Introduced (host : Nat) (s : Session) : Prop :=
  (∃ k slot, Greeting host k slot s) ∨ ∃ i k slot, Joined host i k slot s

theorem Session.server_of_not_delivered {addr : SockAddr} {action : Action}
    (h : Session.step file addr s action = some s') (hnone : s.delivered action = none) :
    s'.server = s.server := by
  cases action with
  | client event =>
      simp only [Session.step] at h
      split_ifs at h
      obtain ⟨next, -, rfl⟩ := Option.map_eq_some_iff.mp h
      rfl
  | clientReceive i =>
      obtain ⟨bytes, -, hrest⟩ := Option.bind_eq_some_iff.mp h
      obtain ⟨next, -, rfl⟩ := Option.map_eq_some_iff.mp hrest
      rfl
  | serverReceive i =>
      obtain ⟨bytes, hbytes, -⟩ := Option.map_eq_some_iff.mp h
      exact absurd (hnone.symm.trans hbytes) (by simp)
  | loseToServer i | loseToClient i =>
      simp only [Session.step] at h
      split_ifs at h
      obtain rfl := Option.some.inj h
      rfl
  | copyToServer i | copyToClient i =>
      obtain ⟨bytes, -, rfl⟩ := Option.map_eq_some_iff.mp h
      rfl

theorem Session.answers_of_delivered {addr : SockAddr} {action : Action} {bytes : Buffer}
    (h : Session.step file addr s action = some s') (hbytes : s.delivered action = some bytes) :
    bytes ∈ s.toServer ∧ s.Answers addr bytes s' := by
  cases action with
  | serverReceive i =>
      obtain ⟨bytes', hbytes', rfl⟩ := Option.map_eq_some_iff.mp h
      obtain rfl : bytes' = bytes := Option.some.inj (hbytes'.symm.trans hbytes)
      exact ⟨List.mem_of_getElem? hbytes, rfl, rfl, List.eraseIdx_subset, rfl⟩
  | client | clientReceive | loseToServer | loseToClient | copyToServer | copyToClient =>
      simp [Session.delivered] at hbytes

theorem flags_of_greeting {k : Nat} {slot : Nat → Connection} (h : Greeting host k slot s)
    {action : Action} (hstep : Session.step file (inetAddr host) s action = some s')
    {bytes : Buffer} (hbytes : bytes ∈ s.delivered action) :
    (receivePacket bytes).packHeader.flags = synFlag := by
  obtain ⟨hmem, -⟩ := Session.answers_of_delivered hstep hbytes
  rw [h.toServer bytes hmem, receivePacket_datagram _ length_noData.le]

inductive Session.Progresses (s s' : Session) (action : Action) : Prop
  | greeting
      (hbefore : ∀ c ∈ s.connection, c.myfile.contents = [] ∧ c.packHeader.seq ≠ 4322)
      (hafter : ∀ c ∈ s'.connection, c.myfile.contents = [] ∧ c.packHeader.seq ≠ 4322)
      (hsyn : ∀ bytes ∈ s.delivered action, (receivePacket bytes).packHeader.flags = synFlag)
  | quiet (hnone : s.delivered action = none) (hsame : s'.connection = s.connection)
  | data {bytes : Buffer} {c c' : Connection} (hbytes : s.delivered action = some bytes)
      (hc : s.connection = some c) (hc' : s'.connection = some c') (h : Progress bytes c c')

theorem Session.Introduced.step (h : s.Introduced host) {action : Action}
    (hstep : Session.step file (inetAddr host) s action = some s') :
    s'.Introduced host ∧ s.Progresses s' action := by
  rcases h with ⟨k, slot, hgreet⟩ | ⟨i, k, slot, hjoined⟩
  · have hsyn : ∀ bytes ∈ s.delivered action,
        (receivePacket bytes).packHeader.flags = synFlag := fun _ => flags_of_greeting hgreet hstep
    rcases hgreet.step hstep with ⟨k', slot', hnext⟩ | ⟨i, hadopted, hclient, hto⟩
    · exact ⟨Or.inl ⟨k', slot', hnext⟩,
        .greeting (fun _ => hgreet.connection) (fun _ => hnext.connection) hsyn⟩
    · have hack : s'.client.ackNum = 4322 := by
        rcases hclient with hclient | hclient <;> rw [hclient] <;> rfl
      have hnext := hgreet.joins hadopted hack hto
      refine ⟨Or.inr ⟨i, k, slot, hnext⟩, .greeting (fun _ => hgreet.connection) ?_ hsyn⟩
      rw [hnext.connection, hgreet.fresh i hadopted.adopted]
      rintro c ⟨⟩
      exact ⟨rfl, (by decide : (4321 : UInt32) ≠ 4322)⟩
  · cases hbytes : s.delivered action with
    | none =>
        obtain ⟨k', slot', hnext⟩ := hjoined.step hstep
        refine ⟨Or.inr ⟨i, k', slot', hnext⟩, .quiet hbytes ?_⟩
        unfold Session.connection
        rw [Session.server_of_not_delivered hstep hbytes, hnext.client.idNum, hjoined.client.idNum]
    | some bytes =>
        obtain ⟨hmem, hanswers⟩ := Session.answers_of_delivered hstep hbytes
        obtain ⟨k', slot', hnext, hprogress⟩ := hjoined.answers hmem hanswers
        exact ⟨Or.inr ⟨i, k', slot', hnext⟩,
          .data hbytes hjoined.connection hnext.connection hprogress⟩

/-- One step keeps the handshake in order exactly when in-order data comes with the
acknowledgement or after it. -/
theorem Session.Progresses.handshakeDone_iff {action : Action} (h : s.Progresses s' action)
    (hdone : s.HandshakeDone) : s'.HandshakeDone ↔ s.AcknowledgedFirst action := by
  cases h with
  | greeting _ hafter hsyn =>
      refine iff_of_true (fun c hc hcontents => absurd (hafter c hc).1 hcontents) ?_
      intro bytes hbytes c _ hdata
      have hflags := hdata.flags
      rw [hsyn bytes hbytes] at hflags
      exact absurd hflags (by decide)
  | quiet hnone hsame =>
      refine iff_of_true ?_ (by simp [Session.AcknowledgedFirst, hnone])
      unfold Session.HandshakeDone
      rwa [hsame]
  | data hbytes hc hc' hprogress =>
      have hcomplete := hprogress.complete (hdone _ hc)
      simpa [Session.HandshakeDone, Session.AcknowledgedFirst, hbytes, hc, hc'] using hcomplete

/-- The acknowledgement of the `SYN`-`ACK` does not come for the connection. -/
def Session.Unacknowledged (s : Session) (action : Action) : Prop :=
  ∀ bytes ∈ s.delivered action, ∀ c ∈ s.connection, ¬ AcksGreeting bytes c

theorem Session.Progresses.seq_iff {action : Action} (h : s.Progresses s' action) :
    (∀ c ∈ s'.connection, c.packHeader.seq ≠ 4322) ↔
      (∀ c ∈ s.connection, c.packHeader.seq ≠ 4322) ∧ s.Unacknowledged action := by
  cases h with
  | greeting hbefore hafter hsyn =>
      refine iff_of_true (fun c hc => (hafter c hc).2) ⟨fun c hc => (hbefore c hc).2, ?_⟩
      intro bytes hbytes c _ hack
      have hflags := hack.flags
      rw [hsyn bytes hbytes] at hflags
      exact absurd hflags (by decide)
  | quiet hnone hsame => simp [Session.Unacknowledged, hnone, hsame]
  | data hbytes hc hc' hprogress =>
      simp [Session.Unacknowledged, hbytes, hc, hc', hprogress.greeted, not_or]

theorem introduced_start (host : Nat) : Session.start.Introduced host :=
  Or.inl ⟨0, _, greeting_start host fun _ => Connection.unused⟩

/-- The server's own number is 4322 once it has handled the acknowledgement of its
`SYN`-`ACK`, and not before. -/
theorem seq_eq_iff_acknowledged {actions : List Action} {c : Connection}
    (hrun : run (Session.step file (inetAddr host)) Session.start actions = some s)
    (hc : s.connection = some c) :
    c.packHeader.seq = 4322 ↔ ∃ before action after t, actions = before ++ action :: after ∧
      run (Session.step file (inetAddr host)) Session.start before = some t ∧
      ∃ bytes ∈ t.delivered action, ∃ c ∈ t.connection, AcksGreeting bytes c := by
  have hiff : (∀ c ∈ s.connection, c.packHeader.seq ≠ 4322) ↔
      (∀ c ∈ Session.start.connection, c.packHeader.seq ≠ 4322) ∧
        AlongRun (Session.step file (inetAddr host)) (fun s action _ => s.Unacknowledged action)
          Session.start actions := iff_alongRun (I := fun s => s.Introduced host)
    (P := fun s : Session => ∀ c ∈ s.connection, c.packHeader.seq ≠ 4322)
    (fun _ _ _ h _ hstep => (h.step hstep).1) (fun _ _ _ h _ hstep => (h.step hstep).2.seq_iff)
    (fun _ _ => trivial) (introduced_start host) hrun
  have hstart : ∀ c ∈ Session.start.connection, c.packHeader.seq ≠ 4322 := by decide +kernel
  have hnot : c.packHeader.seq = 4322 ↔ ¬ ∀ c ∈ s.connection, c.packHeader.seq ≠ 4322 := by
    simp [hc]
  rw [hnot, hiff, and_iff_right hstart, not_alongRun_iff hrun]
  have hbad : ∀ (t : Session) action, ¬ t.Unacknowledged action ↔
      ∃ bytes ∈ t.delivered action, ∃ c ∈ t.connection, AcksGreeting bytes c := by
    simp [Session.Unacknowledged]
  constructor
  · rintro ⟨before, action, after, t, -, hsplit, hbefore, -, hacks⟩
    exact ⟨before, action, after, t, hsplit, hbefore, (hbad t action).mp hacks⟩
  · rintro ⟨before, action, after, t, hsplit, hbefore, hacks⟩
    subst hsplit
    obtain ⟨t', hstep⟩ := exists_step_of_run hrun hbefore
    exact ⟨before, action, after, t, t', rfl, hbefore, hstep, (hbad t action).mpr hacks⟩

/-- Along every run, whatever the network loses, copies and reorders, data is appended only
after the handshake exactly as long as the first data that arrives in order comes with the
client's acknowledgement or after it. -/
theorem handshake_before_data_iff (file : Buffer) (host : Nat) (actions : List Action) :
    AlongRun (Session.step file (inetAddr host)) (fun _ _ s => s.HandshakeDone)
        Session.start actions ↔
      AlongRun (Session.step file (inetAddr host)) (fun s action _ => s.AcknowledgedFirst action)
        Session.start actions := by
  have hempty : ∀ c ∈ Session.start.connection, c.myfile.contents = [] := by decide +kernel
  have hdone : Session.start.HandshakeDone := fun c hc hcontents => absurd (hempty c hc) hcontents
  refine alongRun_congr (I := fun s => s.Introduced host ∧ s.HandshakeDone) ?_ ?_
    (fun _ _ => trivial) ⟨introduced_start host, hdone⟩
  · rintro s action s' ⟨hs, hdone⟩ - hstep hfirst
    obtain ⟨hnext, hprogresses⟩ := hs.step hstep
    exact ⟨hnext, (hprogresses.handshakeDone_iff hdone).mpr hfirst⟩
  · rintro s action s' ⟨hs, hdone⟩ - hstep
    exact (hs.step hstep).2.handshakeDone_iff hdone

/-- The only segment is lost once; its retransmission acknowledges nothing. -/
def lostIntroductionRun : List Action :=
  [.client .sendSyn, .serverReceive 0, .clientReceive 0, .client (.iterate false),
    .loseToServer 0, .client .nothing, .client (.iterate true), .serverReceive 0]

/-- The data of a retransmission is appended while the server's own number is still that of its `SYN`-`ACK`. -/
theorem data_before_handshake :
    ∃ s c, Session.Reachable [7] (inetAddr 0) s ∧ s.connection = some c ∧
      c.myfile.contents = [7] ∧ c.packHeader.seq = 4321 ∧ ¬ s.HandshakeDone := by
  have hrun : (run (Session.step [7] (inetAddr 0)) Session.start lostIntroductionRun).any
      (fun s => s.connection.any fun c =>
        c.myfile.contents = [7] ∧ c.packHeader.seq = 4321) = true := by
    decide +kernel
  obtain ⟨s, hs, hstate⟩ := (Option.any_eq_true _ _).mp hrun
  obtain ⟨c, hc, hfields⟩ := (Option.any_eq_true _ _).mp hstate
  obtain ⟨hcontents, hseq⟩ := of_decide_eq_true hfields
  refine ⟨s, c, reach_of_run (fun _ _ => trivial) hs, hc, hcontents, hseq, fun hdone => ?_⟩
  have hclaim := hdone c hc (by rw [hcontents]; decide)
  rw [hseq] at hclaim
  exact absurd hclaim (by decide)

end

end Cs118.Confundo
