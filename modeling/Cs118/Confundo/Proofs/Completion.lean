import Cs118.Confundo.Proofs.InOrder
import Cs118.Confundo.Proofs.Window
/-!
# A transfer in order can always be finished

Over a network that keeps the order no state is a dead end: until the client has left its
loop some datagram can be delivered or some iteration done that brings the end nearer, and
after it the goodbye is in flight or can be sent once more.
-/

namespace Cs118.Confundo

open Cs118.Lib.Bytes
open Cs118.Lib.Run

/-! ## The client's room -/

section Room

variable {file : Buffer} {c : Client}

/-- The loop has something outstanding or may send, and waits with nothing outstanding at
the end of the file only. -/
structure CanGoOn (c : Client) : Prop where
  room : c.inTransfer → 0 < c.cwndLogs.length + c.cwndSpace.toNat
  idle : c.phase = .loopRecv → c.cwndLogs = [] → c.myfile.eof = true

theorem canGoOn_of_late (hlate : ¬ c.inTransfer) : CanGoOn c where
  room := fun hin => absurd hin hlate
  idle := fun hphase => absurd (Or.inr hphase) hlate

theorem CanGoOn.endIteration (h : 0 < c.cwndLogs.length + c.cwndSpace.toNat) :
    CanGoOn (endIteration c).1 := by
  unfold Confundo.endIteration
  split_ifs
  · exact canGoOn_of_late (by simp [Client.inTransfer])
  · exact ⟨fun _ => h, by simp⟩

variable (file) in
/-- With room at the top of the loop, an iteration that logs nothing is at the end of the
file. -/
theorem CanGoOn.iterate (h : 0 < c.cwndLogs.length + c.cwndSpace.toNat) :
    CanGoOn { (sendNext file c).1 with phase := .loopRecv } where
  room := fun _ => by
    show 0 < (sendNext file c).1.cwndLogs.length + (sendNext file c).1.cwndSpace.toNat
    rwa [sendNext_credit]
  idle := by
    intro _ hlogs
    by_cases hcredit : 0 < c.cwndSpace ∧ c.myfile.eof = false
    · unfold sendNext at hlogs
      rw [if_pos hcredit] at hlogs
      simp at hlogs
    · rw [sendNext_of_no_credit hcredit] at hlogs ⊢
      have hlogged : c.cwndLogs.length = 0 := by simpa using hlogs
      have hspace : 0 < c.cwndSpace := UInt32.lt_iff_toNat_lt.mpr (by simp; omega)
      simpa using fun heof => hcredit ⟨hspace, heof⟩

/-- An acknowledgement gives back at least the credit of what it covers. -/
theorem room_onAck (hbounds : WindowBounds c) (hwithin : WithinWindow c)
    (h : 0 < c.cwndLogs.length + c.cwndSpace.toNat) (ack : UInt32) :
    0 < (onAck c ack).cwndLogs.length + (onAck c ack).cwndSpace.toNat := by
  unfold onAck
  cases herase : eraseThrough ack c.cwndLogs with
  | none => exact h
  | some rest =>
      have hbounds' : WindowBounds { c with cwndLogs := rest } := hbounds.of_fields rfl rfl
      obtain ⟨added, gain, hadded, -, hspace, hgain⟩ := growWindow_gain hbounds'
      have hhigh := hbounds.high
      unfold WithinWindow at hwithin
      simp only at hspace hgain
      rw [hspace, UInt32.toNat_add]
      omega

theorem enterTransfer_canGoOn (hlow : 512 ≤ (enterTransfer file c).cwnd.toNat) :
    CanGoOn (enterTransfer file c) := by
  rw [(enterTransfer_window file c).1] at hlow
  unfold enterTransfer
  split_ifs
  · exact canGoOn_of_late (by simp [Client.inTransfer])
  · refine ⟨fun _ => ?_, by simp⟩
    show 0 < c.cwndLogs.length + (c.cwnd / 512).toNat
    have hpacket : (c.cwnd / 512).toNat = c.cwnd.toNat / 512 := UInt32.toNat_div _ _
    omega

theorem onSynReply_canGoOn (hphase : c.phase = .synWait) {header : Header}
    (hlow : 512 ≤ (onSynReply file c header).cwnd.toNat) :
    CanGoOn (onSynReply file c header) := by
  unfold onSynReply at hlow ⊢
  by_cases hreply : header.ack = 12346 ∨ header.flags = finFlag
  · rw [if_pos hreply] at hlow ⊢
    by_cases hsynAck : header.flags = synAckFlag ∧ header.seq = 4321
    · rw [if_pos hsynAck] at hlow ⊢
      exact enterTransfer_canGoOn hlow
    · rw [if_neg hsynAck]
      exact canGoOn_of_late (by simp [Client.inTransfer])
  · rw [if_neg hreply]
    exact canGoOn_of_late (by simp [Client.inTransfer, hphase])

theorem CanGoOn.step (h : CanGoOn c) (hwindow : WindowOk file c) {event : ClientEvent}
    {next : Client × List Buffer} (hstep : c.step file event = some next)
    (htimeout : event ≠ .iterate true) : CanGoOn next.1 := by
  by_cases hgreeting : c.phase = .synSend ∨ c.phase = .synWait
  · have hnext := hwindow.step hstep (fun heq => absurd heq htimeout)
    cases Client.greets_of_step hgreeting hstep with
    | sendSyn _ | giveUp _ | synTimeout _ => exact canGoOn_of_late (by simp [Client.inTransfer])
    | reply hphase => exact onSynReply_canGoOn hphase hnext.bounds.low
  · cases Client.moves_of_step (not_or.mp hgreeting) hstep with
    | @iterate timeout hphase henabled =>
        cases timeout with
        | true => exact absurd rfl htimeout
        | false => exact CanGoOn.iterate file (h.room (Or.inl hphase))
    | ack hphase =>
        have hin : c.inTransfer := Or.inr hphase
        exact CanGoOn.endIteration
          (room_onAck hwindow.bounds (hwindow.within hin) (h.room hin) _)
    | nothing hphase => exact CanGoOn.endIteration (h.room (Or.inr hphase))
    | giveUp _ => exact canGoOn_of_late (by simp [Client.inTransfer])
    | resendFin _ => exact h
    | finReply hphase =>
        unfold onFinReply
        split_ifs <;> exact canGoOn_of_late (by simp [Client.inTransfer, hphase])
    | timeWait hphase =>
        unfold onTimeWait
        split_ifs <;> exact canGoOn_of_late (by simp [Client.inTransfer, hphase])
    | timeUp _ => exact canGoOn_of_late (by simp [Client.inTransfer])

end Room

section Steps

variable {file : Buffer} {addr : SockAddr} {host : Nat} {s s' : Session}

/-! ## Steps in order -/

theorem Session.step_of_inOrderMove (h : Session.InOrderMove file addr s s') :
    ∃ action : Action, action.inOrder ∧ Session.step file addr s action = some s' := by
  cases h with
  | @client event next hevent hsyn htimeout hstep hs' =>
      refine ⟨.client event, ?_, ?_⟩
      · cases event with
        | synTimeout => exact absurd rfl hsyn
        | iterate timeout =>
            cases timeout with
            | true => exact absurd rfl htimeout
            | false => rfl
        | _ => trivial
      · have hreceive : event.isReceive = false := by
          cases event with
          | receive bytes => exact absurd rfl (hevent bytes)
          | _ => rfl
        simp [Session.step, hreceive, hstep, hs']
  | clientReceive hfrom hstep hs' =>
      refine ⟨.clientReceive 0, rfl, ?_⟩
      simp [Session.step, hfrom, hstep, hs']
  | serverReceive hto hs' =>
      refine ⟨.serverReceive 0, rfl, ?_⟩
      simp [Session.step, hto, hs']

theorem Session.ReachableInOrder.move (h : Session.ReachableInOrder file addr s)
    (hmove : Session.InOrderMove file addr s s') : Session.ReachableInOrder file addr s' := by
  obtain ⟨action, haction, hstep⟩ := Session.step_of_inOrderMove hmove
  exact Reach.tail h haction hstep

theorem canGoOn_of_reachable (h : Session.ReachableInOrder file addr s) :
    WindowOk file s.client ∧ CanGoOn s.client := by
  refine Reach.invariant (P := fun s => WindowOk file s.client ∧ CanGoOn s.client) ?_ ?_ h
  · intro s action s' hs haction hstep
    obtain ⟨hwindow, hroom⟩ := hs
    have hclient : ∀ {event : ClientEvent} {next : Client × List Buffer},
        event ≠ .iterate true → s.client.step file event = some next →
          WindowOk file next.1 ∧ CanGoOn next.1 := fun htimeout hnext =>
      ⟨hwindow.step hnext fun heq => absurd heq htimeout, hroom.step hwindow hnext htimeout⟩
    cases Session.inOrderMove_of_step haction hstep with
    | client _ _ htimeout hnext hs' => exact hs' ▸ hclient htimeout hnext
    | clientReceive _ hnext hs' => exact hs' ▸ hclient (by simp) hnext
    | serverReceive _ hs' => exact hs' ▸ ⟨hwindow, hroom⟩
  · refine ⟨⟨clientOk_of_greeting (Or.inl rfl) rfl, ⟨by decide, by decide, by decide⟩, ?_⟩, ?_⟩
    · simp [Session.start, Client.start, Client.inTransfer]
    · exact canGoOn_of_late (by simp [Session.start, Client.start, Client.inTransfer])

/-! ## What the server sends back -/

theorem scanId_sends_le {n : Nat} {update : Connection → Connection × List Send}
    (h : ∀ c, (update c).2.length ≤ n) (id : UInt16) (table : List Connection) :
    (scanId id update table).2.length ≤ n := by
  induction table with
  | nil => exact Nat.zero_le n
  | cons c rest ih =>
      unfold scanId
      split_ifs
      · exact h c
      · exact ih

theorem receive_data_sends_le (server : Server) {h : Header} {payload : Buffer}
    (hfits : payload.length ≤ dataSize) (hflags : h.flags = ackFlag ∨ h.flags = 0) :
    (server.receive addr (datagram h payload)).2.length ≤ 1 := by
  have hsyn : h.flags ≠ synFlag := by
    rcases hflags with hf | hf <;> rw [hf] <;> decide
  have hdispatch : dispatch addr (padded h payload) (12 + payload.length) server.allConnection =
      scanId h.id (dataBranch (padded h payload) (12 + payload.length)) server.allConnection := by
    unfold dispatch
    rw [padded_packHeader, if_neg hsyn, if_pos hflags]
  have hpacket : receivePacket (datagram h payload) = padded h payload :=
    receivePacket_datagram h hfits
  simp only [Server.receive, hpacket, receivedBytes_datagram h hfits, hdispatch]
  refine scanId_sends_le (fun c => ?_) _ _
  unfold dataBranch
  split_ifs <;> simp

theorem length_sendsTo_le (addr : SockAddr) (sends : List Send) :
    (sendsTo addr sends).length ≤ sends.length := by
  unfold sendsTo
  rw [List.length_map]
  exact List.length_filter_le _ _

/-! ## Towards the end of the loop -/

def unread (file : Buffer) (c : Client) : Nat :=
  file.length - c.myfile.pos + if c.myfile.eof then 0 else 1

/-- How far the client is from the next `recvfrom` of its loop. -/
def Phase.distance : Phase → Nat
  | .synSend => 5
  | .synWait => 1
  | .loopTop => 1
  | _ => 0

/-- A segment weighs more before it is sent, on its way and acknowledged, in this order. -/
def Session.remaining (file : Buffer) (s : Session) : Nat :=
  4 * unread file s.client + 3 * s.toServer.length + 2 * s.toClient.length +
    s.client.phase.distance

def Client.leaving (c : Client) : Prop :=
  c.phase = .finWait ∨ c.phase = .timeWait ∨ c.phase = .closed

def Session.Advances (file : Buffer) (addr : SockAddr) (s : Session) : Prop :=
  ∃ s', Session.InOrderMove file addr s s' ∧ s'.client.phase ≠ .failed ∧
    (s'.client.leaving ∨ s'.remaining file < s.remaining file)

theorem advances_client {event : ClientEvent} {next : Client × List Buffer}
    (hevent : ∀ bytes, event ≠ .receive bytes) (hsyn : event ≠ .synTimeout)
    (htimeout : event ≠ .iterate true) (hstep : s.client.step file event = some next)
    (halive : next.1.phase ≠ .failed)
    (hnearer : next.1.leaving ∨
      4 * unread file next.1 + 3 * next.2.length + next.1.phase.distance <
        4 * unread file s.client + s.client.phase.distance) :
    s.Advances file addr := by
  refine ⟨_, .client hevent hsyn htimeout hstep rfl, halive, hnearer.imp_right fun hlt => ?_⟩
  simp only [Session.remaining, List.length_append]
  omega

theorem advances_clientReceive {bytes : Buffer} {rest : List Buffer}
    {next : Client × List Buffer} (hfrom : s.toClient = bytes :: rest)
    (hstep : s.client.step file (.receive bytes) = some next) (halive : next.1.phase ≠ .failed)
    (hnearer : next.1.leaving ∨
      4 * unread file next.1 + 3 * next.2.length + next.1.phase.distance <
        4 * unread file s.client + s.client.phase.distance + 2) :
    s.Advances file addr := by
  refine ⟨_, .clientReceive hfrom hstep rfl, halive, hnearer.imp_right fun hlt => ?_⟩
  simp only [Session.remaining, List.length_append, hfrom, List.length_cons]
  omega

theorem advances_serverReceive {bytes : Buffer} {rest : List Buffer}
    (hto : s.toServer = bytes :: rest)
    (hsends : (sendsTo addr (s.server.receive addr bytes).2).length ≤ 1)
    (halive : s.client.phase ≠ .failed) : s.Advances file addr := by
  refine ⟨_, .serverReceive hto rfl, halive, Or.inr ?_⟩
  simp only [Session.remaining, hto, List.length_append, List.length_cons]
  omega

theorem unread_afterSend {c : Client} (h : InStep file c) (heof : c.myfile.eof = false) :
    unread file (afterSend file c) < unread file c := by
  have hlength := length_chunk file c.myfile.pos
  have hle := h.boundary.1
  have hnew : unread file (afterSend file c) = file.length - (c.myfile.pos +
      (chunk file c.myfile.pos).length) +
        if (chunk file c.myfile.pos).length < dataSize then 0 else 1 := by
    simp [unread, afterSend, endOf]
  have hold : unread file c = file.length - c.myfile.pos + 1 := by simp [unread, heof]
  rw [hnew, hold]
  unfold dataSize at hlength ⊢
  split_ifs <;> omega

/-! ## The loop -/

section Loop

variable {p a : Nat} {slot : Nat → Connection} {acked sent : List Logger}

theorem Flowing.advances_segment (h : Flowing file host p a slot acked sent s)
    (halive : s.client.phase ≠ .failed) (hto : s.toServer ≠ []) :
    s.Advances file (inetAddr host) := by
  obtain ⟨bytes, rest, hcons⟩ := List.exists_cons_of_ne_nil hto
  have hsegments := h.segments
  rw [hcons] at hsegments
  cases hsegments with
  | @cons _ log _ _ hlog _ =>
      obtain ⟨ack, flags, hflags, rfl⟩ := hlog
      refine advances_serverReceive hcons (le_trans (length_sendsTo_le _ _) ?_) halive
      exact receive_data_sends_le s.server (length_chunk_le file _) hflags

theorem Flowing.advances_ack (h : Flowing file host p a slot acked sent s)
    (hphase : s.client.phase = .loopRecv) (hfrom : s.toClient ≠ []) :
    s.Advances file (inetAddr host) := by
  obtain ⟨bytes, rest, hcons⟩ := List.exists_cons_of_ne_nil hfrom
  have hacks := h.acks
  rw [hcons] at hacks
  cases hacks with
  | @cons _ log _ acked' hack _ =>
      have hlogs : s.client.cwndLogs = log :: (acked' ++ sent) := h.logs
      obtain ⟨-, hfile, hsame⟩ := onAck_front_keeps hlogs
      rw [← hack.2] at hfile hsame
      have hstep : s.client.step file (.receive bytes) =
          some (Confundo.endIteration (onAck s.client (readHeader bytes).ack)) := by
        simp [Client.step, hphase, hack.1]
      refine advances_clientReceive hcons hstep ?_ ?_
      · unfold Confundo.endIteration
        split_ifs <;> simp
      · unfold Confundo.endIteration
        split_ifs
        · exact Or.inl (Or.inl rfl)
        · right
          simp only [unread, hfile, Phase.distance, hphase, List.length_nil]
          omega

theorem Flowing.advances_quiet (h : Flowing file host p a slot acked sent s) (hroom : CanGoOn s.client)
    (hphase : s.client.phase = .loopRecv) (hto : s.toServer = []) (hfrom : s.toClient = []) :
    s.Advances file (inetAddr host) := by
  have hacks := h.acks
  have hsegments := h.segments
  rw [hfrom, List.forall₂_nil_left_iff] at hacks
  rw [hto, List.forall₂_nil_left_iff] at hsegments
  have hlogs : s.client.cwndLogs = [] := by rw [h.logs, hacks, hsegments, List.append_nil]
  have htellg := h.safe.client.inStep.tellg_eq_none.mpr (hroom.idle hphase hlogs)
  have hends : Confundo.endIteration s.client = ({ s.client with phase := .finWait, ackNum := 0 },
      [finPacket { s.client with phase := .finWait, ackNum := 0 }]) := by
    unfold Confundo.endIteration
    rw [if_pos ⟨htellg, hlogs⟩]
  have hstep : s.client.step file .nothing = some (Confundo.endIteration s.client) := by
    simp [Client.step, hphase]
  rw [hends] at hstep
  exact advances_client (by simp) (by simp) (by simp) hstep (by simp) (Or.inl (Or.inl rfl))

theorem Flowing.advances_iterate (h : Flowing file host p a slot acked sent s)
    (hphase : s.client.phase = .loopTop) : s.Advances file (inetAddr host) := by
  have hstep : s.client.step file (.iterate false) =
      some ({ (sendNext file s.client).1 with phase := .loopRecv }, (sendNext file s.client).2) := by
    simp [Client.step, hphase]
  refine advances_client (by simp) (by simp) (by simp) hstep (by simp) (Or.inr ?_)
  have hin := h.safe.client.inStep
  by_cases hcredit : 0 < s.client.cwndSpace ∧ s.client.myfile.eof = false
  · have hless := unread_afterSend hin hcredit.2
    rw [sendNext_of_credit hin hcredit.1 hcredit.2]
    have hsame : unread file { afterSend file s.client with phase := .loopRecv } =
        unread file (afterSend file s.client) := rfl
    simp only [hsame, List.length_singleton, Phase.distance, hphase]
    omega
  · rw [sendNext_of_no_credit hcredit]
    have hsame : unread file { s.client with phase := .loopRecv } = unread file s.client := rfl
    simp only [hsame, List.length_nil, Phase.distance, hphase]
    omega

end Loop

/-- Until the client leaves its loop, or gives up, something brings its end nearer. -/
theorem Ordered.advances (h : Ordered file host s) (hroom : CanGoOn s.client)
    (hsize : fileTooLarge file = false) (halive : s.client.phase ≠ .failed)
    (hstay : ¬ s.client.leaving) : s.Advances file (inetAddr host) := by
  cases h with
  | silent hphase hclient _ _ _ =>
      have hphase : s.client.phase = .synSend := hphase.resolve_right halive
      have hstep : s.client.step file .sendSyn =
          some ({ s.client with phase := .synWait }, [synPacket s.client]) := by
        simp [Client.step, hphase]
      refine advances_client (by simp) (by simp) (by simp) hstep (by simp) (Or.inr ?_)
      have hsame : unread file { s.client with phase := .synWait } = unread file s.client := rfl
      simp only [hsame, List.length_singleton, Phase.distance, hphase]
      omega
  | asked _ hserver hto _ =>
      obtain ⟨-, payload, hsends⟩ := receive_first_syn host
      refine advances_serverReceive hto ?_ halive
      rw [hserver, hsends, List.length_singleton]
  | @answered payload hclient _ _ hfrom =>
      have hstep : s.client.step file
          (.receive (datagram ⟨4321, 12346, UInt16.ofNat (0 + 1), synAckFlag⟩ payload)) =
            some (Client.greeted (UInt16.ofNat (0 + 1)).toUInt32, []) := by
        have hreply := onSynReply_synAck file (UInt16.ofNat (0 + 1))
        rw [hsize] at hreply
        simp only [Client.step, hclient, readHeader_datagram]
        rw [hreply]
        rfl
      refine advances_clientReceive hfrom hstep (by simp [Client.greeted]) (Or.inr ?_)
      have hsame : unread file s.client =
          unread file (Client.greeted (UInt16.ofNat (0 + 1)).toUInt32) := by
        rw [hclient]
        rfl
      have hphase : s.client.phase = .synWait := by rw [hclient]
      simp only [hsame, hphase, Client.greeted, Phase.distance, List.length_nil]
      omega
  | flowing h =>
      rcases h.phase with (hphase | hphase) | hphase
      · exact h.advances_iterate hphase
      · by_cases hfrom : s.toClient = []
        · by_cases hto : s.toServer = []
          · exact h.advances_quiet hroom hphase hto hfrom
          · exact h.advances_segment halive hto
        · exact h.advances_ack hphase hfrom
      · exact absurd hphase halive
  | ended h =>
      obtain ⟨hsend, hwait⟩ := h.safe.client.greeted
      have hlate := h.late
      refine absurd ?_ hstay
      unfold Client.inTransfer at hlate
      unfold Client.leaving
      cases hphase : s.client.phase <;> simp_all

/-! ## The goodbye -/

def Session.Parting (s : Session) : Prop :=
  ∃ bytes, (bytes ∈ s.toServer ∨ bytes ∈ s.toClient) ∧ (readHeader bytes).flags = finFlag

theorem finBranch_sends (buf : Packet) (c : Connection) :
    ∃ c' ack fin, finBranch buf c =
        (c', [(c.srcAddr, datagram ack buf.data), (c.srcAddr, datagram fin buf.data)]) ∧
      fin.flags = finFlag :=
  ⟨_, _, _, rfl, rfl⟩

def Session.lastWords (s : Session) : Nat := 5 * s.toServer.length + 2 * s.toClient.length

theorem Ended.serverReceive {slot : Nat → Connection} (h : Ended file host slot s)
    (hparting : s.Parting) (hfrom : s.toClient = []) :
    ∃ s', Session.InOrderMove file (inetAddr host) s s' ∧ s'.client = s.client ∧ s'.Parting ∧
      s'.lastWords < s.lastWords := by
  obtain ⟨fin, hfin, hflags⟩ := hparting
  rw [hfrom] at hfin
  have hfin : fin ∈ s.toServer := hfin.resolve_right (by simp)
  obtain ⟨bytes, rest, hto⟩ := List.exists_cons_of_ne_nil (List.ne_nil_of_mem hfin)
  refine ⟨_, .serverReceive hto rfl, rfl, ?_⟩
  simp only [Session.Parting, Session.lastWords, hto, hfrom, List.nil_append, List.length_cons,
    List.length_nil]
  have hbytes : bytes ∈ s.toServer := by simp [hto]
  cases h.last bytes hbytes with
  | finish seq =>
      obtain ⟨c, ack, last, hbranch, hlast⟩ :=
        finBranch_sends (padded ⟨seq, 0, UInt16.ofNat (0 + 1), finFlag⟩ noData) (slot 0)
      rw [h.safe.holds.source] at hbranch
      obtain ⟨-, hsends⟩ :=
        h.safe.serves.receive_fin (inetAddr host) h.safe.adopted length_noData.le rfl rfl hbranch
      rw [hsends, sendsTo_cons_self, sendsTo_cons_self, sendsTo_nil]
      refine ⟨⟨datagram last _, Or.inr (List.mem_cons_of_mem _ (List.mem_singleton_self _)),
        by rwa [readHeader_datagram]⟩, ?_⟩
      simp only [List.length_cons, List.length_nil]
      omega
  | lastAck seq ack _ =>
      have hless : (sendsTo (inetAddr host) (s.server.receive (inetAddr host)
          (datagram ⟨seq, ack, UInt16.ofNat (0 + 1), ackFlag⟩ noData)).2).length ≤ 1 :=
        le_trans (length_sendsTo_le _ _)
          (receive_data_sends_le s.server length_noData.le (Or.inl rfl))
      have hother : fin ≠ datagram ⟨seq, ack, UInt16.ofNat (0 + 1), ackFlag⟩ noData := by
        rintro rfl
        rw [readHeader_datagram] at hflags
        exact absurd hflags (show ackFlag ≠ finFlag by decide)
      rw [hto] at hfin
      exact ⟨⟨fin, Or.inl ((List.mem_cons.mp hfin).resolve_left hother), hflags⟩, by omega⟩

theorem Ended.clientReceive {slot : Nat → Connection} (h : Ended file host slot s)
    (hphase : s.client.phase = .finWait) (hparting : s.Parting) {bytes : Buffer}
    {rest : List Buffer} (hfrom : s.toClient = bytes :: rest) :
    ∃ s', Session.InOrderMove file (inetAddr host) s s' ∧
      (s'.client.phase = .timeWait ∨
        s'.client = s.client ∧ s'.Parting ∧ s'.lastWords < s.lastWords) := by
  have hne : bytes ≠ [] := (h.safe.toClient bytes (by simp [hfrom])).1
  have hstep : s.client.step file (.receive bytes) =
      some (onFinReply s.client (readHeader bytes)) := by
    simp [Client.step, hphase, hne]
  refine ⟨_, .clientReceive hfrom hstep rfl, ?_⟩
  unfold onFinReply
  split_ifs with hreply
  · exact Or.inl rfl
  · right
    obtain ⟨fin, hfin, hflags⟩ := hparting
    have hother : fin ≠ bytes := by
      rintro rfl
      exact hreply ⟨Or.inr hflags, Or.inr hflags⟩
    refine ⟨rfl, ⟨fin, ?_, hflags⟩, ?_⟩
    · rw [hfrom, List.mem_cons] at hfin
      simpa [hother] using hfin
    · simp only [Session.lastWords, hfrom, List.append_nil, List.length_cons]
      omega

theorem Ordered.ended_of_leaving (h : Ordered file host s) (hleaving : s.client.leaving) :
    ∃ slot, Ended file host slot s := by
  unfold Client.leaving at hleaving
  cases h with
  | silent hphase _ _ _ _ => rcases hphase with hphase | hphase <;> simp [hphase] at hleaving
  | asked hclient _ _ _ | answered hclient _ _ _ => simp [hclient] at hleaving
  | flowing h => rcases h.phase with (hphase | hphase) | hphase <;> simp [hphase] at hleaving
  | ended h => exact ⟨_, h⟩

theorem Session.ReachableInOrder.timeWait (h : Session.ReachableInOrder file (inetAddr host) s)
    (hphase : s.client.phase = .finWait) (hparting : s.Parting) :
    ∃ t, Reach (Session.step file (inetAddr host)) Action.inOrder s t ∧
      t.client.phase = .timeWait := by
  have progress : ∀ s, (Session.ReachableInOrder file (inetAddr host) s ∧
      (s.client.phase = .timeWait ∨ s.client.phase = .finWait ∧ s.Parting)) →
      ¬ s.client.phase = .timeWait →
      ∃ (action : Action) (s' : Session), action.inOrder ∧
        Session.step file (inetAddr host) s action = some s' ∧
        (Session.ReachableInOrder file (inetAddr host) s' ∧
          (s'.client.phase = .timeWait ∨ s'.client.phase = .finWait ∧ s'.Parting)) ∧
        (s'.client.phase = .timeWait ∨ s'.lastWords < s.lastWords) := by
    rintro s ⟨hs, hwait⟩ hstay
    obtain ⟨hphase, hparting⟩ := hwait.resolve_left hstay
    obtain ⟨slot, hended⟩ := (ordered_of_reachable hs).ended_of_leaving (Or.inl hphase)
    have hnext : ∃ s', Session.InOrderMove file (inetAddr host) s s' ∧
        (s'.client.phase = .timeWait ∨
          s'.client = s.client ∧ s'.Parting ∧ s'.lastWords < s.lastWords) := by
      cases hfrom : s.toClient with
      | nil =>
          obtain ⟨s', hmove, hkept⟩ := hended.serverReceive hparting hfrom
          exact ⟨s', hmove, Or.inr hkept⟩
      | cons bytes rest => exact hended.clientReceive hphase hparting hfrom
    obtain ⟨s', hmove, hdone⟩ := hnext
    obtain ⟨action, haction, hstep⟩ := Session.step_of_inOrderMove hmove
    refine ⟨action, s', haction, hstep, ⟨hs.move hmove, ?_⟩, ?_⟩
    · exact hdone.imp_right fun hkept => ⟨by rw [hkept.1, hphase], hkept.2.1⟩
    · exact hdone.imp_right fun hkept => hkept.2.2
  obtain ⟨t, hreach, -, ht⟩ :=
    Reach.of_rank Session.lastWords progress ⟨h, Or.inr ⟨hphase, hparting⟩⟩
  exact ⟨t, hreach, ht⟩

/-- A client that has left its loop can be brought to the end of the program. -/
theorem Session.ReachableInOrder.closed (h : Session.ReachableInOrder file (inetAddr host) s)
    (hleaving : s.client.leaving) :
    ∃ t, Reach (Session.step file (inetAddr host)) Action.inOrder s t ∧
      t.client.phase = .closed := by
  have htimeUp : ∀ {t : Session}, t.client.phase = .timeWait →
      Reach (Session.step file (inetAddr host)) Action.inOrder s t →
        ∃ u, Reach (Session.step file (inetAddr host)) Action.inOrder s u ∧
          u.client.phase = .closed := by
    intro t hphase hreach
    have hstep : t.client.step file .timeUp = some ({ t.client with phase := .closed }, []) := by
      simp [Client.step, hphase]
    have hmove : Session.InOrderMove file (inetAddr host) t
        ⟨{ t.client with phase := .closed }, t.server, t.toServer ++ [], t.toClient⟩ :=
      .client (by simp) (by simp) (by simp) hstep rfl
    obtain ⟨action, haction, hnext⟩ := Session.step_of_inOrderMove hmove
    exact ⟨_, hreach.tail haction hnext, rfl⟩
  rcases hleaving with hphase | hphase | hphase
  · -- the `FIN` is sent again, and this one is answered
    have hstep : s.client.step file .resendFin = some (s.client, [finPacket s.client]) := by
      simp [Client.step, hphase]
    have hmove : Session.InOrderMove file (inetAddr host) s
        ⟨s.client, s.server, s.toServer ++ [finPacket s.client], s.toClient⟩ :=
      .client (by simp) (by simp) (by simp) hstep rfl
    obtain ⟨t, hreach, ht⟩ := (h.move hmove).timeWait hphase
      ⟨finPacket s.client, by simp, by rw [finPacket, readHeader_datagram]⟩
    obtain ⟨action, haction, hnext⟩ := Session.step_of_inOrderMove hmove
    exact htimeUp ht ((Reach.single haction hnext).trans hreach)
  · exact htimeUp hphase (.refl s)
  · exact ⟨s, .refl s, hphase⟩

/-! ## Completion -/

/-- Over a network that keeps the order, an accepted file of any length can be finished from
every state in which the client has not given up: some delivery of what is in flight and
some further iterations bring the client to its end, with the whole file at the server. -/
theorem completable_in_order (hsize : fileTooLarge file = false)
    (h : Session.ReachableInOrder file (inetAddr host) s) (halive : s.client.phase ≠ .failed) :
    ∃ t, Reach (Session.step file (inetAddr host)) Action.inOrder s t ∧
      t.client.phase = .closed ∧ ∃ c, t.connection = some c ∧ c.myfile.contents = file := by
  have progress : ∀ s, (Session.ReachableInOrder file (inetAddr host) s ∧
      s.client.phase ≠ .failed) → ¬ s.client.leaving →
      ∃ (action : Action) (s' : Session), action.inOrder ∧
        Session.step file (inetAddr host) s action = some s' ∧
        (Session.ReachableInOrder file (inetAddr host) s' ∧ s'.client.phase ≠ .failed) ∧
        (s'.client.leaving ∨ s'.remaining file < s.remaining file) := by
    rintro s ⟨hs, halive⟩ hstay
    obtain ⟨s', hmove, halive', hnearer⟩ := (ordered_of_reachable hs).advances
      (canGoOn_of_reachable hs).2 hsize halive hstay
    obtain ⟨action, haction, hstep⟩ := Session.step_of_inOrderMove hmove
    exact ⟨action, s', haction, hstep, ⟨hs.move hmove, halive'⟩, hnearer⟩
  obtain ⟨u, hsu, ⟨hu, -⟩, hleaving⟩ :=
    Reach.of_rank (Session.remaining file) progress ⟨h, halive⟩
  obtain ⟨t, hut, hclosed⟩ := hu.closed hleaving
  have ht : Session.ReachableInOrder file (inetAddr host) t := Reach.trans hu hut
  exact ⟨t, hsu.trans hut, hclosed, (ordered_of_reachable ht).whole (Or.inr (Or.inr hclosed))⟩

/-- In the middle of a transfer, with two segments in flight. -/
theorem completable_inOrderRun :
    ∃ s, run (Session.step (List.replicate 600 7) (inetAddr 0)) Session.start
        (inOrderRun.take 6) = some s ∧
      ∃ t, Reach (Session.step (List.replicate 600 7) (inetAddr 0)) Action.inOrder s t ∧
        t.client.phase = .closed ∧
        ∃ c, t.connection = some c ∧ c.myfile.contents = List.replicate 600 7 := by
  have hrun : (run (Session.step (List.replicate 600 7) (inetAddr 0)) Session.start
      (inOrderRun.take 6)).any (fun s => s.client.phase ≠ .failed) = true := by decide +kernel
  obtain ⟨s, hs, halive⟩ := (Option.any_eq_true _ _).mp hrun
  have hreach : Session.ReachableInOrder (List.replicate 600 7) (inetAddr 0) s :=
    reach_of_run (by simp [inOrderRun, Action.inOrder]) hs
  exact ⟨s, hs, completable_in_order (by decide +kernel) hreach (of_decide_eq_true halive)⟩

end Steps

end Cs118.Confundo
