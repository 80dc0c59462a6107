import Mathlib.Data.List.Forall2
import Cs118.Confundo.Proofs.WindowSpan
/-!
# A network that keeps the order

When every datagram arrives once and in its turn and no time-out fires, the log
is a pipeline: its front is the acknowledgements in flight, its back the segments
in flight.  An acknowledgement then meets the oldest entry whatever numbers the
others have, so no length of the file is an exception.
-/

namespace Cs118.Confundo

open Cs118.Lib.Bytes
open Cs118.Lib.Run

/-- The actions of such a network, and of a client whose timers fire in `ending` only. -/
def Action.inOrder : Action → Prop
  | .client .synTimeout => False
  | .client (.iterate timeout) => timeout = false
  | .client _ => True
  | .clientReceive k => k = 0
  | .serverReceive k => k = 0
  | _ => False

def Session.ReachableInOrder (file : Buffer) (addr : SockAddr) (s : Session) : Prop :=
  Reach (Session.step file addr) Action.inOrder Session.start s

inductive Session.InOrderMove (file : Buffer) (addr : SockAddr) (s s' : Session) : Prop
  | client {event : ClientEvent} {next : Client × List Buffer}
      (hevent : ∀ bytes, event ≠ .receive bytes) (hsyn : event ≠ .synTimeout)
      (htimeout : event ≠ .iterate true) (hstep : s.client.step file event = some next)
      (h : s' = ⟨next.1, s.server, s.toServer ++ next.2, s.toClient⟩)
  | clientReceive {bytes : Buffer} {rest : List Buffer} {next : Client × List Buffer}
      (hfrom : s.toClient = bytes :: rest)
      (hstep : s.client.step file (.receive bytes) = some next)
      (h : s' = ⟨next.1, s.server, s.toServer ++ next.2, rest⟩)
  | serverReceive {bytes : Buffer} {rest : List Buffer} (hto : s.toServer = bytes :: rest)
      (h : s' = ⟨s.client, (s.server.receive addr bytes).1, rest,
        s.toClient ++ sendsTo addr (s.server.receive addr bytes).2⟩)

theorem Session.inOrderMove_of_step {file : Buffer} {addr : SockAddr} {s s' : Session}
    {a : Action} (ha : a.inOrder) (h : Session.step file addr s a = some s') :
    Session.InOrderMove file addr s s' := by
  have hhead : ∀ {sent : List Buffer} {bytes : Buffer}, sent[0]? = some bytes →
      sent = bytes :: sent.eraseIdx 0 := by
    intro sent bytes hbytes
    cases sent with
    | nil => simp at hbytes
    | cons first rest => simpa using hbytes
  cases a with
  | client event =>
      simp only [Session.step] at h
      split_ifs at h with hreceive
      obtain ⟨next, hstep, rfl⟩ := Option.map_eq_some_iff.mp h
      refine .client ?_ ?_ ?_ hstep rfl
      · rintro bytes rfl
        exact hreceive rfl
      · rintro rfl
        exact ha
      · rintro rfl
        exact absurd ha (by simp [Action.inOrder])
  | clientReceive k =>
      obtain rfl : k = 0 := ha
      obtain ⟨bytes, hbytes, hrest⟩ := Option.bind_eq_some_iff.mp h
      obtain ⟨next, hstep, rfl⟩ := Option.map_eq_some_iff.mp hrest
      exact .clientReceive (hhead hbytes) hstep rfl
  | serverReceive k =>
      obtain rfl : k = 0 := ha
      obtain ⟨bytes, hbytes, rfl⟩ := Option.map_eq_some_iff.mp h
      exact .serverReceive (hhead hbytes) rfl
  | loseToServer k | loseToClient k | copyToServer k | copyToClient k => exact ha.elim

/-! ## The pipeline -/

/-- The entries of consecutive segments from offset `p` to offset `q`. -/
def Chained (file : Buffer) : Nat → List Logger → Nat → Prop
  | p, [], q => p = q
  | p, log :: rest, q => Cut file p ∧ log = entry file p ∧ Chained file (endOf file p) rest q

theorem Chained.push {file : Buffer} {p q : Nat} {logs : List Logger} (h : Chained file p logs q)
    (hq : Cut file q) : Chained file p (logs ++ [entry file q]) (endOf file q) := by
  induction logs generalizing p with
  | nil =>
      obtain rfl : p = q := h
      exact ⟨hq, rfl, rfl⟩
  | cons log logs ih =>
      obtain ⟨hcut, hlog, hrest⟩ := h
      exact ⟨hcut, hlog, ih hrest⟩

def Acknowledges (bytes : Buffer) (log : Logger) : Prop :=
  bytes ≠ [] ∧ (readHeader bytes).ack = log.eAck

def Transports (file : Buffer) (bytes : Buffer) (log : Logger) : Prop :=
  ∃ ack flags, (flags = ackFlag ∨ flags = 0) ∧
    bytes = datagram ⟨log.seq, ack, UInt16.ofNat (0 + 1), flags⟩ (chunk file log.filePos)

/-- The transfer: the server has the first `a` bytes, `acked` are the entries whose
acknowledgements and `sent` those whose segments are in flight. -/
structure Flowing (file : Buffer) (host p a : Nat) (slot : Nat → Connection)
    (acked sent : List Logger) (s : Session) : Prop where
  safe : Adopted file host 0 1 slot a s
  isOpen : (slot 0).isFin = 0
  phase : s.client.inTransfer ∨ s.client.phase = .failed
  logs : s.client.cwndLogs = acked ++ sent
  back : Chained file p acked a
  front : Chained file a sent s.client.myfile.pos
  acks : List.Forall₂ Acknowledges s.toClient acked
  segments : List.Forall₂ (Transports file) s.toServer sent

inductive LastDatagram (fin : Nat) : Buffer → Prop
  | finish (seq : UInt32) :
      LastDatagram fin (datagram ⟨seq, 0, UInt16.ofNat (0 + 1), finFlag⟩ noData)
  | lastAck (seq ack : UInt32) (hfin : fin = 1) :
      LastDatagram fin (datagram ⟨seq, ack, UInt16.ofNat (0 + 1), ackFlag⟩ noData)

/-- After the transfer: the server has the whole file. -/
structure Ended (file : Buffer) (host : Nat) (slot : Nat → Connection) (s : Session) : Prop where
  safe : Adopted file host 0 1 slot file.length s
  late : ¬ s.client.inTransfer
  last : ∀ bytes ∈ s.toServer, LastDatagram (slot 0).isFin bytes

section Transfer

variable {file : Buffer} {host p a : Nat} {slot : Nat → Connection} {acked sent : List Logger}
  {s s' : Session}

theorem Adopted.client_moves (h : Adopted file host 0 1 slot a s) {event : ClientEvent}
    {next : Client × List Buffer} {rest : List Buffer}
    (hevent : ∀ bytes, event = .receive bytes → bytes ∈ s.toClient)
    (hstep : s.client.step file event = some next) (hrest : rest ⊆ s.toClient) :
    Adopted file host 0 1 slot a ⟨next.1, s.server, s.toServer ++ next.2, rest⟩ :=
  h.client_step hevent hstep rfl rfl rfl hrest

theorem Flowing.iterate (h : Flowing file host p a slot acked sent s)
    (hsafe : Adopted file host 0 1 slot a
      ⟨{ (sendNext file s.client).1 with phase := .loopRecv }, s.server,
        s.toServer ++ (sendNext file s.client).2, s.toClient⟩) :
    ∃ sent', Flowing file host p a slot acked sent'
      ⟨{ (sendNext file s.client).1 with phase := .loopRecv }, s.server,
        s.toServer ++ (sendNext file s.client).2, s.toClient⟩ := by
  have hstep := h.safe.client.inStep
  by_cases hcredit : 0 < s.client.cwndSpace ∧ s.client.myfile.eof = false
  · have hcut := hstep.cut hcredit.2
    rw [sendNext_of_credit hstep hcredit.1 hcredit.2] at hsafe ⊢
    refine ⟨sent ++ [entry file s.client.myfile.pos], ?_⟩
    exact
      { safe := hsafe
        isOpen := h.isOpen
        phase := Or.inl (Or.inr rfl)
        logs := by simp [afterSend, h.logs]
        back := h.back
        front := h.front.push hcut
        acks := h.acks
        segments := by
          refine List.rel_append h.segments (.cons ?_ .nil)
          refine ⟨s.client.ackNum, s.client.flags, h.safe.client.flags, ?_⟩
          rw [segmentOf, h.safe.client.toUInt16_idNum]
          rfl }
  · rw [sendNext_of_no_credit hcredit] at hsafe ⊢
    exact ⟨sent, hsafe, h.isOpen, Or.inl (Or.inr rfl), h.logs, h.back, h.front, h.acks,
      by simpa using h.segments⟩

theorem Flowing.whole (h : Flowing file host p a slot acked sent s)
    (heof : s.client.myfile.eof = true) (hlogs : s.client.cwndLogs = []) :
    a = file.length ∧ s.toServer = [] := by
  obtain ⟨-, rfl⟩ := List.append_eq_nil_iff.mp (h.logs.symm.trans hlogs)
  obtain rfl : a = s.client.myfile.pos := h.front
  exact ⟨h.safe.client.inStep.atEnd heof, List.forall₂_nil_right_iff.mp h.segments⟩

/-- The end of an iteration: the loop goes on, or it is left with the `FIN` alone in flight. -/
theorem Flowing.endIteration (h : Flowing file host p a slot acked sent s)
    (hsafe : Adopted file host 0 1 slot a
      ⟨(endIteration s.client).1, s.server, s.toServer ++ (endIteration s.client).2,
        s.toClient⟩) :
    Flowing file host p a slot acked sent
        ⟨(endIteration s.client).1, s.server, s.toServer ++ (endIteration s.client).2,
          s.toClient⟩ ∨
      Ended file host slot
        ⟨(endIteration s.client).1, s.server, s.toServer ++ (endIteration s.client).2,
          s.toClient⟩ := by
  unfold Confundo.endIteration at hsafe ⊢
  split_ifs at hsafe ⊢ with hexit
  · right
    have heof := h.safe.client.inStep.tellg_eq_none.mp hexit.1
    obtain ⟨rfl, hquiet⟩ := h.whole heof hexit.2
    refine ⟨hsafe, by simp [Client.inTransfer], ?_⟩
    intro bytes hbytes
    rw [hquiet, List.nil_append, List.mem_singleton] at hbytes
    rw [hbytes, finPacket]
    dsimp only
    rw [h.safe.client.toUInt16_idNum]
    exact .finish _
  · left
    exact ⟨hsafe, h.isOpen, Or.inl (Or.inl rfl), h.logs, h.back, h.front, h.acks,
      by simpa using h.segments⟩

theorem onAck_front_keeps {c : Client} {log : Logger} {rest : List Logger}
    (hlogs : c.cwndLogs = log :: rest) :
    (onAck c log.eAck).cwndLogs = rest ∧ (onAck c log.eAck).myfile = c.myfile ∧
      (onAck c log.eAck).phase = c.phase := by
  obtain ⟨cwnd, cwndSpace, hgrow, -⟩ := growWindow_eq { c with cwndLogs := rest }
  rw [onAck_front hlogs, hgrow]
  exact ⟨rfl, rfl, rfl⟩

/-- The acknowledgement that comes in is that of the oldest entry. -/
theorem Flowing.acknowledged (h : Flowing file host p a slot acked sent s)
    (hphase : s.client.phase = .loopRecv) {bytes : Buffer} {rest : List Buffer}
    (hfrom : s.toClient = bytes :: rest) :
    ∃ p' acked', Flowing file host p' a slot acked' sent
      ⟨onAck s.client (readHeader bytes).ack, s.server, s.toServer, rest⟩ := by
  have hacks := h.acks
  rw [hfrom] at hacks
  cases hacks with
  | @cons _ log _ acked' hack hrest =>
      obtain ⟨hcut, -, hback⟩ := h.back
      have hlogs : s.client.cwndLogs = log :: (acked' ++ sent) := h.logs
      obtain ⟨herased, hfile, hsame⟩ := onAck_front_keeps hlogs
      rw [← hack.2] at herased hfile hsame
      have hsending := h.safe.client.onAck (readHeader bytes).ack
      have hin : s.client.inTransfer := Or.inr hphase
      refine ⟨endOf file p, acked', ?_⟩
      exact
        { safe := h.safe.after_client rfl hsending (fun hnot => absurd hin hnot)
            (fun _ hbytes => Or.inl hbytes) (by rw [hfrom]; exact List.subset_cons_self _ _)
          isOpen := h.isOpen
          phase := Or.inl (Or.inr (hsame.trans hphase))
          logs := herased
          back := hback
          front := by
            show Chained file a sent (onAck s.client (readHeader bytes).ack).myfile.pos
            rw [hfile]
            exact h.front
          acks := hrest
          segments := h.segments }

theorem Flowing.receive (h : Flowing file host p a slot acked sent s) {bytes : Buffer}
    {rest : List Buffer} (hto : s.toServer = bytes :: rest)
    (hs : s.Answers (inetAddr host) bytes s') (hrest : s'.toServer = rest) :
    ∃ slot' a' acked' sent', Flowing file host p a' slot' acked' sent' s' := by
  have hsegments := h.segments
  rw [hto] at hsegments
  cases hsegments with
  | @cons _ log _ sent' hlog hothers =>
      obtain ⟨hcut, hentry, hfront⟩ := h.front
      obtain ⟨ack, flags, hflags, rfl⟩ := hlog
      subst hentry
      have hs : s.Answers (inetAddr host)
        (datagram ⟨seqAt a, ack, UInt16.ofNat (0 + 1), flags⟩ (chunk file a)) s' := hs
      obtain ⟨c, seq, payload, hbranch, hholds, hopen⟩ :=
        h.safe.holds.dataBranch_next h.isOpen hcut
          (h := ⟨seqAt a, ack, UInt16.ofNat (0 + 1), flags⟩) rfl
      have hreceive := h.safe.serves.receive_data (inetAddr host) h.safe.adopted (length_chunk_le file a) rfl
        hflags hbranch
      have hclosed : (slot 0).isFin = 1 → c.isFin = 1 := by
        intro hclosed
        have := h.isOpen
        omega
      have hnext := h.safe.after_update hs hreceive (le_endOf file a) hclosed hholds
        (fun _ => hopen) (by
          intro out hout
          obtain rfl : out = _ := congrArg Prod.snd (List.mem_singleton.mp hout)
          exact carries_datagram _ (.ack le_rfl hcut.boundary_endOf))
      refine ⟨Function.update slot 0 c, endOf file a, acked ++ [entry file a], sent', ?_⟩
      exact
        { safe := hnext
          isOpen := by simpa using hopen
          phase := hs.client ▸ h.phase
          logs := by
            rw [hs.client, h.logs]
            simp
          back := h.back.push hcut
          front := by
            rw [hs.client]
            exact hfront
          acks := by
            rw [hs.toClient, hreceive.2, sendsTo_cons_self, sendsTo_nil]
            refine List.rel_append h.acks (.cons ⟨datagram_ne_nil _ _, ?_⟩ .nil)
            rw [readHeader_datagram]
            rfl
          segments := by
            rw [hrest]
            exact hothers }

/-! ## After the transfer -/

theorem LastDatagram.mono {fin fin' : Nat} {bytes : Buffer} (h : LastDatagram fin bytes)
    (hfin : fin = 1 → fin' = 1) : LastDatagram fin' bytes := by
  cases h with
  | finish seq => exact .finish seq
  | lastAck seq ack h => exact .lastAck seq ack (hfin h)

theorem Sending.last {i fin k a : Nat} {c : Client} (h : Sending file i c) (hi : i = 0)
    (hlate : ¬ c.inTransfer) {event : ClientEvent} {next : Client × List Buffer}
    (hevent : ∀ bytes, event = .receive bytes → Carries (ServerHeader file k a fin) bytes)
    (hstep : c.step file event = some next) : ∀ bytes ∈ next.2, LastDatagram fin bytes := by
  subst hi
  have hlast : ∀ seq, fin = 1 → ∀ bytes ∈ [Confundo.lastAck c seq], LastDatagram fin bytes := by
    intro seq hfin bytes hbytes
    obtain rfl := List.mem_singleton.mp hbytes
    rw [Confundo.lastAck, h.toUInt16_idNum]
    exact .lastAck _ _ hfin
  cases Client.moves_of_step h.greeted hstep with
  | iterate hphase _ => exact absurd (Or.inl hphase) hlate
  | ack hphase => exact absurd (Or.inr hphase) hlate
  | nothing hphase => exact absurd (Or.inr hphase) hlate
  | giveUp _ => simp
  | resendFin _ =>
      intro bytes hbytes
      obtain rfl := List.mem_singleton.mp hbytes
      rw [Confundo.finPacket, h.toUInt16_idNum]
      exact .finish _
  | @finReply bytes _ =>
      obtain ⟨-, hheader⟩ := hevent bytes rfl
      unfold onFinReply
      split_ifs with hreply
      · exact hlast _ (hheader.fin_of_flags hreply.2)
      · simp
  | @timeWait bytes _ =>
      obtain ⟨-, hheader⟩ := hevent bytes rfl
      unfold onTimeWait
      split_ifs with hflags
      · exact hlast _ (hheader.fin_of_flags (Or.inr hflags))
      · simp
  | timeUp _ => simp

theorem Ended.client (h : Ended file host slot s) {event : ClientEvent}
    {next : Client × List Buffer} {rest : List Buffer}
    (hevent : ∀ bytes, event = .receive bytes → bytes ∈ s.toClient)
    (hstep : s.client.step file event = some next) (hrest : rest ⊆ s.toClient) :
    Ended file host slot ⟨next.1, s.server, s.toServer ++ next.2, rest⟩ := by
  have hheaders := fun bytes heq => h.safe.toClient bytes (hevent bytes heq)
  obtain ⟨-, hlate, -⟩ := h.safe.client.step hheaders hstep
  refine ⟨h.safe.client_moves hevent hstep hrest, hlate h.late, ?_⟩
  intro bytes hbytes
  rcases List.mem_append.mp hbytes with hold | hnew
  · exact h.last bytes hold
  · exact h.safe.client.last rfl h.late hheaders hstep bytes hnew

theorem Ended.server (h : Ended file host slot s) {bytes : Buffer}
    (hbytes : bytes ∈ s.toServer) (hs : s.Answers (inetAddr host) bytes s') :
    ∃ slot', Ended file host slot' s' := by
  have hafter : ∀ {c : Connection},
      Adopted file host 0 1 (Function.update slot 0 c) file.length s' → c.isFin = 1 →
        ∃ slot', Ended file host slot' s' := by
    intro c hnext hclosed
    refine ⟨_, hnext, by rw [hs.client]; exact h.late, fun out hout => ?_⟩
    refine (h.last out (hs.toServer hout)).mono fun _ => ?_
    rw [Function.update_self]
    exact hclosed
  cases h.last bytes hbytes with
  | finish seq =>
      obtain ⟨c, hnext, hclosed⟩ := h.safe.receive_fin h.late hs
      exact hafter hnext hclosed
  | lastAck seq ack hfin =>
      obtain ⟨c, hnext, hclosed⟩ := h.safe.receive_closed hfin length_noData.le (Or.inl rfl) hs
      exact hafter hnext hclosed

end Transfer

/-! ## Runs in order -/

inductive Ordered (file : Buffer) (host : Nat) (s : Session) : Prop
  | silent (hphase : s.client.phase = .synSend ∨ s.client.phase = .failed)
      (hclient : s.client = { Client.start with phase := s.client.phase })
      (hserver : s.server = Server.start) (hto : s.toServer = []) (hfrom : s.toClient = [])
  | asked (hclient : s.client = { Client.start with phase := .synWait })
      (hserver : s.server = Server.start)
      (hto : s.toServer = [datagram ⟨12345, 0, 0, synFlag⟩ noData]) (hfrom : s.toClient = [])
  | answered {payload : Buffer} (hclient : s.client = { Client.start with phase := .synWait })
      (hserver : s.server.allConnection =
        tableOf 1 (Function.update (fun _ => Connection.unused) 0 (opened (inetAddr host) 0)))
      (hto : s.toServer = [])
      (hfrom : s.toClient = [datagram ⟨4321, 12346, UInt16.ofNat (0 + 1), synAckFlag⟩ payload])
  | flowing {p a : Nat} {slot : Nat → Connection} {acked sent : List Logger}
      (h : Flowing file host p a slot acked sent s)
  | ended {slot : Nat → Connection} (h : Ended file host slot s)

section Runs

variable {file : Buffer} {host : Nat} {s s' : Session}

theorem receive_first_syn (host : Nat) :
    (Server.start.receive (inetAddr host) (datagram ⟨12345, 0, 0, synFlag⟩ noData)).1.allConnection =
        tableOf 1 (Function.update (fun _ => Connection.unused) 0 (opened (inetAddr host) 0)) ∧
      ∃ payload, sendsTo (inetAddr host)
          (Server.start.receive (inetAddr host) (datagram ⟨12345, 0, 0, synFlag⟩ noData)).2 =
        [datagram ⟨4321, 12346, UInt16.ofNat (0 + 1), synAckFlag⟩ payload] := by
  have hserves : Serves (inetAddr host) 0 (fun _ => Connection.unused) Server.start :=
    ⟨by omega, rfl, by simp, by simp⟩
  obtain ⟨-, hopened, hsends⟩ := (hserves.receive_syn (by rintro _ rfl; rfl) host rfl).resolve_right
    fun h => h.1 (by decide)
  refine ⟨hopened.table, (padded ⟨12345, 0, 0, synFlag⟩ noData).data, ?_⟩
  rw [hsends]
  exact sendsTo_cons_self (inetAddr host) _ []

theorem flowing_adopted (payload : Buffer)
    (hserver : s.server.allConnection =
      tableOf 1 (Function.update (fun _ => Connection.unused) 0 (opened (inetAddr host) 0)))
    (hto : s.toServer = []) (hfrom : s.toClient = [])
    (hclient : s.client = onSynReply file { Client.start with phase := .synWait }
      (readHeader (datagram ⟨4321, 12346, UInt16.ofNat (0 + 1), synAckFlag⟩ payload))) :
    Flowing file host 0 0
      (Function.update (fun _ => Connection.unused) 0 (opened (inetAddr host) 0)) [] [] s := by
  have hserves : Serves (inetAddr host) 0 (fun _ => Connection.unused) Server.start :=
    ⟨by omega, rfl, by simp, by simp⟩
  have hslot : Function.update (fun _ => Connection.unused) 0 (opened (inetAddr host) 0) 0 =
      opened (inetAddr host) 0 := Function.update_self ..
  rw [readHeader_datagram, onSynReply_synAck] at hclient
  have hcases : s.client = Client.refused (UInt16.ofNat (0 + 1)).toUInt32 ∨
      s.client = Client.greeted (UInt16.ofNat (0 + 1)).toUInt32 := by
    rw [hclient]
    split_ifs
    · exact Or.inl rfl
    · exact Or.inr rfl
  have hstart : s.client.cwndLogs = [] ∧ s.client.myfile.pos = 0 ∧
      (s.client.inTransfer ∨ s.client.phase = .failed) := by
    rcases hcases with h | h <;> rw [h]
    · exact ⟨rfl, rfl, Or.inr rfl⟩
    · exact ⟨rfl, rfl, Or.inl (Or.inl rfl)⟩
  exact
    { safe :=
        { serves := hserves.opened (by omega) rfl hserver
          adopted := by omega
          fresh := fun j hj hj0 => absurd hj (by omega)
          holds := hslot ▸ holds_opened file (inetAddr host) 0
          client := by
            rcases hcases with h | h <;> rw [h]
            · exact sending_refused file (by omega)
            · exact sending_greeted file (by omega)
          early := fun _ => by rw [hslot]; rfl
          toServer := by simp [hto]
          toClient := by simp [hfrom] }
      isOpen := by rw [hslot]; rfl
      phase := hstart.2.2
      logs := hstart.1
      back := rfl
      front := hstart.2.1.symm
      acks := by
        rw [hfrom]
        exact .nil
      segments := by
        rw [hto]
        exact .nil }

theorem ordered_start (file : Buffer) (host : Nat) : Ordered file host Session.start :=
  .silent (Or.inl rfl) rfl rfl rfl rfl

theorem Flowing.not_ending {p a : Nat} {slot : Nat → Connection} {acked sent : List Logger}
    (h : Flowing file host p a slot acked sent s) :
    s.client.phase ≠ .finWait ∧ s.client.phase ≠ .timeWait := by
  rcases h.phase with (hphase | hphase) | hphase <;> simp [hphase]

theorem Flowing.ordered {p a : Nat} {slot : Nat → Connection} {acked sent : List Logger}
    (h : Flowing file host p a slot acked sent s)
    (hsafe : Adopted file host 0 1 slot a
      ⟨(Confundo.endIteration s.client).1, s.server,
        s.toServer ++ (Confundo.endIteration s.client).2, s.toClient⟩) :
    Ordered file host ⟨(Confundo.endIteration s.client).1, s.server,
      s.toServer ++ (Confundo.endIteration s.client).2, s.toClient⟩ := by
  rcases h.endIteration hsafe with hnext | hnext
  · exact .flowing hnext
  · exact .ended hnext

theorem Flowing.step {p a : Nat} {slot : Nat → Connection} {acked sent : List Logger}
    (h : Flowing file host p a slot acked sent s)
    (hmove : Session.InOrderMove file (inetAddr host) s s') : Ordered file host s' := by
  obtain ⟨hfin, hwait⟩ := h.not_ending
  cases hmove with
  | @client event next hevent hsyn htimeout hstep hs' =>
      subst hs'
      have hsafe := h.safe.client_moves
        (fun bytes heq => absurd heq (hevent bytes)) hstep (List.Subset.refl _)
      cases Client.moves_of_step h.safe.client.greeted hstep with
      | @iterate timeout hphase _ =>
          cases timeout with
          | true => exact absurd rfl htimeout
          | false =>
              obtain ⟨sent', hnext⟩ := h.iterate hsafe
              exact .flowing hnext
      | nothing hphase => exact h.ordered hsafe
      | giveUp hphase =>
          exact .flowing ⟨hsafe, h.isOpen, Or.inr rfl, h.logs, h.back, h.front, h.acks,
            by simpa using h.segments⟩
      | resendFin hphase => exact absurd hphase hfin
      | timeUp hphase => exact absurd hphase hwait
      | ack _ | finReply _ | timeWait _ => exact absurd rfl (hevent _)
  | @clientReceive bytes rest next hfrom hstep hs' =>
      subst hs'
      have hrest : rest ⊆ s.toClient := by simp [hfrom]
      have hsafe := h.safe.client_moves (by rintro _ ⟨⟩; simp [hfrom]) hstep hrest
      cases Client.moves_of_step h.safe.client.greeted hstep with
      | ack hphase =>
          obtain ⟨p', acked', hnext⟩ := h.acknowledged hphase hfrom
          exact hnext.ordered hsafe
      | finReply hphase => exact absurd hphase hfin
      | timeWait hphase => exact absurd hphase hwait
  | @serverReceive bytes rest hto hs' =>
      subst hs'
      have hrest : rest ⊆ s.toServer := by simp [hto]
      have hs : s.Answers (inetAddr host) bytes
          ⟨s.client, (s.server.receive (inetAddr host) bytes).1, rest,
            s.toClient ++ sendsTo (inetAddr host) (s.server.receive (inetAddr host) bytes).2⟩ :=
        ⟨rfl, rfl, hrest, rfl⟩
      obtain ⟨_, _, _, _, hnext⟩ := h.receive hto hs rfl
      exact .flowing hnext

theorem Ended.step {slot : Nat → Connection} (h : Ended file host slot s)
    (hmove : Session.InOrderMove file (inetAddr host) s s') : Ordered file host s' := by
  cases hmove with
  | client hevent _ _ hstep hs' =>
      subst hs'
      exact .ended (h.client (fun bytes heq => absurd heq (hevent bytes)) hstep (List.Subset.refl _))
  | clientReceive hfrom hstep hs' =>
      subst hs'
      exact .ended (h.client (by rintro _ ⟨⟩; simp [hfrom]) hstep (by simp [hfrom]))
  | @serverReceive bytes rest hto hs' =>
      subst hs'
      have hrest : rest ⊆ s.toServer := by simp [hto]
      have hbytes : bytes ∈ s.toServer := by simp [hto]
      have hs : s.Answers (inetAddr host) bytes
          ⟨s.client, (s.server.receive (inetAddr host) bytes).1, rest,
            s.toClient ++ sendsTo (inetAddr host) (s.server.receive (inetAddr host) bytes).2⟩ :=
        ⟨rfl, rfl, hrest, rfl⟩
      obtain ⟨_, hnext⟩ := h.server hbytes hs
      exact .ended hnext

theorem Ordered.step (h : Ordered file host s)
    (hmove : Session.InOrderMove file (inetAddr host) s s') : Ordered file host s' := by
  cases h with
  | flowing h => exact h.step hmove
  | ended h => exact h.step hmove
  | silent hphase hclient hserver hto hfrom =>
      cases hmove with
      | @client event next _ _ _ hstep hs' =>
          subst hs'
          rcases hphase with hphase | hphase
          · cases Client.greets_of_step (Or.inl hphase) hstep with
            | sendSyn _ =>
                rw [hphase] at hclient
                exact .asked (by rw [hclient]) hserver (by rw [hto, hclient]; rfl) hfrom
            | giveUp _ =>
                exact .silent (Or.inr rfl) (by rw [hclient]) hserver (by simp [hto]) hfrom
            | synTimeout h => exact absurd h (by simp [hphase])
            | reply h => exact absurd h (by simp [hphase])
          · rw [hphase] at hclient
            rw [hclient] at hstep
            cases event <;> simp only [Client.step, reduceCtorEq] at hstep
      | clientReceive hhead _ _ => exact absurd (hfrom.symm.trans hhead) (by simp)
      | serverReceive hhead _ => exact absurd (hto.symm.trans hhead) (by simp)
  | asked hclient hserver hto hfrom =>
      cases hmove with
      | @client event next hevent hsyn _ hstep hs' =>
          have hphase : s.client.phase = .synWait := by rw [hclient]
          cases Client.greets_of_step (Or.inr hphase) hstep with
          | sendSyn h => exact absurd h (by simp [hphase])
          | giveUp h => exact absurd h (by simp [hphase])
          | synTimeout _ => exact absurd rfl hsyn
          | reply _ => exact absurd rfl (hevent _)
      | clientReceive hhead _ _ => exact absurd (hfrom.symm.trans hhead) (by simp)
      | serverReceive hhead hs' =>
          rw [hto] at hhead
          obtain ⟨rfl, rfl⟩ := List.cons.inj hhead
          obtain ⟨htable, payload, hsends⟩ := receive_first_syn host
          rw [hserver, hfrom, hsends] at hs'
          subst hs'
          exact .answered hclient htable rfl rfl
  | @answered payload hclient hserver hto hfrom =>
      have hphase : s.client.phase = .synWait := by rw [hclient]
      cases hmove with
      | @client event next hevent hsyn _ hstep hs' =>
          cases Client.greets_of_step (Or.inr hphase) hstep with
          | sendSyn h => exact absurd h (by simp [hphase])
          | giveUp h => exact absurd h (by simp [hphase])
          | synTimeout _ => exact absurd rfl hsyn
          | reply _ => exact absurd rfl (hevent _)
      | clientReceive hhead hstep hs' =>
          rw [hfrom] at hhead
          obtain ⟨rfl, rfl⟩ := List.cons.inj hhead
          cases Client.greets_of_step (Or.inr hphase) hstep with
          | reply _ =>
              subst hs'
              refine .flowing (flowing_adopted payload hserver (by simp [hto]) rfl ?_)
              rw [hclient]
      | serverReceive hhead _ => exact absurd (hto.symm.trans hhead) (by simp)

theorem ordered_of_reachable (h : Session.ReachableInOrder file (inetAddr host) s) :
    Ordered file host s := by
  refine Reach.invariant (P := Ordered file host) ?_ (ordered_start file host) h
  intro s action s' hs haction hstep
  exact hs.step (Session.inOrderMove_of_step haction hstep)

theorem prefix_of_empty (h : ∀ c ∈ s.server.allConnection, c.myfile.contents = [])
    {c : Connection} (hc : s.connection = some c) : c.myfile.contents <+: file := by
  rw [h c (List.mem_of_find?_eq_some hc)]
  exact List.nil_prefix

theorem empty_start {c : Connection} (hc : c ∈ Server.start.allConnection) :
    c.myfile.contents = [] := by
  rw [List.eq_of_mem_replicate hc]
  rfl

theorem empty_opened {host : Nat} {c : Connection}
    (hc : c ∈ tableOf 1 (Function.update (fun _ => Connection.unused) 0 (opened (inetAddr host) 0))) :
    c.myfile.contents = [] := by
  rw [tableOf, List.mem_append, List.mem_map, List.mem_replicate] at hc
  rcases hc with ⟨j, hj, rfl⟩ | ⟨-, rfl⟩
  · obtain rfl : j = 0 := by simpa using hj
    rfl
  · rfl

theorem Ordered.begins_file (h : Ordered file host s) {c : Connection}
    (hc : s.connection = some c) : c.myfile.contents <+: file := by
  cases h with
  | silent _ _ hserver _ _ => exact prefix_of_empty (by rw [hserver]; exact fun _ => empty_start) hc
  | asked _ hserver _ _ => exact prefix_of_empty (by rw [hserver]; exact fun _ => empty_start) hc
  | answered _ hserver _ _ =>
      exact prefix_of_empty (by rw [hserver]; exact fun _ => empty_opened) hc
  | @flowing p a slot acked sent h =>
      obtain rfl : slot 0 = c := Option.some.inj (h.safe.connection.symm.trans hc)
      rw [h.safe.holds.contents]
      exact List.take_prefix a file
  | @ended slot h =>
      obtain rfl : slot 0 = c := Option.some.inj (h.safe.connection.symm.trans hc)
      rw [h.safe.holds.contents]
      exact List.take_prefix file.length file

theorem Ordered.whole (h : Ordered file host s)
    (hlate : s.client.phase = .finWait ∨ s.client.phase = .timeWait ∨ s.client.phase = .closed) :
    ∃ c, s.connection = some c ∧ c.myfile.contents = file := by
  cases h with
  | silent hphase _ _ _ _ => rcases hphase with hphase | hphase <;> simp [hphase] at hlate
  | asked hclient _ _ _ | answered hclient _ _ _ => simp [hclient] at hlate
  | flowing h => rcases h.phase with (hphase | hphase) | hphase <;> simp [hphase] at hlate
  | @ended slot h =>
      refine ⟨slot 0, h.safe.connection, ?_⟩
      rw [h.safe.holds.contents, List.take_length]

/-- Over a network that keeps the order, without time-outs, a file of any length arrives: the
connection has a prefix of it at every moment, and all of it once the client has left its
loop the normal way. -/
theorem delivery_in_order (h : Session.ReachableInOrder file (inetAddr host) s) :
    (∀ c, s.connection = some c → c.myfile.contents <+: file) ∧
      (s.client.phase = .finWait ∨ s.client.phase = .timeWait ∨ s.client.phase = .closed →
        ∃ c, s.connection = some c ∧ c.myfile.contents = file) :=
  ⟨fun _ => (ordered_of_reachable h).begins_file, (ordered_of_reachable h).whole⟩

def inOrderRun : List Action :=
  [.client .sendSyn, .serverReceive 0, .clientReceive 0, .client (.iterate false),
    .client .nothing, .client (.iterate false), .serverReceive 0, .serverReceive 0,
    .clientReceive 0, .client (.iterate false), .clientReceive 0, .serverReceive 0,
    .clientReceive 0, .clientReceive 0, .client .timeUp]

theorem delivery_inOrderRun :
    ∃ s, run (Session.step (List.replicate 600 7) (inetAddr 0)) Session.start inOrderRun =
        some s ∧
      ∃ c, s.connection = some c ∧ c.myfile.contents = List.replicate 600 7 := by
  have hrun : (run (Session.step (List.replicate 600 7) (inetAddr 0)) Session.start
      inOrderRun).any (fun s => s.client.phase = .closed) = true := by decide +kernel
  obtain ⟨s, hs, hclosed⟩ := (Option.any_eq_true _ _).mp hrun
  have hreach : Session.ReachableInOrder (List.replicate 600 7) (inetAddr 0) s :=
    reach_of_run (by simp [inOrderRun, Action.inOrder]) hs
  exact ⟨s, hs, (delivery_in_order hreach).2 (Or.inr (Or.inr (of_decide_eq_true hclosed)))⟩

end Runs

end Cs118.Confundo
