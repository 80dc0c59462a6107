import Cs118.Confundo.Proofs.Safety
/-!
# Delivery of a file whose sequence numbers do not wrap

Up to 90054 bytes an acknowledgement says exactly how far the server is, so what
the client's log does not cover has been written, and the client leaves its loop
only when the server has everything.
-/

namespace Cs118.Confundo

open Cs118.Lib.Bytes
open Cs118.Lib.Outstanding
open Cs118.Lib.Run

/-- No sequence number of the file wraps: it has at most 90054 bytes. -/
def Small (file : Buffer) : Prop := file.length ≤ 90054

theorem Small.unambiguous {file : Buffer} (h : Small file) : Unambiguous file := by
  apply unambiguous_of_not_wraps
  apply not_wraps_of_lt
  unfold Small at h
  unfold seqModulus
  omega

theorem Small.seqAt_inj {file : Buffer} (h : Small file) {p q : Nat} (hp : p ≤ file.length)
    (hq : q ≤ file.length) (hseq : seqAt p = seqAt q) : p = q := by
  unfold Small at h
  apply Confundo.seqAt_inj _ _ hseq
  · unfold seqModulus
    omega
  · unfold seqModulus
    omega

theorem Small.seqAt_ne_zero {file : Buffer} (h : Small file) {p : Nat} (hp : p ≤ file.length) :
    seqAt p ≠ 0 := by
  unfold Small at h
  apply Confundo.seqAt_ne_zero
  unfold seqModulus
  omega

/-- What the client knows about a server that has `a` bytes. -/
structure OnTrack (file : Buffer) (a fin : Nat) (c : Client) : Prop where
  chain : c.inTransfer → Chain a c.myfile.pos (spans file c.cwndLogs)
  creditTop : c.phase = .loopTop → c.myfile.eof = false →
    c.cwndSpace.toNat ≤ 2 + c.myfile.pos / dataSize
  creditRecv : c.phase = .loopRecv → c.myfile.eof = false →
    c.cwndSpace.toNat ≤ c.myfile.pos / dataSize
  busy : c.phase = .loopRecv → c.cwndLogs ≠ []
  ready : c.phase = .loopTop → c.cwndLogs = [] → c.myfile.eof = false ∧ 0 < c.cwndSpace
  complete : c.phase = .finWait ∨ c.phase = .timeWait ∨ c.phase = .closed → a = file.length
  finished : c.phase = .timeWait ∨ c.phase = .closed → fin = 1

section OnTrack

variable {file : Buffer} {i k a fin : Nat} {c : Client}

theorem OnTrack.receive (h : OnTrack file a fin c) {a' fin' : Nat} (ha : a ≤ a')
    (hbound : a' ≤ file.length) (hfin : fin = 1 → fin' = 1) : OnTrack file a' fin' c :=
  { h with
    chain := fun htransfer => (h.chain htransfer).receive ha
    complete := by
      intro hphase
      have := h.complete hphase
      omega
    finished := fun hphase => hfin (h.finished hphase) }

theorem onTrack_failed (file : Buffer) (a fin : Nat) {c : Client} (hphase : c.phase = .failed) :
    OnTrack file a fin c := by
  constructor <;> simp [Client.inTransfer, hphase]

/-! ## Iterations of the transfer loop -/

theorem onTrack_loopRecv (hphase : c.phase = .loopRecv)
    (hchain : Chain a c.myfile.pos (spans file c.cwndLogs)) (hbusy : c.cwndLogs ≠ [])
    (hcredit : c.myfile.eof = false → c.cwndSpace.toNat ≤ c.myfile.pos / dataSize) :
    OnTrack file a fin c where
  chain := fun _ => hchain
  creditTop := by simp [hphase]
  creditRecv := fun _ => hcredit
  busy := fun _ => hbusy
  ready := by simp [hphase]
  complete := by simp [hphase]
  finished := by simp [hphase]

theorem onTrack_loopTop (hphase : c.phase = .loopTop)
    (hchain : Chain a c.myfile.pos (spans file c.cwndLogs))
    (hcredit : c.myfile.eof = false → c.cwndSpace.toNat ≤ 2 + c.myfile.pos / dataSize)
    (hready : c.cwndLogs = [] → c.myfile.eof = false ∧ 0 < c.cwndSpace) :
    OnTrack file a fin c where
  chain := fun _ => hchain
  creditTop := fun _ => hcredit
  creditRecv := by simp [hphase]
  busy := by simp [hphase]
  ready := fun _ => hready
  complete := by simp [hphase]
  finished := by simp [hphase]

theorem OnTrack.afterSend (h : OnTrack file a fin c) (hphase : c.phase = .loopTop)
    (hspace : 0 < c.cwndSpace) (heof : c.myfile.eof = false) :
    OnTrack file a fin { afterSend file c with phase := .loopRecv } := by
  have hchain := (h.chain (Or.inl hphase)).push (le_endOf file c.myfile.pos)
  refine onTrack_loopRecv rfl ?_ (by simp [Confundo.afterSend]) ?_
  · simpa [Confundo.afterSend, entry] using hchain
  · intro hfull
    have hcredit := h.creditTop hphase heof
    have hlen : ¬ (chunk file c.myfile.pos).length < dataSize := of_decide_eq_false hfull
    have hle := length_chunk_le file c.myfile.pos
    obtain ⟨hpos, hspent⟩ := toNat_sub_one hspace
    simp only [Confundo.afterSend, hspent]
    unfold endOf dataSize at *
    omega

theorem OnTrack.resend (h : OnTrack file a fin c) (hstep : InStep file c)
    (hphase : c.phase = .loopTop) {front : Logger} {rest : List Logger}
    (hlogs : c.cwndLogs = front :: rest) :
    OnTrack file a fin { Confundo.afterSend file (rewind c) with phase := .loopRecv } := by
  have hchain := h.chain (Or.inl hphase)
  rw [hlogs, spans_cons] at hchain
  refine onTrack_loopRecv rfl ?_ ?_ ?_
  · have hrotated := hchain.rotate
    simp only [afterSend_rewind hstep hlogs, spans_append, spans_cons, spans_nil]
    simpa [rewind_cons hlogs, Confundo.afterSend] using hrotated
  · simp [Confundo.afterSend]
  · intro _
    simp [rewind_cons hlogs, Confundo.afterSend]

theorem OnTrack.iterate (h : OnTrack file a fin c) (hstep : InStep file c)
    (hphase : c.phase = .loopTop) {timeout : Bool}
    (henabled : timeout = true → c.cwndLogs ≠ []) :
    OnTrack file a fin
      { (sendNext file (if timeout then rewind c else c)).1 with phase := .loopRecv } := by
  cases timeout with
  | true =>
      obtain ⟨front, rest, hlogs⟩ := List.exists_cons_of_ne_nil (henabled rfl)
      rw [if_pos rfl, sendNext_rewind hstep (henabled rfl)]
      exact h.resend hstep hphase hlogs
  | false =>
      rw [if_neg (by simp)]
      by_cases hcredit : 0 < c.cwndSpace ∧ c.myfile.eof = false
      · rw [sendNext_of_credit hstep hcredit.1 hcredit.2]
        exact h.afterSend hphase hcredit.1 hcredit.2
      · rw [sendNext_of_no_credit hcredit]
        refine onTrack_loopRecv rfl (h.chain (Or.inl hphase)) ?_ ?_
        · intro hlogs
          obtain ⟨heof, hspace⟩ := h.ready hphase hlogs
          exact hcredit ⟨hspace, heof⟩
        · intro heof
          have hzero : ¬ 0 < c.cwndSpace := fun hspace => hcredit ⟨hspace, heof⟩
          have : c.cwndSpace.toNat = 0 := Nat.eq_zero_of_not_pos hzero
          simp [this]

/-- The client leaves the loop only when the server has the whole file. -/
theorem onTrack_endIteration (hstep : InStep file c) (hbound : a ≤ file.length)
    (hchain : Chain a c.myfile.pos (spans file c.cwndLogs))
    (hcredit : c.myfile.eof = false → c.cwndSpace.toNat ≤ 2 + c.myfile.pos / dataSize)
    (hready : c.cwndLogs = [] → c.myfile.eof = false → 0 < c.cwndSpace) :
    OnTrack file a fin (endIteration c).1 := by
  unfold endIteration
  split_ifs with hexit
  · obtain ⟨htellg, hlogs⟩ := hexit
    have heof := hstep.tellg_eq_none.mp htellg
    have hend := hstep.atEnd heof
    rw [hlogs, spans_nil] at hchain
    have hle := hchain.offset_le
    constructor <;> simp [Client.inTransfer]
    omega
  · refine onTrack_loopTop rfl hchain hcredit ?_
    intro hlogs
    have heof : c.myfile.eof = false := by
      by_contra hnot
      exact hexit ⟨hstep.tellg_eq_none.mpr (by simpa using hnot), hlogs⟩
    exact ⟨heof, hready hlogs heof⟩

/-! ## Acknowledgements -/

/-- An acknowledgement that meets the log is about bytes the server has. -/
theorem ServerHeader.acked (hsmall : Small file) {h : Header}
    (hh : ServerHeader file k a fin h) (hopen : fin = 0)
    {log : Logger} (hlog : Logged file log) (hack : log.eAck = h.ack) :
    endOf file log.filePos ≤ a := by
  have hend : endOf file log.filePos ≤ file.length := endOf_le hlog.1.2
  have heAck : log.eAck = seqAt (endOf file log.filePos) := by
    rw [hlog.2]
    rfl
  rw [heAck] at hack
  cases hh with
  | greeting hreply =>
      cases hreply with
      | synAck _ =>
          have hzero := hsmall.seqAt_inj hend (Nat.zero_le _) (hack.trans seqAt_zero.symm)
          omega
      | synEcho =>
          have hecho : (Header.ntoh ⟨12345, 0, 0, synFlag⟩).ack = 0 := by decide
          exact absurd (hack.trans hecho) (hsmall.seqAt_ne_zero hend)
  | @ack _ _ x hx hx' =>
      have heq := hsmall.seqAt_inj hend hx'.1 hack
      omega
  | finished hfin => omega

theorem OnTrack.ack (h : OnTrack file a fin c) (hsmall : Small file) (hstep : InStep file c)
    (hphase : c.phase = .loopRecv) (hopen : fin = 0) (hbound : a ≤ file.length) {hd : Header}
    (hhd : ServerHeader file k a fin hd) :
    OnTrack file a fin (endIteration (onAck c hd.ack)).1 := by
  have hbusy := h.busy hphase
  have hchain := h.chain (Or.inr hphase)
  have hcredit := h.creditRecv hphase
  have hnext := hstep.onAck hd.ack
  rcases onAck_cases c hd.ack with
    ⟨hsame, -⟩ | ⟨before, hit, rest, cwnd, cwndSpace, hsplit, hhit, hspace, hack⟩
  · rw [hsame] at hnext ⊢
    refine onTrack_endIteration hnext hbound hchain ?_ fun hlogs => absurd hlogs hbusy
    intro heof
    have := hcredit heof
    omega
  · have hlogged : Logged file hit := hstep.logged hit (by simp [hsplit])
    have hcovered := hhd.acked hsmall hopen hlogged hhit
    rw [hsplit, spans_append, spans_cons] at hchain
    -- the window is at most two more than the segments sent so far
    have hgrown : c.myfile.eof = false →
        cwndSpace.toNat ≤ 2 + c.myfile.pos / dataSize ∧ 0 < cwndSpace.toNat := by
      intro heof
      have hspaceLe := hcredit heof
      have hpos := hstep.boundary.1
      unfold Small at hsmall
      unfold dataSize at *
      rcases hspace with rfl | rfl
      · rw [toNat_add_one (by omega)]
        omega
      · rw [toNat_add_two (by omega)]
        omega
    rw [hack] at hnext ⊢
    exact onTrack_endIteration hnext hbound (hchain.acknowledge hcovered)
      (fun heof => (hgrown heof).1) fun _ heof => (hgrown heof).2

theorem OnTrack.step (h : OnTrack file a fin c) (hsmall : Small file) (hclient : Sending file i c)
    (hbound : a ≤ file.length) (hearly : c.inTransfer → fin = 0) {event : ClientEvent}
    {next : Client × List Buffer}
    (hevent : ∀ bytes, event = .receive bytes → Carries (ServerHeader file k a fin) bytes)
    (hstep : c.step file event = some next) : OnTrack file a fin next.1 := by
  cases Client.moves_of_step hclient.greeted hstep with
  | iterate hphase henabled => exact h.iterate hclient.inStep hphase henabled
  | @ack bytes hphase =>
      exact h.ack hsmall hclient.inStep hphase (hearly (Or.inr hphase)) hbound
        (hevent bytes rfl).2
  | nothing hphase =>
      refine onTrack_endIteration hclient.inStep hbound (h.chain (Or.inr hphase)) ?_
        fun hlogs => absurd hlogs (h.busy hphase)
      intro heof
      have := h.creditRecv hphase heof
      omega
  | giveUp _ => exact onTrack_failed file a fin rfl
  | resendFin _ => exact h
  | @finReply bytes hphase =>
      have hcomplete := h.complete (Or.inl hphase)
      unfold onFinReply
      split_ifs with hreply
      · have hfin := (hevent bytes rfl).2.fin_of_flags hreply.2
        constructor <;> simp [Client.inTransfer, hcomplete, hfin]
      · exact h
  | @timeWait bytes hphase =>
      have hcomplete := h.complete (Or.inr (Or.inl hphase))
      have hfin := h.finished (Or.inl hphase)
      unfold onTimeWait
      split_ifs
      · constructor <;> simp [Client.inTransfer, hcomplete, hfin, hphase]
      · exact h
  | timeUp hphase =>
      have hcomplete := h.complete (Or.inr (Or.inl hphase))
      have hfin := h.finished (Or.inl hphase)
      constructor <;> simp [Client.inTransfer, hcomplete, hfin]

theorem onTrack_greeted (file : Buffer) (a fin : Nat) (id : UInt32) :
    OnTrack file a fin (Client.greeted id) :=
  onTrack_loopTop rfl (Chain.nil (Nat.zero_le a)) (fun _ => Nat.le_add_right 2 _)
    fun _ => ⟨rfl, (by decide : (0 : UInt32) < 2)⟩

end OnTrack

/-! ## The session -/

structure Delivering (file : Buffer) (host i k : Nat) (slot : Nat → Connection) (a : Nat)
    (s : Session) : Prop where
  safe : Adopted file host i k slot a s
  track : OnTrack file a (slot i).isFin s.client

section Delivering

variable {file : Buffer} {host i k a : Nat} {slot : Nat → Connection} {s s' : Session}

theorem Delivering.client_step (h : Delivering file host i k slot a s) (hsmall : Small file)
    {event : ClientEvent} {next : Client × List Buffer}
    (hevent : ∀ bytes, event = .receive bytes → bytes ∈ s.toClient)
    (hstep : s.client.step file event = some next) (hclient : s'.client = next.1)
    (hserver : s'.server = s.server) (hto : s'.toServer = s.toServer ++ next.2)
    (hfrom : s'.toClient ⊆ s.toClient) : Delivering file host i k slot a s' where
  safe := h.safe.client_step hevent hstep hclient hserver hto hfrom
  track := by
    rw [hclient]
    exact h.track.step hsmall h.safe.client h.safe.holds.boundary.1 h.safe.early
      (fun bytes heq => h.safe.toClient bytes (hevent bytes heq)) hstep

theorem Delivering.step (h : Delivering file host i k slot a s) (hsmall : Small file)
    {action : Action} (hstep : Session.step file (inetAddr host) s action = some s') :
    ∃ k' slot' a', Delivering file host i k' slot' a' s' := by
  cases Session.moves_of_step hstep with
  | client hevent hclientStep hclient hserver hto hfrom =>
      exact ⟨k, slot, a, h.client_step hsmall hevent hclientStep hclient hserver hto hfrom⟩
  | server hbytes hs =>
      obtain ⟨k', slot', a', ha, hfin, hnext⟩ := h.safe.answers hsmall.unambiguous hbytes hs
      refine ⟨k', slot', a', hnext, ?_⟩
      rw [hs.client]
      exact h.track.receive ha hnext.holds.boundary.1 hfin
  | network hclient hserver hto hfrom =>
      refine ⟨k, slot, a, h.safe.network_step hclient hserver hto hfrom, ?_⟩
      rw [hclient]
      exact h.track

theorem greeting_or_delivering (hsmall : Small file)
    (h : Session.Reachable file (inetAddr host) s) :
    (∃ k slot, Greeting host k slot s) ∨ ∃ i k slot a, Delivering file host i k slot a s := by
  refine Reach.invariant (P := fun s => (∃ k slot, Greeting host k slot s) ∨
    ∃ i k slot a, Delivering file host i k slot a s) ?_ ?_ h
  · intro s action s' hs _ hstep
    rcases hs with ⟨k, slot, hgreet⟩ | ⟨i, k, slot, a, hdelivering⟩
    · rcases hgreet.step hstep with hnext | ⟨i, hnext, hclient, -⟩
      · exact Or.inl hnext
      · refine Or.inr ⟨i, k, slot, 0, hnext, ?_⟩
        rcases hclient with hclient | hclient <;> rw [hclient]
        · exact onTrack_greeted file 0 _ _
        · exact onTrack_failed file 0 _ rfl
    · obtain ⟨k', slot', a', hnext⟩ := hdelivering.step hsmall hstep
      exact Or.inr ⟨i, k', slot', a', hnext⟩
  · exact Or.inl ⟨0, fun _ => Connection.unused, greeting_start host _⟩

theorem delivered_of_closed (hsmall : Small file)
    (h : Session.Reachable file (inetAddr host) s) (hclosed : s.client.phase = .closed) :
    ∃ c, s.connection = some c ∧ c.myfile.contents = file ∧ c.isFin = 1 := by
  rcases greeting_or_delivering hsmall h with ⟨k, slot, hgreet⟩ | ⟨i, k, slot, a, hdelivering⟩
  · exact absurd hgreet.phase (by simp [hclosed])
  · refine ⟨slot i, hdelivering.safe.connection, ?_,
      hdelivering.track.finished (Or.inr hclosed)⟩
    rw [hdelivering.safe.holds.contents,
      hdelivering.track.complete (Or.inr (Or.inr hclosed)), List.take_length]

/-- At every moment the adopted connection's file is a prefix of the client's,
and when the client has returned from `ending` it is the client's and closed. -/
theorem delivery_without_wrap (hsmall : file.length ≤ 90054)
    (h : Session.Reachable file (inetAddr host) s) :
    (∀ c, s.connection = some c → c.myfile.contents <+: file) ∧
      (s.client.phase = .closed →
        ∃ c, s.connection = some c ∧ c.myfile.contents = file ∧ c.isFin = 1) :=
  ⟨fun _ hc => prefix_of_unambiguous (Small.unambiguous hsmall) h hc,
    delivered_of_closed hsmall h⟩

/-- A session over a network that loses the first segment and repeats the
`FIN`. -/
def exampleRun : List Action :=
  [.client .sendSyn, .serverReceive 0, .clientReceive 0, .client (.iterate false),
    .loseToServer 0, .client .nothing, .client (.iterate true), .serverReceive 0,
    .clientReceive 0, .copyToServer 0, .serverReceive 0, .serverReceive 0, .clientReceive 1,
    .client .timeUp]

theorem delivery_exampleRun :
    ∃ s, run (Session.step [118, 0, 7] (inetAddr 0)) Session.start exampleRun = some s ∧
      ∃ c, s.connection = some c ∧ c.myfile.contents = [118, 0, 7] ∧ c.isFin = 1 := by
  have hrun : (run (Session.step [118, 0, 7] (inetAddr 0)) Session.start exampleRun).any
      (fun s => s.client.phase = .closed) = true := by decide +kernel
  obtain ⟨s, hs, hclosed⟩ := (Option.any_eq_true _ _).mp hrun
  have hreach : Session.Reachable [118, 0, 7] (inetAddr 0) s :=
    reach_of_run (fun _ _ => trivial) hs
  exact ⟨s, hs, (delivery_without_wrap (by decide) hreach).2 (of_decide_eq_true hclosed)⟩

end Delivering

end Cs118.Confundo
