import Cs118.Confundo.Network
import Cs118.Confundo.Proofs.Delivery
/-!
# Clients that share a server

The joint invariant of a session, for every client at once: each one's slots are
its own, so what the server does for one client reaches another only as the echo
of a `SYN`, which a client in the handshake ignores and one in the transfer drops.
-/

namespace Cs118.Confundo

open Cs118.Lib.Bytes
open Cs118.Lib.Run

/-! ## The table -/

abbrev ServesInet := Tabled fun addr => addr.saFamily = afInet

def Owns (addr : SockAddr) (k : Nat) (slot : Nat → Connection) (j : Nat) : Prop :=
  j < k ∧ (slot j).srcAddr = addr

/-- A change of the table that leaves the client at `addr` its connections, and adds
fresh ones at most. -/
structure Spares (addr : SockAddr) (k : Nat) (slot : Nat → Connection) (k' : Nat)
    (slot' : Nat → Connection) : Prop where
  grows : k ≤ k'
  kept : ∀ j, Owns addr k slot j → slot' j = slot j
  fresh : ∀ j, Owns addr k' slot' j → Owns addr k slot j ∨ slot' j = opened addr j

section Table

variable {addr other : SockAddr} {k i : Nat} {slot : Nat → Connection} {s : Server}

theorem Spares.refl (addr : SockAddr) (k : Nat) (slot : Nat → Connection) :
    Spares addr k slot k slot where
  grows := le_rfl
  kept := fun _ _ => rfl
  fresh := fun _ h => Or.inl h

theorem Spares.owns {k' : Nat} {slot' : Nat → Connection} (h : Spares addr k slot k' slot')
    {j : Nat} (hj : Owns addr k slot j) : Owns addr k' slot' j :=
  ⟨hj.1.trans_le h.grows, by rw [h.kept j hj]; exact hj.2⟩

theorem spares_update {c : Connection} (hne : other ≠ addr) (hold : (slot i).srcAddr = other)
    (hnew : c.srcAddr = other) : Spares addr k slot k (Function.update slot i c) where
  grows := le_rfl
  kept := by
    intro j hj
    apply Function.update_of_ne
    rintro rfl
    exact hne (hold.symm.trans hj.2)
  fresh := by
    intro j hj
    by_cases hji : j = i
    · subst hji
      have howner := hj.2
      rw [Function.update_self, hnew] at howner
      exact absurd howner hne
    · rw [Owns, Function.update_of_ne hji] at hj
      exact Or.inl hj

theorem spares_open (addr other : SockAddr) (k : Nat) (slot : Nat → Connection) :
    Spares addr k slot (k + 1) (Function.update slot k (opened other k)) where
  grows := Nat.le_succ k
  kept := fun j hj => Function.update_of_ne (Nat.ne_of_lt hj.1) _ _
  fresh := by
    intro j hj
    by_cases hjk : j = k
    · subst hjk
      have howner := hj.2
      rw [Function.update_self] at howner ⊢
      obtain rfl : other = addr := howner
      exact Or.inr rfl
    · have hlt := hj.1
      rw [Owns, Function.update_of_ne hjk] at hj
      exact Or.inl ⟨by omega, hj.2⟩

end Table

/-! ## A party's view -/

/-- The headers of the replies to a `SYN` of a client whose connections are `own`. -/
inductive GreetingHeader (own : Nat → Prop) : Header → Prop
  | synAck {j : Nat} (hj : own j) :
      GreetingHeader own ⟨4321, 12346, UInt16.ofNat (j + 1), synAckFlag⟩
  | synEcho : GreetingHeader own (Header.ntoh ⟨12345, 0, 0, synFlag⟩)

theorem GreetingHeader.mono {own own' : Nat → Prop} {h : Header} (hh : GreetingHeader own h)
    (hown : ∀ j, own j → own' j) : GreetingHeader own' h := by
  cases hh with
  | synAck hj => exact .synAck (hown _ hj)
  | synEcho => exact .synEcho

theorem GreetingHeader.synReply {own : Nat → Prop} {h : Header} (hh : GreetingHeader own h)
    {k : Nat} (hown : ∀ j, own j → j < k) : SynReply k h := by
  cases hh with
  | synAck hj => exact .synAck (hown _ hj)
  | synEcho => exact .synEcho

structure Newcomer (addr : SockAddr) (k : Nat) (slot : Nat → Connection) (p : Party) : Prop where
  fresh : ∀ j, Owns addr k slot j → slot j = opened addr j
  phase : p.client.phase = .synSend ∨ p.client.phase = .synWait ∨ p.client.phase = .failed
  client : p.client = { Client.start with phase := p.client.phase }
  toServer : ∀ bytes ∈ p.toServer, bytes = datagram ⟨12345, 0, 0, synFlag⟩ noData
  toClient : ∀ bytes ∈ p.toClient, Carries (GreetingHeader (Owns addr k slot)) bytes

structure Resident (file : Buffer) (addr : SockAddr) (i a k : Nat) (slot : Nat → Connection)
    (p : Party) : Prop where
  owns : Owns addr k slot i
  fresh : ∀ j, Owns addr k slot j → j ≠ i → slot j = opened addr j
  holds : Holds file addr i a (slot i)
  client : Sending file i p.client
  track : Small file → OnTrack file a (slot i).isFin p.client
  early : p.client.inTransfer → (slot i).isFin = 0
  toServer : ∀ bytes ∈ p.toServer,
    ClientDatagram file i (¬ p.client.inTransfer) (slot i).isFin bytes
  toClient : ∀ bytes ∈ p.toClient, Carries (ServerHeader file k a (slot i).isFin) bytes

inductive Standing (file : Buffer) (addr : SockAddr) (k : Nat) (slot : Nat → Connection)
    (p : Party) : Prop
  | newcomer (h : Newcomer addr k slot p)
  | resident {i a : Nat} (h : Resident file addr i a k slot p)

section Party

variable {file : Buffer} {addr : SockAddr} {i a k k' : Nat} {slot slot' : Nat → Connection}
  {p p' : Party}

theorem Newcomer.spared (h : Newcomer addr k slot p) (hspares : Spares addr k slot k' slot')
    (hclient : p'.client = p.client) (hto : p'.toServer ⊆ p.toServer)
    (hfrom : ∀ bytes ∈ p'.toClient, bytes ∈ p.toClient ∨
      Carries (GreetingHeader (Owns addr k' slot')) bytes) : Newcomer addr k' slot' p' where
  fresh := by
    intro j hj
    rcases hspares.fresh j hj with hold | hnew
    · rw [hspares.kept j hold]
      exact h.fresh j hold
    · exact hnew
  phase := hclient ▸ h.phase
  client := hclient ▸ h.client
  toServer := fun bytes hbytes => h.toServer bytes (hto hbytes)
  toClient := by
    intro bytes hbytes
    rcases hfrom bytes hbytes with hold | hnew
    · exact (h.toClient bytes hold).imp fun _ hh => hh.mono fun _ hj => hspares.owns hj
    · exact hnew

theorem Resident.spared (h : Resident file addr i a k slot p)
    (hspares : Spares addr k slot k' slot') (hclient : p'.client = p.client)
    (hto : p'.toServer ⊆ p.toServer)
    (hfrom : ∀ bytes ∈ p'.toClient, bytes ∈ p.toClient ∨
      Carries (GreetingHeader (Owns addr k' slot')) bytes) :
    Resident file addr i a k' slot' p' := by
  have hself : slot' i = slot i := hspares.kept i h.owns
  exact
    { owns := hspares.owns h.owns
      fresh := by
        intro j hj hji
        rcases hspares.fresh j hj with hold | hnew
        · rw [hspares.kept j hold]
          exact h.fresh j hold hji
        · exact hnew
      holds := hself ▸ h.holds
      client := hclient ▸ h.client
      track := by
        rw [hself, hclient]
        exact h.track
      early := by
        rw [hself, hclient]
        exact h.early
      toServer := by
        intro bytes hbytes
        rw [hself, hclient]
        exact h.toServer bytes (hto hbytes)
      toClient := by
        intro bytes hbytes
        rw [hself]
        rcases hfrom bytes hbytes with hold | hnew
        · exact (h.toClient bytes hold).imp fun _ hh => hh.mono hspares.grows le_rfl id
        · exact hnew.imp fun _ hh => .greeting (hh.synReply fun _ hj => hj.1) }

theorem Standing.spared (h : Standing file addr k slot p) (hspares : Spares addr k slot k' slot')
    (hclient : p'.client = p.client) (hto : p'.toServer ⊆ p.toServer)
    (hfrom : ∀ bytes ∈ p'.toClient, bytes ∈ p.toClient ∨
      Carries (GreetingHeader (Owns addr k' slot')) bytes) :
    Standing file addr k' slot' p' := by
  cases h with
  | newcomer h => exact .newcomer (h.spared hspares hclient hto hfrom)
  | resident h => exact .resident (h.spared hspares hclient hto hfrom)

/-! ## The client moves -/

theorem greeting_step {own : Nat → Prop} {c : Client}
    (hclient : c = { Client.start with phase := c.phase })
    (hphase : c.phase = .synSend ∨ c.phase = .synWait ∨ c.phase = .failed) {event : ClientEvent}
    {next : Client × List Buffer}
    (hevent : ∀ bytes, event = .receive bytes → Carries (GreetingHeader own) bytes)
    (hstep : c.step file event = some next) :
    (next.1 = { Client.start with phase := next.1.phase } ∧
        (next.1.phase = .synSend ∨ next.1.phase = .synWait ∨ next.1.phase = .failed) ∧
        ∀ bytes ∈ next.2, bytes = datagram ⟨12345, 0, 0, synFlag⟩ noData) ∨
      ∃ j, own j ∧ next.2 = [] ∧
        next.1 = if fileTooLarge file then Client.refused (UInt16.ofNat (j + 1)).toUInt32
          else Client.greeted (UInt16.ofNat (j + 1)).toUInt32 := by
  rcases hphase with hphase | hphase | hphase <;> rw [hphase] at hclient <;> subst hclient
  · cases Client.greets_of_step (Or.inl rfl) hstep with
    | sendSyn _ => exact Or.inl ⟨rfl, by simp, fun bytes hbytes => List.mem_singleton.mp hbytes⟩
    | giveUp _ => exact Or.inl ⟨rfl, by simp, by simp⟩
    | synTimeout h => exact absurd h (by simp)
    | reply h => exact absurd h (by simp)
  · cases Client.greets_of_step (Or.inr rfl) hstep with
    | sendSyn h => exact absurd h (by simp)
    | giveUp h => exact absurd h (by simp)
    | synTimeout _ => exact Or.inl ⟨rfl, by simp, by simp⟩
    | @reply bytes _ =>
        obtain ⟨-, hreply⟩ := hevent bytes rfl
        generalize readHeader bytes = header at hreply
        cases hreply with
        | synEcho =>
            rw [onSynReply_synEcho]
            exact Or.inl ⟨rfl, by simp, by simp⟩
        | @synAck j hj => exact Or.inr ⟨j, hj, rfl, onSynReply_synAck file _⟩
  · cases event <;> simp only [Client.step, reduceCtorEq] at hstep

theorem Newcomer.client_step (h : Newcomer addr k slot p) (hfew : k ≤ 10) {event : ClientEvent}
    {next : Client × List Buffer} (hevent : ∀ bytes, event = .receive bytes → bytes ∈ p.toClient)
    (hstep : p.client.step file event = some next) (hclient : p'.client = next.1)
    (hto : p'.toServer = p.toServer ++ next.2) (hfrom : p'.toClient ⊆ p.toClient) :
    Standing file addr k slot p' := by
  rcases greeting_step h.client h.phase
    (fun bytes heq => h.toClient bytes (hevent bytes heq)) hstep with
    ⟨hsame, hphase, hout⟩ | ⟨j, hj, hout, hnext⟩
  · rw [← hclient] at hsame hphase
    refine .newcomer ⟨h.fresh, hphase, hsame, ?_, fun bytes hbytes => h.toClient bytes (hfrom hbytes)⟩
    intro bytes hbytes
    rw [hto, List.mem_append] at hbytes
    exact hbytes.elim (h.toServer bytes) (hout bytes)
  · rw [← hclient] at hnext
    have hslot := h.fresh j hj
    have hlt : j < 10 := hj.1.trans_le hfew
    refine .resident (i := j) (a := 0) ?_
    exact
      { owns := hj
        fresh := fun l hl _ => h.fresh l hl
        holds := hslot ▸ holds_opened file addr j
        client := by
          rw [hnext]
          split_ifs
          · exact sending_refused file hlt
          · exact sending_greeted file hlt
        track := by
          intro _
          rw [hnext]
          split_ifs
          · exact onTrack_failed file 0 _ rfl
          · exact onTrack_greeted file 0 _ _
        early := fun _ => by rw [hslot]; rfl
        toServer := by
          intro bytes hbytes
          rw [hto, hout, List.append_nil] at hbytes
          rw [h.toServer bytes hbytes]
          exact .syn
        toClient := fun bytes hbytes => (h.toClient bytes (hfrom hbytes)).imp fun _ hh =>
          .greeting (hh.synReply fun _ hl => hl.1) }

theorem Resident.client_step (h : Resident file addr i a k slot p) {event : ClientEvent}
    {next : Client × List Buffer} (hevent : ∀ bytes, event = .receive bytes → bytes ∈ p.toClient)
    (hstep : p.client.step file event = some next) (hclient : p'.client = next.1)
    (hto : p'.toServer = p.toServer ++ next.2) (hfrom : p'.toClient ⊆ p.toClient) :
    Resident file addr i a k slot p' := by
  obtain ⟨hsending, hlate, hout⟩ :=
    h.client.step (fun bytes heq => h.toClient bytes (hevent bytes heq)) hstep
  rw [← hclient] at hsending hlate hout
  exact
    { owns := h.owns
      fresh := h.fresh
      holds := h.holds
      client := hsending
      track := by
        intro hsmall
        rw [hclient]
        exact (h.track hsmall).step hsmall h.client h.holds.boundary.1 h.early
          (fun bytes heq => h.toClient bytes (hevent bytes heq)) hstep
      early := fun htransfer => h.early (by_contra fun hnot => hlate hnot htransfer)
      toServer := by
        intro bytes hbytes
        rw [hto, List.mem_append] at hbytes
        rcases hbytes with hold | hnew
        · exact (h.toServer bytes hold).mono hlate id
        · exact hout bytes hnew
      toClient := fun bytes hbytes => h.toClient bytes (hfrom hbytes) }

/-! ## The server answers -/

/-- What the server does with a datagram of connection `i + 1`: it updates the slot and
sends to the owner. -/
structure Update (file : Buffer) (addr : SockAddr) (i a k : Nat) (slot : Nat → Connection)
    (p : Party) (next : Server × List Send) (c : Connection) : Prop where
  table : next.1.allConnection = tableOf k (Function.update slot i c)
  holds : Holds file addr i a c
  closes : (slot i).isFin = 1 → c.isFin = 1
  early : p.client.inTransfer → c.isFin = 0
  sends : ∀ send ∈ next.2, send.1 = addr ∧ Carries (ServerHeader file k a c.isFin) send.2

theorem Resident.updated (h : Resident file addr i a k slot p) {next : Server × List Send}
    {c : Connection} {a' : Nat} (ha : a ≤ a') (hu : Update file addr i a' k slot p next c)
    (hclient : p'.client = p.client) (hto : p'.toServer ⊆ p.toServer)
    (hfrom : p'.toClient = p.toClient ++ sendsTo addr next.2) :
    Resident file addr i a' k (Function.update slot i c) p' := by
  have hself : Function.update slot i c i = c := Function.update_self ..
  exact
    { owns := ⟨h.owns.1, by rw [hself]; exact hu.holds.source⟩
      fresh := by
        intro j hj hji
        rw [Owns, Function.update_of_ne hji] at hj
        rw [Function.update_of_ne hji]
        exact h.fresh j hj hji
      holds := by
        rw [hself]
        exact hu.holds
      client := hclient ▸ h.client
      track := by
        intro hsmall
        rw [hself, hclient]
        exact (h.track hsmall).receive ha hu.holds.boundary.1 hu.closes
      early := by
        rw [hself, hclient]
        exact hu.early
      toServer := by
        intro bytes hbytes
        rw [hself, hclient]
        exact (h.toServer bytes (hto hbytes)).mono id hu.closes
      toClient := by
        intro bytes hbytes
        rw [hfrom, List.mem_append] at hbytes
        rw [hself]
        rcases hbytes with hold | hnew
        · exact (h.toClient bytes hold).imp fun _ hh => hh.mono le_rfl ha hu.closes
        · exact (hu.sends _ (sendsTo_subset hnew)).2 }

theorem Resident.answer (h : Resident file addr i a k slot p) (huniq : Unambiguous file)
    {s : Server} (hs : ServesInet k slot s) {bytes : Buffer}
    (hbytes : bytes ∈ p.toServer) (hsyn : bytes ≠ datagram ⟨12345, 0, 0, synFlag⟩ noData) :
    ∃ c a', a ≤ a' ∧ Update file addr i a' k slot p (s.receive addr bytes) c := by
  have hreply : ∀ {x : Nat} {fin : Nat} {sends : List Send} {seq : UInt32} {id : UInt16}
      {payload : Buffer} {b : Nat}, sends = [(addr, datagram ⟨seq, seqAt x, id, ackFlag⟩ payload)] →
      x ≤ b → Boundary file x → ∀ send ∈ sends, send.1 = addr ∧
        Carries (ServerHeader file k b fin) send.2 := by
    rintro x fin sends seq id payload b rfl hx hbound send hsend
    obtain rfl := List.mem_singleton.mp hsend
    exact ⟨rfl, carries_datagram _ (.ack hx hbound)⟩
  cases h.toServer bytes hbytes with
  | syn => exact absurd rfl hsyn
  | @segment pos ack flags hcut hflags =>
      rcases h.holds.fin with hopen | hclosed
      · by_cases hseq : seqAt pos = seqAt a
        · obtain rfl : pos = a := huniq.eq hcut h.holds.boundary hseq
          obtain ⟨c, seq, payload, hbranch, hholds, hopen'⟩ :=
            h.holds.dataBranch_next hopen hcut
              (h := ⟨seqAt pos, ack, UInt16.ofNat (i + 1), flags⟩) rfl
          obtain ⟨htable, hsends⟩ := hs.receive_data addr h.owns.1 (length_chunk_le file pos) rfl
            hflags hbranch
          exact ⟨c, _, le_endOf file pos, htable, hholds, fun hclosed => by omega,
            fun _ => hopen', hreply hsends le_rfl hcut.boundary_endOf⟩
        · obtain ⟨c, seq, payload, hbranch, hholds, hopen'⟩ :=
            h.holds.dataBranch_other hopen
              (h := ⟨seqAt pos, ack, UInt16.ofNat (i + 1), flags⟩) hseq (chunk file pos)
              (12 + (chunk file pos).length)
          obtain ⟨htable, hsends⟩ := hs.receive_data addr h.owns.1 (length_chunk_le file pos) rfl
            hflags hbranch
          exact ⟨c, a, le_rfl, htable, hholds, fun hclosed => by omega, fun _ => hopen',
            hreply hsends le_rfl h.holds.boundary⟩
      · obtain ⟨c, hbranch, hholds, hclosed'⟩ := h.holds.dataBranch_closed hclosed
          (padded ⟨seqAt pos, ack, UInt16.ofNat (i + 1), flags⟩ (chunk file pos))
          (12 + (chunk file pos).length)
        obtain ⟨htable, hsends⟩ := hs.receive_data addr h.owns.1 (length_chunk_le file pos) rfl
          hflags hbranch
        refine ⟨c, a, le_rfl, htable, hholds, fun _ => hclosed', fun hearly => ?_, ?_⟩
        · have := h.early hearly
          omega
        · rw [hsends]
          simp
  | @finish seq hlate =>
      obtain ⟨c, sends, hbranch, hall, hholds, hclosed⟩ := h.holds.finBranch
        (padded ⟨seq, 0, UInt16.ofNat (i + 1), finFlag⟩ noData)
      obtain ⟨htable, hsends⟩ := hs.receive_fin addr h.owns.1 length_noData.le rfl rfl hbranch
      refine ⟨c, a, le_rfl, htable, hholds, fun _ => hclosed, fun hearly => absurd hearly hlate, ?_⟩
      intro send hsend
      rw [hsends] at hsend
      obtain ⟨header, payload, rfl⟩ := hall send hsend
      exact ⟨rfl, carries_datagram _ (.finished hclosed)⟩
  | @lastAck seq ack hclosed =>
      obtain ⟨c, hbranch, hholds, hclosed'⟩ := h.holds.dataBranch_closed hclosed
        (padded ⟨seq, ack, UInt16.ofNat (i + 1), ackFlag⟩ noData) (12 + noData.length)
      obtain ⟨htable, hsends⟩ := hs.receive_data addr h.owns.1 length_noData.le rfl (Or.inl rfl)
        hbranch
      refine ⟨c, a, le_rfl, htable, hholds, fun _ => hclosed', fun hearly => ?_, ?_⟩
      · have := h.early hearly
        omega
      · rw [hsends]
        simp

end Party

/-- A `SYN` of any client opens a connection of its own at most, and what is sent to
anyone is a reply to a `SYN`. -/
theorem ServesInet.receive_syn {k : Nat} {slot : Nat → Connection} {s : Server}
    (hs : ServesInet k slot s) (host : Nat) :
    ∃ k' slot', ServesInet k' slot'
        (s.receive (inetAddr host) (datagram ⟨12345, 0, 0, synFlag⟩ noData)).1 ∧
      (∀ addr, Spares addr k slot k' slot') ∧
      ∀ addr bytes, bytes ∈ sendsTo addr
          (s.receive (inetAddr host) (datagram ⟨12345, 0, 0, synFlag⟩ noData)).2 →
        Carries (GreetingHeader (Owns addr k' slot')) bytes := by
  have hecho : ∀ own addr bytes,
      (addr, bytes) ∈ echoes (padded ⟨12345, 0, 0, synFlag⟩ noData) k slot →
        Carries (GreetingHeader own) bytes := by
    intro own addr bytes hbytes
    obtain ⟨j, -, heq⟩ := List.mem_map.mp hbytes
    obtain rfl : _ = bytes := congrArg Prod.snd heq
    refine ⟨List.append_ne_nil_of_left_ne_nil (by decide) _, ?_⟩
    rw [readHeader_image]
    exact .synEcho
  rcases Tabled.receive_syn hs (fun _ h => h) host rfl with
    ⟨-, htabled, hsends⟩ | ⟨-, htabled, hsends⟩
  · refine ⟨k + 1, Function.update slot k (opened (inetAddr host) k), htabled,
      fun addr => spares_open addr (inetAddr host) k slot, ?_⟩
    intro addr bytes hbytes
    have hmem := sendsTo_subset hbytes
    rw [hsends, List.mem_append, List.mem_singleton] at hmem
    rcases hmem with hmem | heq
    · exact hecho _ addr bytes hmem
    · obtain rfl : addr = inetAddr host := congrArg Prod.fst heq
      obtain rfl : bytes = _ := congrArg Prod.snd heq
      exact carries_datagram _ (.synAck ⟨Nat.lt_succ_self k, by rw [Function.update_self]; rfl⟩)
  · refine ⟨k, slot, htabled, fun addr => Spares.refl addr k slot, ?_⟩
    intro addr bytes hbytes
    have hmem := sendsTo_subset hbytes
    rw [hsends] at hmem
    exact hecho _ addr bytes hmem

/-! ## Every interleaving -/

namespace Network

variable {ι : Type} {file : ι → Buffer} {host : ι → Nat} {n n' : Network ι}

structure Settled (file : ι → Buffer) (host : ι → Nat) (k : Nat) (slot : Nat → Connection)
    (n : Network ι) : Prop where
  tabled : ServesInet k slot n.server
  standing : ∀ i, Standing (file i) (inetAddr (host i)) k slot (n.party i)

theorem settled_start (file : ι → Buffer) (host : ι → Nat) (slot : Nat → Connection) :
    Settled file host 0 slot (start : Network ι) where
  tabled := ⟨by omega, rfl, by simp, by simp⟩
  standing := fun i => .newcomer
    { fresh := fun j hj => absurd hj.1 (Nat.not_lt_zero j)
      phase := Or.inl rfl
      client := rfl
      toServer := by simp [start, Party.start]
      toClient := by simp [start, Party.start] }

theorem Settled.contents {k : Nat} {slot : Nat → Connection} (h : Settled file host k slot n)
    (i : ι) {c : Connection} (hc : c ∈ n.server.allConnection)
    (howner : c.srcAddr = inetAddr (host i)) : c.myfile.contents <+: file i := by
  rw [h.tabled.table, tableOf, List.mem_append, List.mem_map, List.mem_replicate] at hc
  rcases hc with ⟨j, hj, rfl⟩ | ⟨-, rfl⟩
  · have howns : Owns (inetAddr (host i)) k slot j := ⟨by simpa using hj, howner⟩
    cases h.standing i with
    | newcomer hi =>
        rw [hi.fresh j howns]
        exact List.nil_prefix
    | @resident l a hi =>
        by_cases hjl : j = l
        · subst hjl
          rw [hi.holds.contents]
          exact List.take_prefix a (file i)
        · rw [hi.fresh j howns hjl]
          exact List.nil_prefix
  · exact List.nil_prefix

theorem Settled.closed {k : Nat} {slot : Nat → Connection} (h : Settled file host k slot n)
    {i : ι} (hsmall : Small (file i)) (hclosed : (n.party i).client.phase = .closed) :
    ∃ c, (n.session i).connection = some c ∧ c.srcAddr = inetAddr (host i) ∧
      c.myfile.contents = file i ∧ c.isFin = 1 := by
  cases h.standing i with
  | newcomer hi => exact absurd hi.phase (by simp [hclosed])
  | @resident l a hi =>
      have htrack := hi.track hsmall
      refine ⟨slot l, ?_, hi.owns.2, ?_, htrack.finished (Or.inr hclosed)⟩
      · exact Tabled.connection (s := n.session i) h.tabled hi.owns.1 hi.client.idNum
      · rw [hi.holds.contents, htrack.complete (Or.inr (Or.inr hclosed)), List.take_length]

variable [DecidableEq ι]

theorem inetAddr_injective : Function.Injective inetAddr := by
  intro a b h
  exact congrArg SockAddr.saData h

theorem Settled.server_step {k : Nat} {slot : Nat → Connection} (h : Settled file host k slot n)
    (hhost : Function.Injective host) (huniq : ∀ i, Unambiguous (file i)) (i : ι)
    {bytes : Buffer} (hbytes : bytes ∈ (n.party i).toServer)
    (hserver : n'.server = (n.server.receive (inetAddr (host i)) bytes).1)
    (hclient : ∀ j, (n'.party j).client = (n.party j).client)
    (hto : ∀ j, (n'.party j).toServer ⊆ (n.party j).toServer)
    (hfrom : ∀ j, (n'.party j).toClient = (n.party j).toClient ++
      sendsTo (inetAddr (host j)) (n.server.receive (inetAddr (host i)) bytes).2) :
    ∃ k' slot', Settled file host k' slot' n' := by
  by_cases hsyn : bytes = datagram ⟨12345, 0, 0, synFlag⟩ noData
  · subst hsyn
    obtain ⟨k', slot', htabled, hspares, hsends⟩ := ServesInet.receive_syn h.tabled (host i)
    refine ⟨k', slot', hserver ▸ htabled, fun j => ?_⟩
    refine (h.standing j).spared (hspares _) (hclient j) (hto j) fun out hout => ?_
    rw [hfrom j, List.mem_append] at hout
    exact hout.imp id (hsends _ out)
  · cases h.standing i with
    | newcomer hi => exact absurd (hi.toServer bytes hbytes) hsyn
    | @resident l a hi =>
        obtain ⟨c, a', ha, hu⟩ := hi.answer (huniq i) h.tabled hbytes hsyn
        refine ⟨k, Function.update slot l c, ?_, fun j => ?_⟩
        · exact h.tabled.update (hserver ▸ hu.table) hu.holds.id (by rw [hu.holds.source]; rfl)
        · by_cases hj : j = i
          · subst hj
            exact .resident (hi.updated ha hu (hclient j) (hto j) (hfrom j))
          · have hne : inetAddr (host i) ≠ inetAddr (host j) := fun heq =>
              hj (hhost (inetAddr_injective heq)).symm
            refine (h.standing j).spared (spares_update hne hi.holds.source hu.holds.source)
              (hclient j) (hto j) fun out hout => ?_
            -- every datagram goes to the owner of the slot
            rw [hfrom j, List.mem_append] at hout
            refine hout.imp id fun hnew => ?_
            exact absurd (hu.sends _ (sendsTo_subset hnew)).1 hne.symm

theorem Settled.step {k : Nat} {slot : Nat → Connection} (h : Settled file host k slot n)
    (hhost : Function.Injective host) (huniq : ∀ i, Unambiguous (file i)) {a : ι × Action}
    (hstep : Network.step file (fun i => inetAddr (host i)) n a = some n') :
    ∃ k' slot', Settled file host k' slot' n' := by
  cases moves_of_step hstep with
  | client i hevent hclientStep hclient hto hfrom hserver hothers =>
      refine ⟨k, slot, hserver ▸ h.tabled, fun j => ?_⟩
      by_cases hj : j = i
      · subst hj
        cases h.standing j with
        | newcomer hi => exact hi.client_step h.tabled.few hevent hclientStep hclient hto hfrom
        | resident hi => exact .resident (hi.client_step hevent hclientStep hclient hto hfrom)
      · rw [hothers j hj]
        exact h.standing j
  | server i hbytes hserver hclient hto hfrom =>
      exact h.server_step hhost huniq i hbytes hserver hclient hto hfrom
  | network i hclient hto hfrom hserver hothers =>
      refine ⟨k, slot, hserver ▸ h.tabled, fun j => ?_⟩
      by_cases hj : j = i
      · subst hj
        exact (h.standing j).spared (Spares.refl _ k slot) hclient hto
          fun out hout => Or.inl (hfrom hout)
      · rw [hothers j hj]
        exact h.standing j

theorem settled_of_reachable (hhost : Function.Injective host)
    (huniq : ∀ i, Unambiguous (file i))
    (h : Reachable file (fun i => inetAddr (host i)) n) : ∃ k slot, Settled file host k slot n := by
  refine Reach.invariant (P := fun n => ∃ k slot, Settled file host k slot n) ?_ ?_ h
  · rintro s action s' ⟨k, slot, hs⟩ - hstep
    exact hs.step hhost huniq hstep
  · exact ⟨0, fun _ => Connection.unused, settled_start file host _⟩

/-- Clients at different addresses share one server over any network: no slot of a client
ever has anything but a prefix of its file, and a client that has returned from `ending`
has delivered its file, if no sequence number in it wraps. -/
theorem delivery_to_shared_server (hhost : Function.Injective host)
    (hwraps : ∀ i, ¬ Wraps (file i).length)
    (h : Reachable file (fun i => inetAddr (host i)) n) (i : ι) :
    (∀ c ∈ n.server.allConnection, c.srcAddr = inetAddr (host i) →
        c.myfile.contents <+: file i) ∧
      ((file i).length ≤ 90054 → (n.party i).client.phase = .closed →
        ∃ c, (n.session i).connection = some c ∧ c.srcAddr = inetAddr (host i) ∧
          c.myfile.contents = file i ∧ c.isFin = 1) := by
  obtain ⟨k, slot, hs⟩ := settled_of_reachable hhost
    (fun i => unambiguous_of_not_wraps (hwraps i)) h
  exact ⟨fun c hc howner => hs.contents i hc howner, fun hsmall => hs.closed hsmall⟩

def twoFiles (b : Bool) : Buffer := if b then [1, 2, 3] else [7]

def twoHosts (b : Bool) : Nat := if b then 1 else 2

/-- Two clients at once: both greet, the `SYN` of the second is echoed to the first, the
network loses a segment of the first, and both finish. -/
def sharedRun : List (Bool × Action) :=
  [(true, .client .sendSyn), (false, .client .sendSyn), (true, .serverReceive 0),
    (false, .serverReceive 0), (true, .clientReceive 0), (false, .clientReceive 0),
    (true, .client (.iterate false)), (false, .client (.iterate false)),
    (true, .loseToServer 0), (false, .serverReceive 0), (true, .client .nothing),
    (false, .clientReceive 0), (true, .client (.iterate true)), (true, .serverReceive 0),
    (true, .clientReceive 1), (true, .serverReceive 0), (false, .serverReceive 0),
    (true, .clientReceive 2), (false, .clientReceive 1), (false, .client .timeUp),
    (true, .client .timeUp)]

theorem delivery_sharedRun :
    ∃ n, run (step twoFiles fun b => inetAddr (twoHosts b)) start sharedRun = some n ∧
      ∀ b, ∃ c, (n.session b).connection = some c ∧ c.srcAddr = inetAddr (twoHosts b) ∧
        c.myfile.contents = twoFiles b ∧ c.isFin = 1 := by
  have hrun : (run (step twoFiles fun b => inetAddr (twoHosts b)) start sharedRun).any
      (fun n => ∀ b, (n.party b).client.phase = .closed) = true := by decide +kernel
  obtain ⟨n, hn, hclosed⟩ := (Option.any_eq_true _ _).mp hrun
  have hreach : Reachable twoFiles (fun b => inetAddr (twoHosts b)) n :=
    reach_of_run (fun _ _ => trivial) hn
  have hhost : Function.Injective twoHosts := fun b b' => (by decide :
    ∀ b b', twoHosts b = twoHosts b' → b = b') b b'
  have hshort : ∀ b, (twoFiles b).length ≤ 90054 := by decide
  refine ⟨n, hn, fun b => ?_⟩
  exact (delivery_to_shared_server hhost
    (fun b => not_wraps_of_lt ((hshort b).trans_lt (by decide))) hreach b).2 (hshort b)
      (of_decide_eq_true hclosed b)

end Network

end Cs118.Confundo
