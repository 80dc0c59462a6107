import Cs118.Confundo.Session
import Cs118.Confundo.Proofs.Table
/-!
# The server against the datagrams of one client

Which datagrams can be in flight between a client at one address and the
server, and what the server does on each of them.
-/

namespace Cs118.Confundo

open Cs118.Lib.Bytes

/-! ## Datagrams in flight -/

def noData : Buffer := List.replicate dataSize 0

@[simp] theorem length_noData : noData.length = dataSize := List.length_replicate

/-- What the client of connection `i + 1` may have in flight: `late` once it has
left the transfer loop, `fin` when the server has seen its `FIN`. -/
inductive ClientDatagram (file : Buffer) (i : Nat) (late : Prop) (fin : Nat) : Buffer → Prop
  | syn : ClientDatagram file i late fin (datagram ⟨12345, 0, 0, synFlag⟩ noData)
  | segment {pos : Nat} {ack : UInt32} {flags : UInt16} (cut : Cut file pos)
      (hflags : flags = ackFlag ∨ flags = 0) :
      ClientDatagram file i late fin
        (datagram ⟨seqAt pos, ack, UInt16.ofNat (i + 1), flags⟩ (chunk file pos))
  | finish {seq : UInt32} (hlate : late) :
      ClientDatagram file i late fin
        (datagram ⟨seq, 0, UInt16.ofNat (i + 1), finFlag⟩ noData)
  | lastAck {seq ack : UInt32} (hfin : fin = 1) :
      ClientDatagram file i late fin
        (datagram ⟨seq, ack, UInt16.ofNat (i + 1), ackFlag⟩ noData)

/-- The headers of the replies to a `SYN` when `k` connections are open.  The echo
goes out with its header in host order. -/
inductive SynReply (k : Nat) : Header → Prop
  | synAck {j : Nat} (hj : j < k) :
      SynReply k ⟨4321, 12346, UInt16.ofNat (j + 1), synAckFlag⟩
  | synEcho : SynReply k (Header.ntoh ⟨12345, 0, 0, synFlag⟩)

/-- The header of what the server may have in flight when it serves `k`
connections and holds the first `a` bytes of the file. -/
inductive ServerHeader (file : Buffer) (k a fin : Nat) : Header → Prop
  | greeting {h : Header} (hreply : SynReply k h) : ServerHeader file k a fin h
  | ack {seq : UInt32} {id : UInt16} {x : Nat} (hx : x ≤ a) (hbound : Boundary file x) :
      ServerHeader file k a fin ⟨seq, seqAt x, id, ackFlag⟩
  | finished {h : Header} (hfin : fin = 1) : ServerHeader file k a fin h

def Carries (P : Header → Prop) (bytes : Buffer) : Prop := bytes ≠ [] ∧ P (readHeader bytes)

theorem ClientDatagram.mono {file : Buffer} {i fin fin' : Nat} {late late' : Prop}
    {bytes : Buffer} (h : ClientDatagram file i late fin bytes) (hlate : late → late')
    (hfin : fin = 1 → fin' = 1) : ClientDatagram file i late' fin' bytes := by
  cases h with
  | syn => exact .syn
  | segment cut hflags => exact .segment cut hflags
  | finish h => exact .finish (hlate h)
  | lastAck h => exact .lastAck (hfin h)

theorem SynReply.mono {k k' : Nat} {h : Header} (hh : SynReply k h) (hk : k ≤ k') :
    SynReply k' h := by
  cases hh with
  | synAck hj => exact .synAck (hj.trans_le hk)
  | synEcho => exact .synEcho

theorem ServerHeader.mono {file : Buffer} {k k' a a' fin fin' : Nat} {h : Header}
    (hh : ServerHeader file k a fin h) (hk : k ≤ k') (ha : a ≤ a') (hfin : fin = 1 → fin' = 1) :
    ServerHeader file k' a' fin' h := by
  cases hh with
  | greeting hreply => exact .greeting (hreply.mono hk)
  | ack hx hbound => exact .ack (hx.trans ha) hbound
  | finished h => exact .finished (hfin h)

theorem ServerHeader.fin_of_flags {file : Buffer} {k a fin : Nat} {h : Header}
    (hh : ServerHeader file k a fin h) (hflags : h.flags = ackFinFlag ∨ h.flags = finFlag) :
    fin = 1 := by
  cases hh with
  | greeting hreply =>
      cases hreply with
      | synAck _ =>
          exact absurd hflags (show ¬ (synAckFlag = ackFinFlag ∨ synAckFlag = finFlag) by decide)
      | synEcho => exact absurd hflags (by decide)
  | ack _ _ => exact absurd hflags (show ¬ (ackFlag = ackFinFlag ∨ ackFlag = finFlag) by decide)
  | finished hfin => exact hfin

theorem Carries.imp {P Q : Header → Prop} {bytes : Buffer} (h : Carries P bytes)
    (hpq : ∀ h, P h → Q h) : Carries Q bytes :=
  ⟨h.1, hpq _ h.2⟩

theorem datagram_ne_nil (h : Header) (payload : Buffer) : datagram h payload ≠ [] := by
  intro hnil
  have := congrArg List.length hnil
  simp at this

theorem carries_datagram {P : Header → Prop} {h : Header} (payload : Buffer) (hh : P h) :
    Carries P (datagram h payload) :=
  ⟨datagram_ne_nil h payload, by rwa [readHeader_datagram]⟩

/-! ## The table -/

/-- The server's table consists of the connections `slot 0, …, slot (k - 1)`, and `owner`
says whose they are. -/
structure Tabled (owner : SockAddr → Prop) (k : Nat) (slot : Nat → Connection) (s : Server) :
    Prop where
  few : k ≤ 10
  table : s.allConnection = tableOf k slot
  ids : ∀ j < k, (slot j).packHeader.id = UInt16.ofNat (j + 1)
  owners : ∀ j < k, owner (slot j).srcAddr

abbrev Serves (addr : SockAddr) := Tabled (· = addr)

/-- Connection `i + 1` has the first `a` bytes of the file. -/
structure Holds (file : Buffer) (addr : SockAddr) (i a : Nat) (c : Connection) : Prop where
  id : c.packHeader.id = UInt16.ofNat (i + 1)
  source : c.srcAddr = addr
  contents : c.myfile.contents = file.take a
  boundary : Boundary file a
  expects : c.isFin = 0 → c.packHeader.ack = seqAt a ∧ c.myfile.Ready
  fin : c.isFin = 0 ∨ c.isFin = 1

theorem boundary_zero (file : Buffer) : Boundary file 0 := ⟨Nat.zero_le _, Or.inl rfl⟩

theorem holds_opened (file : Buffer) (addr : SockAddr) (i : Nat) :
    Holds file addr i 0 (opened addr i) where
  id := rfl
  source := rfl
  contents := rfl
  boundary := boundary_zero file
  expects := fun _ => ⟨rfl, rfl, rfl⟩
  fin := Or.inl rfl

variable {owner : SockAddr → Prop} {addr : SockAddr} {k i : Nat} {slot : Nat → Connection}
  {s : Server}

theorem Tabled.update (h : Tabled owner k slot s) {s' : Server} {c : Connection}
    (htable : s'.allConnection = tableOf k (Function.update slot i c))
    (hid : c.packHeader.id = UInt16.ofNat (i + 1)) (howner : owner c.srcAddr) :
    Tabled owner k (Function.update slot i c) s' where
  few := h.few
  table := htable
  ids := by
    intro j hj
    by_cases hji : j = i
    · subst hji
      simpa using hid
    · simpa [hji] using h.ids j hj
  owners := by
    intro j hj
    by_cases hji : j = i
    · subst hji
      simpa using howner
    · simpa [hji] using h.owners j hj

theorem Tabled.opened (h : Tabled owner k slot s) (hk : k < 10) (howner : owner addr) {s' : Server}
    (htable : s'.allConnection = tableOf (k + 1) (Function.update slot k (opened addr k))) :
    Tabled owner (k + 1) (Function.update slot k (Confundo.opened addr k)) s' where
  few := hk
  table := htable
  ids := by
    intro j hj
    by_cases hjk : j = k
    · subst hjk
      simp [Confundo.opened]
    · simpa [hjk] using h.ids j (by omega)
  owners := by
    intro j hj
    by_cases hjk : j = k
    · subst hjk
      simpa [Confundo.opened] using howner
    · simpa [hjk] using h.owners j (by omega)

theorem Tabled.connection {s : Session} (h : Tabled owner k slot s.server) (hi : i < k)
    (hid : s.client.idNum = UInt32.ofNat (i + 1)) : s.connection = some (slot i) := by
  unfold Session.connection
  rw [hid, h.table]
  exact find?_tableOf h.few h.ids hi

theorem sendsTo_nil (addr : SockAddr) : sendsTo addr [] = [] := rfl

theorem sendsTo_cons_self (addr : SockAddr) (bytes : Buffer) (sends : List Send) :
    sendsTo addr ((addr, bytes) :: sends) = bytes :: sendsTo addr sends := by
  simp [sendsTo]

theorem sendsTo_subset {addr : SockAddr} {sends : List Send} {bytes : Buffer}
    (h : bytes ∈ sendsTo addr sends) : (addr, bytes) ∈ sends := by
  simp only [sendsTo, List.mem_map, List.mem_filter, decide_eq_true_eq] at h
  obtain ⟨⟨dest, out⟩, ⟨hmem, rfl⟩, rfl⟩ := h
  exact hmem

/-! ## Data and `FIN` -/

def padded (h : Header) (payload : Buffer) : Packet :=
  ⟨h, payload ++ List.replicate (dataSize - payload.length) 0⟩

@[simp] theorem padded_packHeader (h : Header) (payload : Buffer) :
    (padded h payload).packHeader = h := rfl

namespace Tabled

theorem receive_datagram (hs : Tabled owner k slot s) {h : Header} {payload : Buffer}
    (hfits : payload.length ≤ dataSize) {table : List Connection} {sends : List Send}
    (hdispatch : dispatch addr (padded h payload) (12 + payload.length) (tableOf k slot) =
      (table, sends)) :
    (s.receive addr (datagram h payload)).1.allConnection = table ∧
      (s.receive addr (datagram h payload)).2 = sends := by
  have hpacket : receivePacket (datagram h payload) = padded h payload :=
    receivePacket_datagram h hfits
  simp only [Server.receive, hpacket, receivedBytes_datagram h hfits, hs.table, hdispatch,
    and_self]

theorem receive_data (hs : Tabled owner k slot s) (addr : SockAddr) (hi : i < k) {h : Header}
    {payload : Buffer} (hfits : payload.length ≤ dataSize) (hid : h.id = UInt16.ofNat (i + 1))
    (hflags : h.flags = ackFlag ∨ h.flags = 0) {c : Connection} {sends : List Send}
    (hbranch : dataBranch (padded h payload) (12 + payload.length) (slot i) = (c, sends)) :
    (s.receive addr (datagram h payload)).1.allConnection =
        tableOf k (Function.update slot i c) ∧
      (s.receive addr (datagram h payload)).2 = sends := by
  apply hs.receive_datagram hfits
  have hsyn : h.flags ≠ synFlag := by
    rcases hflags with hf | hf <;> rw [hf] <;> decide
  unfold dispatch
  rw [padded_packHeader, if_neg hsyn, if_pos hflags, hid,
    scanId_tableOf hs.few hs.ids hi, hbranch]

theorem receive_fin (hs : Tabled owner k slot s) (addr : SockAddr) (hi : i < k) {h : Header}
    {payload : Buffer} (hfits : payload.length ≤ dataSize) (hid : h.id = UInt16.ofNat (i + 1))
    (hflags : h.flags = finFlag) {c : Connection} {sends : List Send}
    (hbranch : finBranch (padded h payload) (slot i) = (c, sends)) :
    (s.receive addr (datagram h payload)).1.allConnection =
        tableOf k (Function.update slot i c) ∧
      (s.receive addr (datagram h payload)).2 = sends := by
  apply hs.receive_datagram hfits
  unfold dispatch
  rw [padded_packHeader, hflags, if_neg (by decide), if_neg (by decide), if_pos rfl, hid,
    scanId_tableOf hs.few hs.ids hi, hbranch]

/-- A `SYN` opens a connection while there is a free slot, and is echoed to the owners of
the others. -/
theorem receive_syn (hs : Tabled owner k slot s) (hinet : ∀ addr, owner addr → addr.saFamily = afInet)
    (host : Nat) (howner : owner (inetAddr host)) :
    let buf := padded ⟨12345, 0, 0, synFlag⟩ noData
    let next := s.receive (inetAddr host) (datagram ⟨12345, 0, 0, synFlag⟩ noData)
    (k < 10 ∧ Tabled owner (k + 1) (Function.update slot k (Confundo.opened (inetAddr host) k)) next.1 ∧
        next.2 = echoes buf k slot ++ [reply (Confundo.opened (inetAddr host) k) buf]) ∨
      (¬ k < 10 ∧ Tabled owner k slot next.1 ∧ next.2 = echoes buf k slot) := by
  intro buf next
  have hdispatch : dispatch (inetAddr host) buf (12 + noData.length) (tableOf k slot) = _ :=
    (if_pos rfl).trans (synScan_tableOf host (fun j hj => hinet _ (hs.owners j hj)) buf)
  by_cases hk : k < 10
  · rw [if_pos hk] at hdispatch
    obtain ⟨htable, hsends⟩ := hs.receive_datagram length_noData.le hdispatch
    exact Or.inl ⟨hk, hs.opened hk howner htable, hsends⟩
  · rw [if_neg hk] at hdispatch
    obtain ⟨htable, hsends⟩ := hs.receive_datagram length_noData.le hdispatch
    exact Or.inr ⟨hk, ⟨hs.few, htable, hs.ids, hs.owners⟩, hsends⟩

end Tabled

/-! ## What the branches do to a connection -/

section Branches

variable {file : Buffer} {a : Nat} {c : Connection}

theorem Holds.dataBranch_next (hc : Holds file addr i a c) (hopen : c.isFin = 0)
    (hcut : Cut file a) {h : Header} (hseq : h.seq = seqAt a) :
    ∃ c' seq payload,
      dataBranch (padded h (chunk file a)) (12 + (chunk file a).length) c =
          (c', [(addr, datagram
            ⟨seq, seqAt (endOf file a), UInt16.ofNat (i + 1), ackFlag⟩ payload)]) ∧
        Holds file addr i (endOf file a) c' ∧ c'.isFin = 0 := by
  obtain ⟨hexpect, hfile⟩ := hc.expects hopen
  obtain ⟨seq, hbranch⟩ := dataBranch_of_eq (chunk file a) hopen hfile
    (hseq.trans hexpect.symm)
  have hnext : (c.packHeader.ack + UInt32.ofNat (chunk file a).length) %
      UInt32.ofNat seqModulus = seqAt (endOf file a) := by
    rw [hexpect]
    exact seqAt_add _ (length_chunk_le _ _)
  rw [hnext, hc.id, hc.source] at hbranch
  refine ⟨_, seq, _, hbranch, ?_, hopen⟩
  exact
    { id := rfl
      source := rfl
      contents := by
        show c.myfile.contents ++ chunk file a = _
        rw [hc.contents, take_append_chunk]
      boundary := hcut.boundary_endOf
      expects := fun _ => ⟨rfl, hfile.isOpen, hfile.good⟩
      fin := hc.fin }

theorem Holds.dataBranch_other (hc : Holds file addr i a c) (hopen : c.isFin = 0)
    {h : Header} (hseq : h.seq ≠ seqAt a) (data : Buffer) (n : Nat) :
    ∃ c' seq payload,
      dataBranch (padded h data) n c =
          (c', [(addr, datagram ⟨seq, seqAt a, UInt16.ofNat (i + 1), ackFlag⟩ payload)]) ∧
        Holds file addr i a c' ∧ c'.isFin = 0 := by
  obtain ⟨hexpect, hfile⟩ := hc.expects hopen
  obtain ⟨seq, hbranch⟩ := dataBranch_of_ne (padded h data) n hopen
    (by rwa [hexpect])
  rw [hexpect, hc.id, hc.source] at hbranch
  refine ⟨_, seq, _, hbranch, ?_, hopen⟩
  exact
    { id := rfl
      source := rfl
      contents := hc.contents
      boundary := hc.boundary
      expects := fun _ => ⟨rfl, hfile⟩
      fin := hc.fin }

theorem Holds.dataBranch_closed (hc : Holds file addr i a c) (hclosed : c.isFin = 1)
    (buf : Packet) (n : Nat) :
    ∃ c', dataBranch buf n c = (c', []) ∧ Holds file addr i a c' ∧ c'.isFin = 1 := by
  refine ⟨_, Confundo.dataBranch_closed hclosed, ?_, hclosed⟩
  exact
    { id := hc.id
      source := hc.source
      contents := (OutFile.contents_close _).trans hc.contents
      boundary := hc.boundary
      expects := fun hopen => absurd hopen (by simp [hclosed])
      fin := hc.fin }

theorem Holds.finBranch (hc : Holds file addr i a c) (buf : Packet) :
    ∃ c' sends, finBranch buf c = (c', sends) ∧
      (∀ send ∈ sends, ∃ h payload, send = (addr, datagram h payload)) ∧
      Holds file addr i a c' ∧ c'.isFin = 1 := by
  refine ⟨_, _, rfl, ?_, ?_, rfl⟩
  · intro send hsend
    simp only [reply, hc.source, List.mem_cons, List.not_mem_nil, or_false] at hsend
    rcases hsend with rfl | rfl
    · exact ⟨_, _, rfl⟩
    · exact ⟨_, _, rfl⟩
  · exact
      { id := hc.id
        source := hc.source
        contents := hc.contents
        boundary := hc.boundary
        expects := fun hopen => absurd hopen (by simp)
        fin := Or.inr rfl }

end Branches

/-! ## `SYN` -/

/-- A `SYN` of the client opens a further connection while there is a free slot. -/
theorem receive_syn {host : Nat} (hs : Serves (inetAddr host) k slot s) :
    ∃ k' slot', k ≤ k' ∧ (∀ j < k, slot' j = slot j) ∧
      (∀ j < k', k ≤ j → slot' j = opened (inetAddr host) j) ∧
      Serves (inetAddr host) k' slot'
        (s.receive (inetAddr host) (datagram ⟨12345, 0, 0, synFlag⟩ noData)).1 ∧
      ∀ bytes ∈ sendsTo (inetAddr host)
          (s.receive (inetAddr host) (datagram ⟨12345, 0, 0, synFlag⟩ noData)).2,
        Carries (SynReply k') bytes := by
  have hecho : ∀ j data, Carries (SynReply j)
      ((⟨12345, 0, 0, synFlag⟩ : Header).image ++ data) := by
    intro j data
    refine ⟨List.append_ne_nil_of_left_ne_nil (by decide) _, ?_⟩
    rw [readHeader_image]
    exact .synEcho
  rcases hs.receive_syn (by rintro _ rfl; rfl) host rfl with
    ⟨hk, hserves, hsends⟩ | ⟨-, hserves, hsends⟩
  · refine ⟨k + 1, Function.update slot k (opened (inetAddr host) k), by omega, ?_, ?_,
      hserves, ?_⟩
    · intro j hj
      exact Function.update_of_ne (by omega) _ _
    · intro j hj hkj
      obtain rfl : j = k := by omega
      simp
    · intro bytes hbytes
      have hmem := sendsTo_subset hbytes
      rw [hsends] at hmem
      simp only [echoes, List.mem_append, List.mem_map, List.mem_singleton] at hmem
      rcases hmem with ⟨_, _, heq⟩ | heq
      · obtain rfl : _ = bytes := congrArg Prod.snd heq
        exact hecho (k + 1) _
      · obtain rfl : bytes = _ := congrArg Prod.snd heq
        exact carries_datagram _ (.synAck (Nat.lt_succ_self k))
  · refine ⟨k, slot, le_rfl, fun _ _ => rfl, fun j hj hkj => absurd hj (by omega), hserves, ?_⟩
    intro bytes hbytes
    have hmem := sendsTo_subset hbytes
    rw [hsends] at hmem
    simp only [echoes, List.mem_map] at hmem
    obtain ⟨_, _, heq⟩ := hmem
    obtain rfl : _ = bytes := congrArg Prod.snd heq
    exact hecho k _

end Cs118.Confundo
