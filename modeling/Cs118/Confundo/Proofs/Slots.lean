import Cs118.Confundo.Arrivals
import Cs118.Confundo.Proofs.Table
/-!
# The connection table under arbitrary datagrams

Slots are handed out from the front and never taken back, so the table is a run
of slots in use followed by free ones.  What a datagram does to such a table is
said once, in `Effect`; everything else follows from its cases.
-/

namespace Cs118.Confundo

open Cs118.Lib.Bytes
open Cs118.Lib.Run

/-! ## The two scans -/

theorem split_at {table : List Connection} {i : Nat} {c : Connection} (h : table[i]? = some c) :
    table = table.take i ++ c :: table.drop (i + 1) := by
  obtain ⟨hi, rfl⟩ := List.getElem?_eq_some_iff.mp h
  rw [List.getElem_cons_drop, List.take_append_drop]

theorem set_split {table : List Connection} {i : Nat} {c : Connection} (h : table[i]? = some c)
    (c' : Connection) : table.set i c' = table.take i ++ c' :: table.drop (i + 1) := by
  obtain ⟨hi, -⟩ := List.getElem?_eq_some_iff.mp h
  rw [List.set_eq_take_append_cons_drop, if_pos hi]

theorem mem_take_iff {table : List Connection} {i : Nat} {b : Connection} (h : b ∈ table.take i) :
    ∃ j < i, table[j]? = some b := by
  obtain ⟨j, hj⟩ := List.mem_iff_getElem?.mp h
  rw [List.getElem?_take] at hj
  split_ifs at hj with hlt
  exact ⟨j, hlt, hj⟩

theorem scanId_first {id : UInt16} {update : Connection → Connection × List Send}
    {table : List Connection} {i : Nat} {c : Connection} (hslot : table[i]? = some c)
    (hid : id = c.packHeader.id)
    (hbefore : ∀ j < i, ∀ b, table[j]? = some b → id ≠ b.packHeader.id) :
    scanId id update table = (table.set i (update c).1, (update c).2) := by
  have hscan : scanId id update (table.take i ++ c :: table.drop (i + 1)) = _ :=
    scanId_append (fun b hb => by
      obtain ⟨j, hj, hslot⟩ := mem_take_iff hb
      exact hbefore j hj b hslot) hid
  rw [set_split hslot, ← hscan, ← split_at hslot]

theorem scanId_none {id : UInt16} (update : Connection → Connection × List Send)
    {table : List Connection} (h : ∀ c ∈ table, id ≠ c.packHeader.id) :
    scanId id update table = (table, []) := by
  induction table with
  | nil => rfl
  | cons c rest ih =>
      rw [scanId, if_neg (h c (by simp)), ih fun b hb => h b (by simp [hb])]

def echo (buf : Packet) (c : Connection) : Send :=
  (c.srcAddr, buf.packHeader.image ++ buf.data)

/-- The `SYN` scan passes the slots of the sender's family and takes the first other
one, if that is free. -/
theorem synScan_first {addr : SockAddr} (buf : Packet) {table : List Connection} {k : Nat}
    {c : Connection} (hslot : table[k]? = some c) (hfamily : c.srcAddr.saFamily ≠ addr.saFamily)
    (hid : c.packHeader.id = 0)
    (hbefore : ∀ b ∈ table.take k, b.srcAddr.saFamily = addr.saFamily) :
    synScan addr buf 0 table = (table.set k (openConnection addr buf k c),
      (table.take k).map (echo buf) ++ [reply (openConnection addr buf k c) buf]) := by
  obtain ⟨hk, -⟩ := List.getElem?_eq_some_iff.mp hslot
  have hscan := synScan_append buf (c :: table.drop (k + 1)) hbefore 0
  rw [← split_at hslot] at hscan
  have hlen : (table.take k).length = k := List.length_take_of_le (Nat.le_of_lt hk)
  rw [hscan, set_split hslot, hlen, Nat.zero_add, synScan, if_pos hfamily, if_pos hid]
  rfl

theorem synScan_full {addr : SockAddr} (buf : Packet) {table : List Connection}
    (h : ∀ b ∈ table, b.srcAddr.saFamily = addr.saFamily) :
    synScan addr buf 0 table = (table, table.map (echo buf)) := by
  have hscan := synScan_append buf [] h 0
  rw [List.append_nil] at hscan
  rw [hscan]
  simp only [synScan, List.append_nil]
  rfl

/-! ## The shape of the table -/

structure SlotUsed (i : Fin 10) (c : Connection) : Prop where
  id : c.packHeader.id = UInt16.ofNat (i.val + 1)
  family : c.srcAddr.saFamily = afInet
  isOpen : c.isFin ≠ 1 → c.myfile.isOpen = true

/-- Nothing is known about the other fields of a free slot: stray datagrams reach them. -/
structure SlotFree (c : Connection) : Prop where
  id : c.packHeader.id = 0
  srcAddr : c.srcAddr = ⟨0, 0⟩
  closed : c.myfile.isOpen = false
  empty : c.myfile.contents = []

/-- The first `k` slots are in use, the others are free. -/
structure TableOk (s : Server) (k : Nat) : Prop where
  le : k ≤ 10
  used : ∀ i : Fin 10, i.val < k → SlotUsed i (s.slot i)
  free : ∀ i : Fin 10, k ≤ i.val → SlotFree (s.slot i)

theorem SlotFree.unused : SlotFree Connection.unused := ⟨rfl, rfl, rfl, rfl⟩

theorem SlotUsed.id_ne_zero {i : Fin 10} {c : Connection} (h : SlotUsed i c) :
    c.packHeader.id ≠ 0 := by
  rw [h.id]
  exact ofNat_succ_ne_zero i.isLt

namespace TableOk

variable {s : Server} {k : Nat}

theorem start : TableOk Server.start 0 :=
  ⟨by omega, fun _ hi => absurd hi (by omega), fun i _ => by
    rw [Server.slot_start]
    exact SlotFree.unused⟩

theorem inUse_iff (h : TableOk s k) {i : Fin 10} : s.InUse i ↔ i.val < k := by
  constructor
  · intro huse
    by_contra hfree
    exact huse (h.free i (by omega)).id
  · exact fun hi => (h.used i hi).id_ne_zero

theorem id_inj (h : TableOk s k) {i j : Fin 10} (hi : s.InUse i)
    (hid : (s.slot i).packHeader.id = (s.slot j).packHeader.id) : i = j := by
  have hj : s.InUse j := by
    rw [Server.InUse, ← hid]
    exact hi
  rw [(h.used i (h.inUse_iff.mp hi)).id, (h.used j (h.inUse_iff.mp hj)).id] at hid
  by_contra hne
  exact ofNat_succ_ne i.isLt j.isLt (fun heq => hne (Fin.ext heq)) hid

/-- The first slot that has the id of slot `i`, when that is in use or the first free one. -/
theorem first (h : TableOk s k) {i : Fin 10} (hi : i.val ≤ k) :
    ∀ j < i.val, ∀ b, s.allConnection[j]? = some b →
      (s.slot i).packHeader.id ≠ b.packHeader.id := by
  intro j hj b hb hid
  have hslot : b = s.slot ⟨j, by omega⟩ :=
    Option.some.inj (hb.symm.trans (s.getElem?_slot ⟨j, by omega⟩))
  subst hslot
  have huse : s.InUse ⟨j, by omega⟩ := h.inUse_iff.mpr (by show j < k; omega)
  have heq := h.id_inj huse hid.symm
  exact absurd (congrArg Fin.val heq) (by show ¬ j = i.val; omega)

theorem exists_first (h : TableOk s k) {id : UInt16} {i : Fin 10}
    (hid : id = (s.slot i).packHeader.id) :
    ∃ j : Fin 10, j.val ≤ k ∧ id = (s.slot j).packHeader.id := by
  by_cases hi : i.val ≤ k
  · exact ⟨i, hi, hid⟩
  · refine ⟨⟨k, by omega⟩, le_rfl, ?_⟩
    rw [hid, (h.free i (by omega)).id, (h.free ⟨k, by omega⟩ le_rfl).id]

theorem mem_take_family (h : TableOk s k) {b : Connection} (hb : b ∈ s.allConnection.take k) :
    b.srcAddr.saFamily = afInet := by
  obtain ⟨j, hj, hslot⟩ := mem_take_iff hb
  have hk := h.le
  have heq : b = s.slot ⟨j, by omega⟩ :=
    Option.some.inj (hslot.symm.trans (s.getElem?_slot ⟨j, by omega⟩))
  rw [heq]
  exact (h.used ⟨j, by omega⟩ hj).family

end TableOk

/-! ## What the branches leave of a slot -/

/-- The number a slot expects after a datagram of `n` bytes for its open connection. -/
def nextAck (buf : Packet) (n : Nat) (c : Connection) : UInt32 :=
  if buf.packHeader.seq = c.packHeader.ack then
    (c.packHeader.ack + (UInt32.ofNat n - 12)) % UInt32.ofNat seqModulus
  else c.packHeader.ack

/-- The data branch closes the file of a closed connection; otherwise it writes a header
and, in order, the payload. -/
theorem dataBranch_cases (buf : Packet) (n : Nat) (c : Connection) :
    c.isFin = 1 ∧ dataBranch buf n c = ({ c with myfile := c.myfile.close }, []) ∨
    c.isFin ≠ 1 ∧ ∃ seq, let c' : Connection :=
        { c with
          packHeader := ⟨seq, nextAck buf n c, c.packHeader.id, ackFlag⟩
          myfile :=
            if buf.packHeader.seq = c.packHeader.ack then c.myfile.write buf.data ((n : Int) - 12)
            else c.myfile }
      dataBranch buf n c = (c', [reply c' buf]) := by
  by_cases hfin : c.isFin = 1
  · exact Or.inl ⟨hfin, dataBranch_closed hfin⟩
  · right
    refine ⟨hfin, ?_⟩
    unfold dataBranch nextAck
    rw [if_neg hfin]
    by_cases hseq : buf.packHeader.seq = c.packHeader.ack
    · obtain ⟨seq, hnote⟩ := noteAck_eq buf
        { c with
          packHeader :=
            { c.packHeader with
              ack := (c.packHeader.ack + (UInt32.ofNat n - 12)) % UInt32.ofNat seqModulus } }
      refine ⟨seq, ?_⟩
      simp only [if_pos hseq, hnote]
    · obtain ⟨seq, hnote⟩ := noteAck_eq buf c
      refine ⟨seq, ?_⟩
      simp only [if_neg hseq, hnote]

theorem finBranch_eq (buf : Packet) (c : Connection) :
    ∃ ack, finBranch buf c =
      ({ c with packHeader := ⟨c.packHeader.seq, ack, c.packHeader.id, ackFlag⟩, isFin := 1 },
        [(c.srcAddr, datagram ⟨c.packHeader.seq, ack, c.packHeader.id, ackFlag⟩ buf.data),
          (c.srcAddr, datagram ⟨c.packHeader.seq, 0, c.packHeader.id, finFlag⟩ buf.data)]) :=
  ⟨_, rfl⟩

theorem Arrival.take_data (a : Arrival) :
    a.packet.data.take ((receivedBytes a.bytes : Int) - 12).toNat = a.payload := by
  have hcount : ((receivedBytes a.bytes : Int) - 12).toNat = receivedBytes a.bytes - 12 := by omega
  rw [hcount, Arrival.payload]

theorem Arrival.payload_eq (a : Arrival) : a.payload = (a.bytes.take packetSize).drop 12 := by
  have hlen : (a.bytes.take packetSize).length = receivedBytes a.bytes := by
    rw [List.length_take, receivedBytes, Nat.min_comm]
  show ((receiveBuffer a.bytes).drop 12).take _ = _
  rw [receiveBuffer, ← List.drop_take, List.take_left' hlen]

/-- A slot after a datagram for it: only header, file and `is_FIN` have changed. -/
structure Updates (c c' : Connection) : Prop where
  id : c'.packHeader.id = c.packHeader.id
  srcAddr : c'.srcAddr = c.srcAddr
  flags : c'.packHeader.flags = c.packHeader.flags ∨ c'.packHeader.flags = ackFlag
  isOpen : c'.isFin ≠ 1 → c'.myfile.isOpen = c.myfile.isOpen
  isFin : c.isFin = 1 → c'.isFin = 1

theorem updates_dataBranch (buf : Packet) (n : Nat) (c : Connection) :
    Updates c (dataBranch buf n c).1 := by
  rcases dataBranch_cases buf n c with ⟨hfin, heq⟩ | ⟨-, seq, heq⟩
  · rw [heq]
    exact ⟨rfl, rfl, Or.inl rfl, fun hopen => absurd hfin hopen, fun _ => hfin⟩
  · rw [heq]
    refine ⟨rfl, rfl, Or.inr rfl, fun _ => ?_, id⟩
    dsimp only
    split_ifs
    · exact OutFile.isOpen_write _ _ _
    · rfl

theorem updates_finBranch (buf : Packet) (c : Connection) : Updates c (finBranch buf c).1 :=
  ⟨rfl, rfl, Or.inr rfl, fun hopen => absurd rfl hopen, fun _ => rfl⟩

theorem myfile_dataBranch_of_closed {c : Connection} (h : c.myfile.isOpen = false) (buf : Packet)
    (n : Nat) : (dataBranch buf n c).1.myfile.isOpen = false ∧
      (dataBranch buf n c).1.myfile.contents = c.myfile.contents := by
  rcases dataBranch_cases buf n c with ⟨-, heq⟩ | ⟨-, seq, heq⟩
  · rw [heq]
    exact ⟨OutFile.close_of_closed h, OutFile.contents_close _⟩
  · rw [heq]
    dsimp only
    split_ifs
    · exact ⟨(OutFile.isOpen_write _ _ _).trans h, OutFile.contents_write_of_closed h _ _⟩
    · exact ⟨h, rfl⟩

def Arrival.update (a : Arrival) : Connection → Connection × List Send :=
  if a.isData then dataBranch a.packet (receivedBytes a.bytes) else finBranch a.packet

theorem Arrival.update_of_isData {a : Arrival} (h : a.isData) :
    a.update = dataBranch a.packet (receivedBytes a.bytes) := if_pos h

theorem Arrival.update_of_not_isData {a : Arrival} (h : ¬ a.isData) :
    a.update = finBranch a.packet := if_neg h

theorem updates_update (a : Arrival) (c : Connection) : Updates c (a.update c).1 := by
  unfold Arrival.update
  split_ifs
  · exact updates_dataBranch _ _ _
  · exact updates_finBranch _ _

theorem myfile_update_of_closed {c : Connection} (h : c.myfile.isOpen = false) (a : Arrival) :
    (a.update c).1.myfile.isOpen = false ∧
      (a.update c).1.myfile.contents = c.myfile.contents := by
  unfold Arrival.update
  split_ifs
  · exact myfile_dataBranch_of_closed h _ _
  · exact ⟨h, rfl⟩

theorem sends_update {a : Arrival} {c : Connection} {send : Send} (h : send ∈ (a.update c).2) :
    send.1 = c.srcAddr ∧
      ((readHeader send.2).flags = ackFlag ∨ (readHeader send.2).flags = finFlag) := by
  unfold Arrival.update at h
  split_ifs at h
  · rcases dataBranch_cases a.packet (receivedBytes a.bytes) c with ⟨-, heq⟩ | ⟨-, seq, heq⟩
    · simp [heq] at h
    · rw [heq] at h
      rw [List.mem_singleton.mp h]
      exact ⟨rfl, Or.inl (congrArg Header.flags (readHeader_datagram _ _))⟩
  · obtain ⟨ack, heq⟩ := finBranch_eq a.packet c
    rw [heq] at h
    simp only [List.mem_cons, List.not_mem_nil, or_false] at h
    rcases h with rfl | rfl
    · exact ⟨rfl, Or.inl (congrArg Header.flags (readHeader_datagram _ _))⟩
    · exact ⟨rfl, Or.inr (congrArg Header.flags (readHeader_datagram _ _))⟩

/-! ## What a datagram can do -/

theorem Arrival.not_isSyn {a : Arrival} (h : a.isData ∨ a.isFin) : ¬ a.isSyn := by
  intro hsyn
  rcases h with (hack | hzero) | hfin
  · exact absurd (hsyn.symm.trans hack) (by decide)
  · exact absurd (hsyn.symm.trans hzero) (by decide)
  · exact absurd (hsyn.symm.trans hfin) (by decide)

namespace Server

def echoes (s : Server) (k : Nat) (a : Arrival) : List Send :=
  (s.allConnection.take k).map (echo a.packet)

def opened (s : Server) (a : Arrival) (i : Fin 10) : Connection :=
  openConnection a.addr a.packet i (s.slot i)

end Server

section

variable {s : Server} {k : Nat} {a : Arrival}

theorem handle_eq {next : List Connection × List Send} {t : Server}
    (h : dispatch a.addr a.packet (receivedBytes a.bytes) s.allConnection = next)
    (ht : t.allConnection = next.1) : s.handle a = (t, next.2) := by
  subst h
  obtain ⟨table, hsize⟩ := t
  subst ht
  rfl

theorem TableOk.handle_syn (h : TableOk s k) (hsyn : a.isSyn) {i : Fin 10} (hi : i.val = k) :
    s.handle a = (s.setSlot i (s.opened a i),
      s.echoes k a ++ [reply (s.opened a i) a.packet]) := by
  subst hi
  have hfree := h.free i le_rfl
  have hfamily : (s.slot i).srcAddr.saFamily ≠ a.addr.saFamily := by
    rw [hfree.srcAddr]
    exact (by decide : (0 : UInt16) ≠ afInet)
  have hbranch : dispatch a.addr a.packet (receivedBytes a.bytes) s.allConnection =
      synScan a.addr a.packet 0 s.allConnection := if_pos hsyn
  have hscan := synScan_first a.packet (s.getElem?_slot i) hfamily hfree.id
    fun b hb => h.mem_take_family hb
  exact handle_eq (hbranch.trans hscan) rfl

theorem TableOk.handle_syn_full (h : TableOk s 10) (hsyn : a.isSyn) :
    s.handle a = (s, s.echoes 10 a) := by
  have hall : s.allConnection.take 10 = s.allConnection :=
    List.take_of_length_le (by rw [s.size_eq])
  have hfamily : ∀ b ∈ s.allConnection, b.srcAddr.saFamily = a.addr.saFamily := by
    intro b hb
    rw [← hall] at hb
    exact h.mem_take_family hb
  have hbranch : dispatch a.addr a.packet (receivedBytes a.bytes) s.allConnection =
      synScan a.addr a.packet 0 s.allConnection := if_pos hsyn
  rw [Server.echoes, hall]
  exact handle_eq (hbranch.trans (synScan_full a.packet hfamily)) rfl

theorem dispatch_of_update (h : a.isData ∨ a.isFin) :
    dispatch a.addr a.packet (receivedBytes a.bytes) s.allConnection =
      scanId a.header.id a.update s.allConnection := by
  have hsyn : ¬ a.isSyn := Arrival.not_isSyn h
  by_cases hdata : a.isData
  · rw [Arrival.update_of_isData hdata]
    exact (if_neg hsyn).trans (if_pos hdata)
  · rw [Arrival.update_of_not_isData hdata]
    exact ((if_neg hsyn).trans (if_neg hdata)).trans (if_pos (h.resolve_left hdata))

/-- A data or `FIN` datagram updates the slot with its id: one in use, or the first free one. -/
theorem TableOk.handle_update (h : TableOk s k) (hflags : a.isData ∨ a.isFin) {i : Fin 10}
    (hi : i.val ≤ k) (hid : a.header.id = (s.slot i).packHeader.id) :
    s.handle a = (s.setSlot i (a.update (s.slot i)).1, (a.update (s.slot i)).2) := by
  have hscan : scanId a.header.id a.update s.allConnection = _ :=
    scanId_first (s.getElem?_slot i) hid fun j hj b hb => by
      rw [hid]
      exact h.first hi j hj b hb
  exact handle_eq ((dispatch_of_update hflags).trans hscan) rfl

theorem handle_ignored (hsyn : ¬ a.isSyn)
    (hid : a.isData ∨ a.isFin → ∀ i, a.header.id ≠ (s.slot i).packHeader.id) :
    s.handle a = (s, []) := by
  by_cases hflags : a.isData ∨ a.isFin
  · have hnone : ∀ c ∈ s.allConnection, a.header.id ≠ c.packHeader.id := by
      intro c hc
      obtain ⟨j, hj, rfl⟩ := List.mem_iff_getElem.mp hc
      exact hid hflags ⟨j, by rw [← s.size_eq]; exact hj⟩
    exact handle_eq ((dispatch_of_update hflags).trans (scanId_none _ hnone)) rfl
  · have hbranch : dispatch a.addr a.packet (receivedBytes a.bytes) s.allConnection =
        (s.allConnection, []) :=
      ((if_neg hsyn).trans (if_neg fun h => hflags (Or.inl h))).trans
        (if_neg fun h => hflags (Or.inr h))
    exact handle_eq hbranch rfl

end

/-- The effect of a datagram on a table with `k` slots in use. -/
inductive Effect (s : Server) (k : Nat) (a : Arrival) : Server → List Send → Prop
  | opens (hsyn : a.isSyn) (i : Fin 10) (hi : i.val = k) :
      Effect s k a (s.setSlot i (s.opened a i)) (s.echoes k a ++ [reply (s.opened a i) a.packet])
  | full (hsyn : a.isSyn) (hk : k = 10) : Effect s k a s (s.echoes k a)
  | updates (hflags : a.isData ∨ a.isFin) (i : Fin 10) (hi : i.val ≤ k)
      (hid : a.header.id = (s.slot i).packHeader.id) :
      Effect s k a (s.setSlot i (a.update (s.slot i)).1) (a.update (s.slot i)).2
  | ignored (hsyn : ¬ a.isSyn)
      (hid : a.isData ∨ a.isFin → ∀ i, a.header.id ≠ (s.slot i).packHeader.id) :
      Effect s k a s []

theorem TableOk.effect {s : Server} {k : Nat} (h : TableOk s k) (a : Arrival) :
    Effect s k a (s.handle a).1 (s.handle a).2 := by
  by_cases hsyn : a.isSyn
  · by_cases hk : k < 10
    · rw [h.handle_syn hsyn (rfl : (⟨k, hk⟩ : Fin 10).val = k)]
      exact .opens hsyn ⟨k, hk⟩ rfl
    · obtain rfl : k = 10 := le_antisymm h.le (by omega)
      rw [h.handle_syn_full hsyn]
      exact .full hsyn rfl
  · by_cases hfound : (a.isData ∨ a.isFin) ∧ ∃ i, a.header.id = (s.slot i).packHeader.id
    · obtain ⟨hflags, i, hid⟩ := hfound
      obtain ⟨j, hj, hid⟩ := h.exists_first hid
      rw [h.handle_update hflags hj hid]
      exact .updates hflags j hj hid
    · have hid : a.isData ∨ a.isFin → ∀ i, a.header.id ≠ (s.slot i).packHeader.id :=
        fun hflags i heq => hfound ⟨hflags, i, heq⟩
      rw [handle_ignored hsyn hid]
      exact .ignored hsyn hid

/-! ## Every reachable table -/

theorem SlotUsed.updates {i : Fin 10} {c c' : Connection} (h : SlotUsed i c) (hc : Updates c c') :
    SlotUsed i c' where
  id := hc.id.trans h.id
  family := (congrArg SockAddr.saFamily hc.srcAddr).trans h.family
  isOpen hopen := (hc.isOpen hopen).trans (h.isOpen fun hfin => hopen (hc.isFin hfin))

theorem SlotFree.update {c : Connection} (h : SlotFree c) (a : Arrival) :
    SlotFree (a.update c).1 where
  id := (updates_update a c).id.trans h.id
  srcAddr := (updates_update a c).srcAddr.trans h.srcAddr
  closed := (myfile_update_of_closed h.closed a).1
  empty := (myfile_update_of_closed h.closed a).2.trans h.empty

def usedAfter (k : Nat) (a : Arrival) : Nat := if a.isSyn then min 10 (k + 1) else k

section

variable {s t : Server} {k : Nat} {a : Arrival} {sent : List Send}

theorem TableOk.update (h : TableOk s k) (a : Arrival) (i : Fin 10) :
    TableOk (s.setSlot i (a.update (s.slot i)).1) k where
  le := h.le
  used j hj := by
    rw [Server.slot_setSlot]
    split_ifs with hij
    · subst hij
      exact (h.used j hj).updates (updates_update a _)
    · exact h.used j hj
  free j hj := by
    rw [Server.slot_setSlot]
    split_ifs with hij
    · subst hij
      exact (h.free j hj).update a
    · exact h.free j hj

theorem SlotFree.myfile_opened {i : Fin 10} (h : SlotFree (s.slot i)) (a : Arrival) :
    (s.opened a i).myfile = ⟨true, false, []⟩ :=
  OutFile.reopen_of_closed h.closed

theorem SlotUsed.opened {i : Fin 10} (h : SlotFree (s.slot i)) (a : Arrival) :
    SlotUsed i (s.opened a i) :=
  ⟨rfl, rfl, fun _ => by rw [h.myfile_opened]⟩

theorem TableOk.opens (h : TableOk s k) {i : Fin 10} (hi : i.val = k) :
    TableOk (s.setSlot i (s.opened a i)) (k + 1) where
  le := by have := i.isLt; omega
  used j hj := by
    rw [Server.slot_setSlot]
    split_ifs with hij
    · subst hij
      exact SlotUsed.opened (h.free j (by omega)) a
    · exact h.used j (by have : j.val ≠ i.val := fun heq => hij (Fin.ext heq); omega)
  free j hj := by
    rw [Server.slot_setSlot, if_neg fun hij => by subst hij; omega]
    exact h.free j (by omega)

theorem Effect.tableOk (h : TableOk s k) (he : Effect s k a t sent) :
    TableOk t (usedAfter k a) := by
  unfold usedAfter
  cases he with
  | opens hsyn i hi =>
      have hmin : min 10 (k + 1) = k + 1 := by
        have := i.isLt
        omega
      rw [if_pos hsyn, hmin]
      exact h.opens hi
  | full hsyn hk =>
      subst hk
      rw [if_pos hsyn]
      exact h
  | updates hflags i hi hid =>
      rw [if_neg (Arrival.not_isSyn hflags)]
      exact h.update a i
  | ignored hsyn hid =>
      rw [if_neg hsyn]
      exact h

theorem TableOk.handle (h : TableOk s k) (a : Arrival) : TableOk (s.handle a).1 (usedAfter k a) :=
  (h.effect a).tableOk h

end

theorem Server.Reachable.tableOk {s : Server} (h : s.Reachable) : ∃ k, TableOk s k :=
  Reach.invariant
    (P := fun s : Server => ∃ k, TableOk s k)
    (fun _ a _ ⟨k, hs⟩ _ hstep => by
      obtain rfl := Option.some.inj hstep
      exact ⟨usedAfter k a, hs.handle a⟩)
    ⟨0, TableOk.start⟩ h

end Cs118.Confundo
