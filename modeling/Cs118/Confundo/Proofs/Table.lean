import Mathlib.Logic.Function.Basic
import Cs118.Confundo.Server
import Cs118.Confundo.Proofs.Segments
/-!
# The connection table of a server with one client

Slots are handed out from the front, so the table is a run of connections with
ids 1, 2, … followed by slots that were never used.  Each branch of the receive
loop is computed on a table of that shape.
-/

namespace Cs118.Confundo

open Cs118.Lib.Bytes

def tableOf (k : Nat) (slot : Nat → Connection) : List Connection :=
  (List.range k).map slot ++ List.replicate (10 - k) Connection.unused

def inetAddr (data : Nat) : SockAddr := ⟨afInet, data⟩

/-- The slot of a connection on which nothing but the client's `SYN` has come in. -/
def opened (addr : SockAddr) (i : Nat) : Connection :=
  ⟨⟨4321, 12346, UInt16.ofNat (i + 1), synAckFlag⟩, addr, ⟨true, false, []⟩, 0⟩

theorem range_split {k i : Nat} (hi : i < k) :
    List.range k = List.range i ++ i :: (List.range (k - i - 1)).map (fun j => i + 1 + j) := by
  conv_lhs => rw [show k = i + (1 + (k - i - 1)) by omega, List.range_add, List.range_add]
  simp [Nat.add_assoc]

theorem tableOf_split {k i : Nat} (hi : i < k) (slot : Nat → Connection) :
    ∃ after, tableOf k slot = (List.range i).map slot ++ slot i :: after ∧
      ∀ c, tableOf k (Function.update slot i c) = (List.range i).map slot ++ c :: after := by
  refine ⟨((List.range (k - i - 1)).map fun j => slot (i + 1 + j)) ++
    List.replicate (10 - k) Connection.unused, ?_, ?_⟩
  · simp [tableOf, range_split hi, Function.comp_def]
  · intro c
    have hbefore : (List.range i).map (Function.update slot i c) = (List.range i).map slot := by
      apply List.map_congr_left
      intro j hj
      exact Function.update_of_ne (by simp at hj; omega) _ _
    have hafter : ∀ j, Function.update slot i c (i + 1 + j) = slot (i + 1 + j) := fun j =>
      Function.update_of_ne (by omega) _ _
    simp [tableOf, range_split hi, hbefore, hafter, Function.comp_def]

theorem ofNat_succ_ne {i j : Nat} (hi : i < 10) (hj : j < 10) (h : i ≠ j) :
    UInt16.ofNat (i + 1) ≠ UInt16.ofNat (j + 1) := by
  intro heq
  have := congrArg UInt16.toNat heq
  simp only [UInt16.toNat_ofNat'] at this
  omega

theorem ofNat_succ_ne_zero {i : Nat} (hi : i < 10) : UInt16.ofNat (i + 1) ≠ 0 := by
  intro heq
  have := congrArg UInt16.toNat heq
  simp only [UInt16.toNat_ofNat', UInt16.toNat_zero] at this
  omega

theorem toUInt32_ofNat_succ {i : Nat} (hi : i < 10) :
    (UInt16.ofNat (i + 1)).toUInt32 = UInt32.ofNat (i + 1) := by
  apply UInt32.toNat.inj
  simp only [UInt16.toNat_toUInt32, UInt16.toNat_ofNat', UInt32.toNat_ofNat']
  omega

/-! ## The id scan -/

theorem scanId_append {id : UInt16} {update : Connection → Connection × List Send}
    {before after : List Connection} {c : Connection}
    (hbefore : ∀ b ∈ before, id ≠ b.packHeader.id) (hid : id = c.packHeader.id) :
    scanId id update (before ++ c :: after) =
      (before ++ (update c).1 :: after, (update c).2) := by
  induction before with
  | nil => simp [scanId, hid]
  | cons b before ih =>
      have hb : id ≠ b.packHeader.id := hbefore b (by simp)
      simp [scanId, hb, ih (fun x hx => hbefore x (by simp [hx]))]

theorem scanId_tableOf {k i : Nat} {slot : Nat → Connection} (hk : k ≤ 10)
    (hids : ∀ j < k, (slot j).packHeader.id = UInt16.ofNat (j + 1)) (hi : i < k)
    (update : Connection → Connection × List Send) :
    scanId (UInt16.ofNat (i + 1)) update (tableOf k slot) =
      (tableOf k (Function.update slot i (update (slot i)).1), (update (slot i)).2) := by
  obtain ⟨after, hsplit, hupdate⟩ := tableOf_split hi slot
  rw [hsplit, hupdate]
  apply scanId_append
  · intro b hb
    obtain ⟨j, hj, rfl⟩ := List.mem_map.mp hb
    have hji : j < i := by simpa using hj
    rw [hids j (by omega)]
    exact ofNat_succ_ne (by omega) (by omega) (by omega)
  · exact (hids i hi).symm

/-! ## The `SYN` scan -/

theorem synScan_append {addr : SockAddr} (buf : Packet) {before : List Connection}
    (after : List Connection)
    (hbefore : ∀ c ∈ before, c.srcAddr.saFamily = addr.saFamily) (i : Nat) :
    synScan addr buf i (before ++ after) =
      (before ++ (synScan addr buf (i + before.length) after).1,
        before.map (fun c => (c.srcAddr, buf.packHeader.image ++ buf.data)) ++
          (synScan addr buf (i + before.length) after).2) := by
  induction before generalizing i with
  | nil => simp
  | cons c before ih =>
      have hc : c.srcAddr.saFamily = addr.saFamily := hbefore c (by simp)
      rw [List.cons_append, synScan]
      simp [hc, ih (fun x hx => hbefore x (by simp [hx])), Nat.add_assoc, Nat.add_comm 1]

def echoes (buf : Packet) (k : Nat) (slot : Nat → Connection) : List Send :=
  (List.range k).map fun j => ((slot j).srcAddr, buf.packHeader.image ++ buf.data)

theorem synScan_tableOf (host : Nat) {k : Nat} {slot : Nat → Connection}
    (hfamilies : ∀ j < k, (slot j).srcAddr.saFamily = afInet) (buf : Packet) :
    synScan (inetAddr host) buf 0 (tableOf k slot) =
      if k < 10 then
        let c := openConnection (inetAddr host) buf k Connection.unused
        (tableOf (k + 1) (Function.update slot k c), echoes buf k slot ++ [reply c buf])
      else (tableOf k slot, echoes buf k slot) := by
  have hbefore : ∀ c ∈ (List.range k).map slot,
      c.srcAddr.saFamily = (inetAddr host).saFamily := by
    intro c hc
    obtain ⟨j, hj, rfl⟩ := List.mem_map.mp hc
    exact hfamilies j (by simpa using hj)
  have hscan := synScan_append buf (List.replicate (10 - k) Connection.unused) hbefore 0
  simp only [List.length_map, List.length_range, Nat.zero_add, List.map_map] at hscan
  rw [tableOf, hscan]
  by_cases hk : k < 10
  · obtain ⟨n, hn⟩ : ∃ n, 10 - k = n + 1 := ⟨10 - k - 1, by omega⟩
    have hfamily : Connection.unused.srcAddr.saFamily ≠ (inetAddr host).saFamily :=
      show (0 : UInt16) ≠ afInet by decide
    have hfree : Connection.unused.packHeader.id = 0 := rfl
    have hold : (List.range k).map
        (Function.update slot k (openConnection (inetAddr host) buf k Connection.unused)) =
        (List.range k).map slot := by
      apply List.map_congr_left
      intro j hj
      exact Function.update_of_ne (by simp at hj; omega) _ _
    have hleft : 10 - (k + 1) = n := by omega
    rw [if_pos hk, hn, List.replicate_succ, synScan, if_pos hfamily, if_pos hfree]
    simp [tableOf, List.range_succ, hold, hleft, echoes, Function.comp_def]
  · have hzero : 10 - k = 0 := by omega
    rw [if_neg hk, hzero]
    simp [synScan, echoes, Function.comp_def]

/-! ## Lookup by id -/

theorem find?_tableOf {k i : Nat} {slot : Nat → Connection} (hk : k ≤ 10)
    (hids : ∀ j < k, (slot j).packHeader.id = UInt16.ofNat (j + 1)) (hi : i < k) :
    (tableOf k slot).find? (fun c => c.packHeader.id.toUInt32 = UInt32.ofNat (i + 1)) =
      some (slot i) := by
  obtain ⟨after, hsplit, -⟩ := tableOf_split hi slot
  rw [hsplit, List.find?_append]
  have hbefore : ((List.range i).map slot).find?
      (fun c => c.packHeader.id.toUInt32 = UInt32.ofNat (i + 1)) = none := by
    rw [List.find?_eq_none]
    intro c hc
    obtain ⟨j, hj, rfl⟩ := List.mem_map.mp hc
    have hji : j < i := by simpa using hj
    rw [hids j (by omega)]
    intro heq
    have := congrArg UInt32.toNat (of_decide_eq_true heq)
    simp only [UInt16.toNat_toUInt32, UInt16.toNat_ofNat', UInt32.toNat_ofNat'] at this
    omega
  have hself : (slot i).packHeader.id.toUInt32 = UInt32.ofNat (i + 1) := by
    rw [hids i hi, toUInt32_ofNat_succ (by omega)]
  rw [hbefore, Option.none_or]
  exact List.find?_cons_of_pos (decide_eq_true hself)

/-! ## The data branch on a connection of this client -/

theorem noteAck_eq (buf : Packet) (c : Connection) :
    ∃ seq, noteAck buf c = { c with packHeader := { c.packHeader with seq := seq } } := by
  unfold noteAck
  split_ifs
  · exact ⟨c.packHeader.seq, rfl⟩
  · exact ⟨c.packHeader.seq + 1, rfl⟩
  · exact ⟨c.packHeader.seq, rfl⟩

theorem dataBranch_closed {buf : Packet} {n : Nat} {c : Connection} (h : c.isFin = 1) :
    dataBranch buf n c = ({ c with myfile := c.myfile.close }, []) := by
  unfold dataBranch
  rw [if_pos h]

theorem dataBranch_of_ne (buf : Packet) (n : Nat) {c : Connection} (hopen : c.isFin = 0)
    (hseq : buf.packHeader.seq ≠ c.packHeader.ack) :
    ∃ seq, dataBranch buf n c =
      ({ c with packHeader := ⟨seq, c.packHeader.ack, c.packHeader.id, ackFlag⟩ },
        [(c.srcAddr, datagram ⟨seq, c.packHeader.ack, c.packHeader.id, ackFlag⟩ buf.data)]) := by
  obtain ⟨seq, hnote⟩ := noteAck_eq buf c
  refine ⟨seq, ?_⟩
  unfold dataBranch
  rw [if_neg (by omega), if_neg hseq]
  simp [hnote, reply]

theorem dataBranch_of_eq {h : Header} (payload : Buffer) {c : Connection}
    (hopen : c.isFin = 0) (hfile : c.myfile.Ready)
    (hseq : h.seq = c.packHeader.ack) :
    ∃ seq, dataBranch ⟨h, payload ++ List.replicate (dataSize - payload.length) 0⟩
        (12 + payload.length) c =
      ({ c with
          packHeader :=
            ⟨seq, (c.packHeader.ack + UInt32.ofNat payload.length) % UInt32.ofNat seqModulus,
              c.packHeader.id, ackFlag⟩
          myfile := { c.myfile with contents := c.myfile.contents ++ payload } },
        [(c.srcAddr, datagram
          ⟨seq, (c.packHeader.ack + UInt32.ofNat payload.length) % UInt32.ofNat seqModulus,
            c.packHeader.id, ackFlag⟩
          (payload ++ List.replicate (dataSize - payload.length) 0))]) := by
  have hcount : UInt32.ofNat (12 + payload.length) - 12 = UInt32.ofNat payload.length := by
    have htwelve : (12 : UInt32).toNat = 12 := rfl
    apply UInt32.toNat.inj
    rw [UInt32.toNat_sub, UInt32.toNat_ofNat', UInt32.toNat_ofNat', htwelve]
    omega
  have hwrite : ((12 + payload.length : Nat) : Int) - 12 = (payload.length : Nat) := by omega
  obtain ⟨seq, hnote⟩ := noteAck_eq
    ⟨h, payload ++ List.replicate (dataSize - payload.length) 0⟩
    { c with
      packHeader :=
        { c.packHeader with
          ack := (c.packHeader.ack + UInt32.ofNat payload.length) % UInt32.ofNat seqModulus } }
  refine ⟨seq, ?_⟩
  unfold dataBranch
  rw [if_neg (by omega), if_pos hseq]
  simp only [hcount, hnote, hwrite, OutFile.write_ofNat hfile, List.take_left', reply]

end Cs118.Confundo
