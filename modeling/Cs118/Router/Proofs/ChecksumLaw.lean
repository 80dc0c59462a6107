import Cs118.Router.Proofs.Checksums
/-!
# What the checksum promises

The law of `cksum` for every byte string whose words cannot overflow its 32-bit
accumulator, and what it detects: a header with one wrong word sums to another number
modulo 65535, unless one of the two zeros of ones' complement has become the other.
-/

namespace Cs118.Router

open Cs118.Lib
open Cs118.Lib.Bytes
open Cs118.Lib.OnesComplement

/-! ## The loops of `cksum` -/

theorem addWords_append {front : Buffer} (heven : front.length % 2 = 0) (rest : Buffer)
    (sum : UInt32) :
    addWords (front ++ rest) (front ++ rest).length sum =
      addWords rest rest.length (addWords front front.length sum) := by
  induction front using wordSum.induct generalizing sum with
  | case1 => rfl
  | case2 high => simp at heven
  | case3 high low tail ih =>
      have htail : tail.length % 2 = 0 := by
        simp only [List.length_cons] at heven
        omega
      have hwhole : (((high :: low :: tail) ++ rest).length : Int) - 2 =
          ((tail ++ rest).length : Int) := by
        simp only [List.cons_append, List.length_cons]
        omega
      have hfront : ((high :: low :: tail).length : Int) - 2 = (tail.length : Int) := by
        simp only [List.length_cons]
        omega
      rw [List.cons_append, List.cons_append] at hwhole ⊢
      rw [addWords, if_pos (by simp only [List.length_cons]; omega), hwhole, ih htail,
        addWords, if_pos (by simp only [List.length_cons]; omega), hfront]

theorem foldCarries_of_le {sum : UInt32} (h : sum ≤ 0xffff) (rounds : Nat) :
    foldCarries rounds sum = sum := by
  cases rounds with
  | zero => rfl
  | succ rounds => rw [foldCarries, if_neg (UInt32.not_lt.mpr h)]

theorem foldCarries_add (first second : Nat) (sum : UInt32) :
    foldCarries (first + second) sum = foldCarries second (foldCarries first sum) := by
  induction first generalizing sum with
  | zero => rw [Nat.zero_add, foldCarries]
  | succ first ih =>
      rw [Nat.succ_add, foldCarries, foldCarries]
      split_ifs with hlarge
      · exact ih _
      · exact (foldCarries_of_le (UInt32.not_lt.mp hlarge) second).symm

theorem foldCarries_le (sum : UInt32) : foldCarries 2 sum ≤ 0xffff := by
  rw [UInt32.le_iff_toNat_le, foldCarries_toNat]
  exact folded_le _

/-- More rounds than two change nothing. -/
theorem foldCarries_settled {rounds : Nat} (h : 2 ≤ rounds) (sum : UInt32) :
    foldCarries rounds sum = foldCarries 2 sum := by
  obtain ⟨more, rfl⟩ := Nat.exists_eq_add_of_le h
  rw [foldCarries_add, foldCarries_of_le (foldCarries_le sum)]

theorem cksum_ne_zero (data : Buffer) (len : Int) : cksum data len ≠ 0 := by
  unfold cksum
  dsimp only
  split_ifs with hzero
  · decide
  · exact hzero

/-! ## The law -/

/-- `cksum` on the whole of `data`.  The last three fields are about its loops: what the
accumulator is wherever the first loop stands, and that the second ends by itself. -/
structure ChecksumLaw (data : Buffer) : Prop where
  neverZero : cksum data data.length ≠ 0
  verifies : cksum data data.length = 0xffff ↔ wordSum data % 65535 = 0
  stored : ∀ offset, offset % 2 = 0 → offset + 2 ≤ data.length →
    let zeroed := setBytes data offset (image16 0)
    cksum (setBytes data offset (image16 (cksum zeroed zeroed.length))) data.length = 0xffff
  total : (addWords data data.length 0).toNat = wordSum data
  accumulates : ∀ front rest, data = front ++ rest → front.length % 2 = 0 →
    ∃ sum : UInt32, sum.toNat = wordSum front ∧
      addWords data data.length 0 = addWords rest rest.length sum
  folds : ∀ rounds, 2 ≤ rounds →
    foldCarries rounds (addWords data data.length 0) =
        foldCarries 2 (addWords data data.length 0) ∧
      foldCarries 2 (addWords data data.length 0) ≤ 0xffff

theorem addWords_zero_toNat {data : Buffer} (h : data.length ≤ 131074) :
    (addWords data data.length 0).toNat = wordSum data := by
  have hsum := wordSum_le data
  rw [addWords_toNat, UInt32.toNat_zero, Nat.zero_add, Nat.mod_eq_of_lt]
  omega

/-- Storing the checksum of the data with a zeroed field there. -/
theorem cksum_stored {data : Buffer} (h : data.length ≤ 131074) {offset : Nat}
    (heven : offset % 2 = 0) (hfits : offset + 2 ≤ data.length) :
    let zeroed := setBytes data offset (image16 0)
    cksum (setBytes data offset (image16 (cksum zeroed zeroed.length))) data.length = 0xffff := by
  intro zeroed
  have hroom : offset + (image16 0).length ≤ data.length := by simpa using hfits
  have hlen : zeroed.length = data.length := length_setBytes hroom
  have hfield : wordSum (getBytes zeroed offset 2) = 0 := by
    have hread : getBytes zeroed offset (image16 0).length = image16 0 :=
      getBytes_setBytes_same hroom
    rw [length_image16] at hread
    rw [hread]
    decide
  have hstore := cksum_store (by omega) heven (by omega) hfield
  have hlast : setBytes zeroed offset (image16 (cksum zeroed zeroed.length)) =
      setBytes data offset (image16 (cksum zeroed zeroed.length)) :=
    setBytes_setBytes_same (by simp) hroom
  rw [hlast] at hstore
  rwa [hlen] at hstore ⊢

theorem checksum_law {data : Buffer} (h : data.length ≤ 131074) : ChecksumLaw data where
  neverZero := cksum_ne_zero _ _
  verifies := cksum_eq_ones_iff h
  stored _ heven hfits := cksum_stored h heven hfits
  total := addWords_zero_toNat h
  accumulates := by
    rintro front rest rfl heven
    rw [List.length_append] at h
    exact ⟨addWords front front.length 0, addWords_zero_toNat (by omega),
      addWords_append heven rest 0⟩
  folds _ hrounds := ⟨foldCarries_settled hrounds _, foldCarries_le _⟩

theorem checksum_law_three_bytes : ChecksumLaw [0x45, 0x00, 0x1c] :=
  checksum_law (by decide)

/-! ## A corrupted header -/

/-- `packet'` is `packet` with another word at the given place of its IPv4 header, where the
two are not the two zeros of ones' complement. -/
structure WordError (packet packet' : Buffer) (word : Nat) : Prop where
  inHeader : word < 10
  length : packet'.length = packet.length
  elsewhere : ∀ i, i ≠ 14 + 2 * word → i ≠ 15 + 2 * word → packet'[i]? = packet[i]?
  differs : packet' ≠ packet
  notCleared : ¬ (getBytes packet (14 + 2 * word) 2 = [0xff, 0xff] ∧
    getBytes packet' (14 + 2 * word) 2 = [0, 0])
  notFilled : ¬ (getBytes packet (14 + 2 * word) 2 = [0, 0] ∧
    getBytes packet' (14 + 2 * word) 2 = [0xff, 0xff])

section

variable {packet packet' : Buffer} {word : Nat}

theorem WordError.eq_setBytes (h : WordError packet packet' word) (hfits : 34 ≤ packet.length) :
    packet' = setBytes packet (14 + 2 * word) (getBytes packet' (14 + 2 * word) 2) := by
  have hin := h.inHeader
  have hlen := h.length
  have hget : (getBytes packet' (14 + 2 * word) 2).length = 2 := length_getBytes (by omega)
  apply List.ext_getElem?
  intro i
  rw [getElem?_setBytes (by omega), getElem?_getBytes, hget]
  split_ifs with hword
  · congr 1
    omega
  · omega
  · exact h.elsewhere i (by omega) (by omega)

theorem WordError.wordSum (h : WordError packet packet' word) (hfits : 34 ≤ packet.length) :
    OnesComplement.wordSum (ipBytes packet') +
        OnesComplement.wordSum (getBytes packet (14 + 2 * word) 2) =
      OnesComplement.wordSum (ipBytes packet) +
        OnesComplement.wordSum (getBytes packet' (14 + 2 * word) 2) := by
  have hin := h.inHeader
  have hlen := h.length
  have hget : (getBytes packet' (14 + 2 * word) 2).length = 2 := length_getBytes (by omega)
  have hheader : ipBytes packet' =
      setBytes (ipBytes packet) (2 * word) (getBytes packet' (14 + 2 * word) 2) := by
    conv_lhs => rw [h.eq_setBytes hfits]
    rw [ipBytes_setBytes_within hfits (by omega) (by omega), Nat.add_sub_cancel_left]
  have hroom : 2 * word + (getBytes packet' (14 + 2 * word) 2).length ≤ (ipBytes packet).length := by
    rw [length_ipBytes hfits]
    omega
  have hset := wordSum_setBytes (show 2 * word % 2 = 0 by omega) (by omega) hroom
  rw [hget, ipBytes, getBytes_getBytes (by omega)] at hset
  rwa [hheader]

theorem WordError.word_ne (h : WordError packet packet' word) (hfits : 34 ≤ packet.length) :
    getBytes packet (14 + 2 * word) 2 ≠ getBytes packet' (14 + 2 * word) 2 := by
  intro hsame
  have hin := h.inHeader
  have hget : (getBytes packet (14 + 2 * word) 2).length = 2 := length_getBytes (by omega)
  apply h.differs
  rw [h.eq_setBytes hfits, ← hsame]
  apply List.ext_getElem?
  intro i
  rw [getElem?_setBytes (by omega), getElem?_getBytes, hget]
  split_ifs
  · congr 1
    omega
  · omega
  · rfl

theorem WordError.not_verifies (h : WordError packet packet' word) (hfits : 34 ≤ packet.length)
    (hverifies : Verifies packet) : ¬ Verifies packet' := by
  have hin := h.inHeader
  have hlen := h.length
  have hsum := h.wordSum hfits
  unfold Verifies at *
  rw [cksum_twenty_iff (length_ipBytes hfits)] at hverifies
  rw [cksum_twenty_iff (length_ipBytes (by omega))]
  intro hverifies'
  have hmod : OnesComplement.wordSum (getBytes packet (14 + 2 * word) 2) % 65535 =
      OnesComplement.wordSum (getBytes packet' (14 + 2 * word) 2) % 65535 := by omega
  rcases eq_or_zeros_of_modEq (length_getBytes (by omega)) (length_getBytes (by omega)) hmod with
    hsame | hfilled | hcleared
  · exact h.word_ne hfits hsame
  · exact h.notFilled hfilled
  · exact h.notCleared hcleared

theorem WordError.isIpv4 (h : WordError packet packet' word) (hfits : 34 ≤ packet.length) :
    IsIpv4 packet' ↔ IsIpv4 packet := by
  have hin := h.inHeader
  have hlen := h.length
  have hget : (getBytes packet' (14 + 2 * word) 2).length = 2 := length_getBytes (by omega)
  rw [isIpv4_iff, isIpv4_iff, h.eq_setBytes hfits,
    getBytes_setBytes_disjoint (by omega) (by omega)]

end

theorem handlePacket_of_not_verifies (t : RouterTables) {packet : Buffer} (inIface : String)
    (hfits : 34 ≤ packet.length) (hipv4 : IsIpv4 packet) (hwrong : ¬ Verifies packet) :
    handlePacket t packet inIface = pure () := by
  have hsum : cksum (IpHdr.load (packet.drop 14)).image 20 ≠ 0xffff := by
    have himage : (IpHdr.load (packet.drop 14)).image = ipBytes packet := image_ipHeader hfits
    rw [himage]
    exact hwrong
  have htype : (EthernetHdr.load packet).etherType = ntohs ethertypeIp := hipv4
  have hnotArp : (EthernetHdr.load packet).etherType ≠ ntohs ethertypeArp := by
    rw [htype]
    decide
  unfold handlePacket
  cases t.findIfaceByName inIface with
  | none => rfl
  | some iface =>
      have hether : getEthernetHeader packet = pure (EthernetHdr.load packet) :=
        if_neg (by omega)
      have hip : getIpPacket packet = pure (IpHdr.load (packet.drop 14)) := if_neg (by omega)
      dsimp only
      rw [hether]
      change (if _ then _ else _) = _
      rw [if_neg hnotArp, if_pos htype]
      unfold handleIpPacket
      rw [hip]
      change (if _ then _ else _) = _
      rw [if_neg hsum]

/-- A frame with a wrong word in its IPv4 header makes no call, so that every world stays
as it is. -/
theorem corrupted_header_rejected (w : World) {packet packet' : Buffer} {word : Nat}
    (inIface : String) (hfits : 34 ≤ packet.length) (hipv4 : IsIpv4 packet)
    (hverifies : Verifies packet) (herror : WordError packet packet' word) :
    handlePacket w.router.tables packet' inIface = pure () ∧
      w.receive packet' inIface = (w, .ok ()) := by
  have hpure := handlePacket_of_not_verifies w.router.tables inIface
    (herror.length ▸ hfits) ((herror.isIpv4 hfits).mpr hipv4)
    (herror.not_verifies hfits hverifies)
  refine ⟨hpure, ?_⟩
  rw [World.receive, hpure]
  rfl

/-- The time to live of the client's datagram has lost a bit on the way. -/
theorem corrupted_header_rejected_ttl :
    WordError (clientDatagram 64) (setBytes (clientDatagram 64) 22 [0]) 4 ∧
      projectRouter.receive (setBytes (clientDatagram 64) 22 [0]) "sw0-eth3" =
        (projectRouter, .ok ()) := by
  have herror : WordError (clientDatagram 64) (setBytes (clientDatagram 64) 22 [0]) 4 :=
    { inHeader := by decide
      length := by decide +kernel
      elsewhere := by
        intro i hhigh _
        rw [getElem?_setBytes (by decide +kernel), if_neg]
        simp only [List.length_cons, List.length_nil]
        omega
      differs := by decide +kernel
      notCleared := by decide +kernel
      notFilled := by decide +kernel }
  exact ⟨herror, (corrupted_header_rejected projectRouter "sw0-eth3" (by decide +kernel)
    (by unfold IsIpv4; decide +kernel) (by unfold Verifies; decide +kernel) herror).2⟩

end Cs118.Router
