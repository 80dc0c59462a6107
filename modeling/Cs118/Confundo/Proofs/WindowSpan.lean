import Cs118.Confundo.Proofs.Position
import Cs118.Confundo.Proofs.Rounds
/-!
# How far the read offset gets ahead of the log

Nothing holds the window within the sequence space but the length of the file.  A time-out of
the first segment moves it to the back of the log, late copies of the acknowledgements of the
others then erase these one by one, and each leaves credit for at least one more: the log is
again the first segment and those after it, one segment longer.
-/

namespace Cs118.Confundo

open Cs118.Lib.Bytes
open Cs118.Lib.Run

/-- What is between a logged segment and the read offset has one number for each offset. -/
structure FitsSequenceSpace (c : Client) : Prop where
  span : ∀ log ∈ c.cwndLogs, c.myfile.pos < log.filePos + seqModulus
  unique : ∀ log ∈ c.cwndLogs, ∀ p q, log.filePos ≤ p → p ≤ c.myfile.pos →
    log.filePos ≤ q → q ≤ c.myfile.pos → seqAt p = seqAt q → p = q

theorem seqAt_inj_of_span {low p q : Nat} (hp : low ≤ p ∧ p < low + seqModulus)
    (hq : low ≤ q ∧ q < low + seqModulus) (h : seqAt p = seqAt q) : p = q := by
  have hmod := seqAt_eq_iff.mp h
  unfold Nat.ModEq seqModulus at *
  omega

theorem fitsSequenceSpace_of_span {c : Client}
    (h : ∀ log ∈ c.cwndLogs, c.myfile.pos < log.filePos + seqModulus) : FitsSequenceSpace c where
  span := h
  unique := by
    intro log hlog p q hlowp hp hlowq hq
    have hspan := h log hlog
    exact seqAt_inj_of_span ⟨hlowp, by omega⟩ ⟨hlowq, by omega⟩

section WindowSpan

variable {file : Buffer} {host i k j m : Nat} {slot : Nat → Connection} {s : Session}

/-! ## Late acknowledgements -/

theorem onAck_front {c : Client} {front : Logger} {rest : List Logger}
    (hlogs : c.cwndLogs = front :: rest) :
    onAck c front.eAck = growWindow { c with cwndLogs := rest } := by
  have herase : eraseThrough front.eAck (front :: rest) = some rest := if_pos rfl
  simp only [onAck, hlogs, herase]

theorem growWindow_room {c : Client} (h : c.cwnd = 512 ∨ 0 < c.cwndSpace)
    (hsmall : c.cwndSpace.toNat ≤ 1000) :
    ∃ cwnd cwndSpace, growWindow c = { c with cwnd := cwnd, cwndSpace := cwndSpace } ∧
      2 ≤ cwndSpace.toNat ∧ cwndSpace.toNat ≤ c.cwndSpace.toNat + 2 := by
  have hone := toNat_add_one (n := c.cwndSpace) (by omega)
  have htwo := toNat_add_two (n := c.cwndSpace) (by omega)
  rcases h with hcwnd | hspace
  · have hgrow : ∃ cwnd,
        growWindow c = { c with cwnd := cwnd, cwndSpace := c.cwndSpace + 2 } := by
      unfold growWindow
      rw [hcwnd]
      split_ifs with hslow
      · exact ⟨_, rfl⟩
      · exact ⟨_, if_pos (by decide)⟩
    obtain ⟨cwnd, hgrow⟩ := hgrow
    exact ⟨cwnd, _, hgrow, by omega, by omega⟩
  · have hpos : 0 < c.cwndSpace.toNat := hspace
    obtain ⟨cwnd, cwndSpace, hgrow, rfl | rfl⟩ := growWindow_eq c
    · exact ⟨cwnd, _, hgrow, by omega, by omega⟩
    · exact ⟨cwnd, _, hgrow, by omega, by omega⟩

variable (file host) in
/-- A copy of a datagram that stays in flight reaches the client in its loop. -/
theorem replay (hphase : s.client.phase = .loopRecv) {bytes : Buffer} (hmem : bytes ∈ s.toClient)
    (hbytes : bytes ≠ []) (hlogs : (onAck s.client (readHeader bytes).ack).cwndLogs ≠ []) :
    endIteration (onAck s.client (readHeader bytes).ack) =
        ({ onAck s.client (readHeader bytes).ack with phase := .loopTop }, []) ∧
      Reach (Session.step file (inetAddr host)) (fun _ => True) s
        { s with client := { onAck s.client (readHeader bytes).ack with phase := .loopTop } } := by
  have hend := endIteration_of_logged hlogs
  refine ⟨hend, ?_⟩
  obtain ⟨n, hn⟩ := List.mem_iff_getElem?.mp hmem
  have hcopy : Session.step file (inetAddr host) s (.copyToClient n) =
      some { s with toClient := s.toClient ++ [bytes] } := by
    simp [Session.step, hn]
  have hreceive := step_clientReceive file host
    (s := { s with toClient := s.toClient ++ [bytes] }) rfl hphase hbytes
  rw [hend, List.append_nil] at hreceive
  exact (Reach.single trivial hcopy).tail trivial hreceive

/-! ## One turn of the log -/

def segment (file : Buffer) (q : Nat) : Logger := entry file (dataSize * q)

/-- The first segment has timed out with `m` others logged, and the first `j` of these have
been acknowledged again and sent again.  The acknowledgements are still in flight. -/
structure Turning (file : Buffer) (host i k j m : Nat) (slot : Nat → Connection)
    (s : Session) : Prop where
  safe : Adopted file host i k slot (dataSize * (m + 1)) s
  phase : s.client.phase = .loopRecv
  logs : s.client.cwndLogs =
    (List.range' (j + 1) (m - j)).map (segment file) ++ (List.range (j + 1)).map (segment file)
  myfile : s.client.myfile = ⟨dataSize * (j + 1), false, false⟩
  credit : s.client.cwndSpace.toNat ≤ j + 1
  gain : s.client.cwnd = 512 ∨ 0 < s.client.cwndSpace
  kept : ∀ q, 0 < q → q ≤ m →
    ∃ bytes ∈ s.toClient, bytes ≠ [] ∧ (readHeader bytes).ack = seqAt (dataSize * (q + 1))

theorem endOf_full {pos : Nat} (hfull : pos + dataSize ≤ file.length) :
    endOf file pos = pos + dataSize := by
  rw [endOf_eq (by omega), min_eq_left hfull]

theorem myfile_afterSend {c : Client} (hfull : c.myfile.pos + dataSize ≤ file.length) :
    (afterSend file c).myfile = ⟨c.myfile.pos + dataSize, false, false⟩ := by
  have hlength := length_chunk file c.myfile.pos
  have hnot : ¬ (chunk file c.myfile.pos).length < dataSize := by omega
  simp only [afterSend, hnot, decide_false, endOf_full hfull]

def behind (file : Buffer) (j m : Nat) : List Logger :=
  (List.range' (j + 2) (m - (j + 1))).map (segment file) ++ (List.range (j + 1)).map (segment file)

theorem Turning.logs_eq (h : Turning file host i k j m slot s) (hj : j < m) :
    s.client.cwndLogs = segment file (j + 1) :: behind file j m := by
  rw [h.logs, show m - j = (m - (j + 1)) + 1 by omega, List.range'_succ]
  rfl

theorem Turning.acknowledge (h : Turning file host i k j m slot s) (hj : j < m) (hm : m ≤ 200) :
    ∃ cwnd cwndSpace, 2 ≤ cwndSpace.toNat ∧ cwndSpace.toNat ≤ s.client.cwndSpace.toNat + 2 ∧
      let top : Session := { s with client := { s.client with
        phase := .loopTop, cwndLogs := behind file j m, cwnd, cwndSpace } }
      Reach (Session.step file (inetAddr host)) (fun _ => True) s top ∧
        Adopted file host i k slot (dataSize * (m + 1)) top := by
  have hlong : dataSize * (m + 1) ≤ file.length := h.safe.holds.boundary.1
  have hfull : dataSize * (j + 1) + dataSize ≤ file.length := by
    unfold dataSize at *
    omega
  obtain ⟨bytes, hmem, hbytes, hack⟩ := h.kept (j + 1) (by omega) (by omega)
  have hexpects : (readHeader bytes).ack = (segment file (j + 1)).eAck := by
    rw [hack, segment, entry, endOf_full hfull]
    rfl
  obtain ⟨cwnd, cwndSpace, hgrow, hroom, hcredit⟩ := growWindow_room
    (c := { s.client with cwndLogs := behind file j m }) h.gain (h.credit.trans (by omega))
  have hclient := onAck_front (h.logs_eq hj)
  rw [← hexpects, hgrow] at hclient
  obtain ⟨hend, hreplay⟩ := replay file host h.phase hmem hbytes
    (by rw [hclient]; simp [behind])
  have hstep : s.client.step file (.receive bytes) =
      some ({ onAck s.client (readHeader bytes).ack with phase := .loopTop }, []) := by
    simp [Client.step, h.phase, hbytes, hend]
  have hsafe : Adopted file host i k slot (dataSize * (m + 1)) { s with client :=
      { onAck s.client (readHeader bytes).ack with phase := .loopTop } } :=
    h.safe.client_step (by rintro _ ⟨⟩; exact hmem) hstep rfl rfl (List.append_nil _).symm
      (List.Subset.refl _)
  rw [hclient] at hreplay hsafe
  exact ⟨cwnd, cwndSpace, hroom, hcredit, hreplay, hsafe⟩

/-- The next acknowledgement comes again, and its segment goes out again. -/
theorem Turning.turn (h : Turning file host i k j m slot s) (hj : j < m) (hm : m ≤ 200) :
    ∃ s', Reach (Session.step file (inetAddr host)) (fun _ => True) s s' ∧
      Turning file host i k (j + 1) m slot s' ∧ 0 < s'.client.cwndSpace := by
  have hlong : dataSize * (m + 1) ≤ file.length := h.safe.holds.boundary.1
  have hfull : dataSize * (j + 1) + dataSize ≤ file.length := by
    unfold dataSize at *
    omega
  obtain ⟨cwnd, cwndSpace, hroom, hcredit, hreplay, hsafe⟩ := h.acknowledge hj hm
  have hspace : 0 < cwndSpace := Nat.lt_of_lt_of_le (by decide : 0 < 2) hroom
  have heof : s.client.myfile.eof = false := by rw [h.myfile]
  have hsend := step_iterate host hsafe.client.inStep rfl hspace heof
  have hleft := (toNat_sub_one hspace).2
  have hmore : 0 < cwndSpace - 1 := by
    rw [UInt32.lt_iff_toNat_lt, hleft, UInt32.toNat_zero]
    omega
  refine ⟨_, hreplay.tail trivial hsend,
    ⟨hsafe.iterate rfl hspace heof, rfl, ?_, ?_, ?_, Or.inr hmore, h.kept⟩, hmore⟩
  · simp only [afterIteration, afterSend, behind, h.myfile, List.append_assoc]
    rw [List.range_succ (n := j + 1), List.map_append]
    rfl
  · refine (myfile_afterSend ?_).trans ?_
    · simp only [h.myfile]
      exact hfull
    · simp only [h.myfile]
      rfl
  · have hold := h.credit
    simp only [afterIteration, afterSend, hleft]
    omega

theorem Turning.turn_all (h : Turning file host i k j m slot s) (hj : j ≤ m) (hm : m ≤ 200)
    (hready : j = m → 0 < s.client.cwndSpace) :
    ∃ s', Reach (Session.step file (inetAddr host)) (fun _ => True) s s' ∧
      Turning file host i k m m slot s' ∧ 0 < s'.client.cwndSpace := by
  induction hleft : m - j generalizing j s with
  | zero =>
      obtain rfl : j = m := by omega
      exact ⟨s, .refl s, h, hready rfl⟩
  | succ left ih =>
      obtain ⟨s', hturn, hnext, hspace⟩ := h.turn (by omega) hm
      obtain ⟨s'', hrest, hall⟩ := ih hnext (by omega) (fun _ => hspace) (by omega)
      exact ⟨s'', hturn.trans hrest, hall⟩

/-! ## One segment more -/

theorem Turning.extend (h : Turning file host i k m m slot s) (hspace : 0 < s.client.cwndSpace) :
    ∃ mid, Reach (Session.step file (inetAddr host)) (fun _ => True) s mid ∧
      Adopted file host i k slot (dataSize * (m + 1)) mid ∧
      mid.client = { afterSend file s.client with phase := .loopRecv } ∧
      mid.toServer = s.toServer ++ [segmentOf file s.client] ∧ mid.toClient = s.toClient := by
  have hlogs : s.client.cwndLogs ≠ [] := by
    rw [h.logs]
    simp
  have hnothing := step_nothing file host h.phase hlogs
  have hsafe := h.safe.nothing h.phase hlogs
  have heof : s.client.myfile.eof = false := by rw [h.myfile]
  have hsend := step_iterate host hsafe.client.inStep rfl hspace heof
  exact ⟨_, (Reach.single trivial hnothing).tail trivial hsend, hsafe.iterate rfl hspace heof,
    rfl, rfl, rfl⟩

theorem cwndLogs_extend (h : Turning file host i k m m slot s) :
    (afterSend file s.client).cwndLogs = (List.range (m + 2)).map (segment file) := by
  rw [List.range_succ (n := m + 1), List.map_append]
  simp only [afterSend, h.logs, h.myfile, Nat.sub_self, List.range'_zero, List.map_nil,
    List.nil_append]
  rfl

theorem Turning.deliver (h : Turning file host i k m m slot s) (hspace : 0 < s.client.cwndSpace)
    (hfull : dataSize * (m + 1) + dataSize ≤ file.length) :
    ∃ slot' got, Reach (Session.step file (inetAddr host)) (fun _ => True) s got ∧
      Adopted file host i k slot' (dataSize * (m + 2)) got ∧
      got.client = { afterSend file s.client with phase := .loopRecv } ∧
      ∃ bytes, got.toClient = s.toClient ++ [bytes] ∧ bytes ≠ [] ∧
        (readHeader bytes).ack = seqAt (dataSize * (m + 2)) := by
  obtain ⟨mid, hextend, hmid, hclient, hto, hfrom⟩ := h.extend hspace
  have hpos : s.client.myfile.pos = dataSize * (m + 1) := by rw [h.myfile]
  have hcut : Cut file (dataSize * (m + 1)) := ⟨Nat.mul_mod_right _ _, by omega⟩
  rw [h.safe.segmentOf_eq, hpos] at hto
  obtain ⟨got, hreceive, hanswers, -⟩ := step_serverReceive file host hto
  obtain ⟨c, seq, payload, hgot, hacks⟩ := hmid.receive_next
    (hmid.early (Or.inr (by rw [hclient]))) hcut h.safe.client.flags hanswers
  rw [endOf_full hfull] at hgot hacks
  rw [hfrom] at hacks
  refine ⟨_, got, hextend.tail trivial hreceive, hgot, hanswers.client.trans hclient, _, hacks,
    datagram_ne_nil _ _, ?_⟩
  rw [readHeader_datagram]
  rfl

theorem Turning.round (h : Turning file host i k m m slot s) (hspace : 0 < s.client.cwndSpace)
    (hfull : dataSize * (m + 1) + dataSize ≤ file.length) :
    ∃ slot' s', Reach (Session.step file (inetAddr host)) (fun _ => True) s s' ∧
      Turning file host i k 0 (m + 1) slot' s' := by
  obtain ⟨slot', got, hdeliver, hgot, hclient, bytes, hacks, hbytes, hack⟩ := h.deliver hspace hfull
  have hlogs : got.client.cwndLogs = (List.range (m + 2)).map (segment file) := by
    rw [hclient]
    exact cwndLogs_extend h
  have hne : got.client.cwndLogs ≠ [] := by
    rw [hlogs]
    simp
  have hphase : got.client.phase = .loopRecv := by rw [hclient]
  have hnothing := step_nothing file host hphase hne
  have htop := hgot.nothing hphase hne
  have htimeout := step_timeout host htop.client.inStep rfl hne
  -- the first segment goes to the back
  have hsplit : got.client.cwndLogs =
      segment file 0 :: (List.range' 1 (m + 1)).map (segment file) := by
    rw [hlogs, List.range_eq_range', List.range'_succ, List.map_cons]
  have hback := rewind_cons (c := { got.client with phase := .loopTop }) hsplit
  have hfront : (rewind { got.client with phase := .loopTop }).myfile.pos = 0 := by
    rw [hback]
    rfl
  refine ⟨slot', _, (hdeliver.tail trivial hnothing).tail trivial htimeout,
    htop.timeout rfl hne, rfl, afterSend_rewind htop.client.inStep hsplit, ?_, ?_, Or.inl ?_, ?_⟩
  · refine (myfile_afterSend (by rw [hfront]; omega)).trans ?_
    rw [hfront]
    rfl
  · simp only [afterIteration, afterSend, hback]
    decide
  · simp only [afterIteration, afterSend, hback]
  · intro q hpos hq
    show ∃ bytes ∈ got.toClient, _
    rw [hacks]
    by_cases hlast : q = m + 1
    · exact ⟨bytes, by simp, hbytes, hlast ▸ hack⟩
    · obtain ⟨old, hmem, hold⟩ := h.kept q hpos (by omega)
      exact ⟨old, List.mem_append_left _ hmem, hold⟩

variable (host) in
theorem turning_start (haccepted : fileTooLarge file = false) (hlong : dataSize ≤ file.length) :
    ∃ slot s, Session.Reachable file (inetAddr host) s ∧
      Turning file host 0 1 0 0 slot s ∧ 0 < s.client.cwndSpace := by
  obtain ⟨slot, s, hstart, hlock, hclient⟩ := lockstep_start host haccepted
  have hsend := step_iterate host hlock.safe.client.inStep hlock.phase hlock.credit hlock.more
  have hmid := hlock.safe.iterate hlock.phase hlock.credit hlock.more
  have hto : (afterIteration file s s.client).toServer =
      s.toServer ++ [segmentOf file s.client] := rfl
  rw [hlock.safe.segmentOf_eq, hlock.pos] at hto
  obtain ⟨got, hreceive, hanswers, -⟩ := step_serverReceive file host hto
  obtain ⟨c, _, _, hgot, -⟩ := hmid.receive_next (hmid.early (Or.inr rfl))
    ⟨rfl, Nat.zero_le _⟩ hlock.safe.client.flags hanswers
  have hfull : (0 : Nat) + dataSize ≤ file.length := by omega
  rw [endOf_full hfull] at hgot
  have hgotClient : got.client = { afterSend file (Client.greeted 1) with phase := .loopRecv } :=
    hanswers.client.trans (by rw [← hclient]; rfl)
  have hspace : got.client.cwndSpace = 1 := by
    rw [hgotClient]
    exact (by decide : (2 : UInt32) - 1 = 1)
  have hpos : 0 < got.client.cwndSpace := by
    rw [hspace]
    decide
  refine ⟨_, got, ((hstart.weaken fun _ _ => trivial).tail trivial hsend).tail trivial hreceive,
    ⟨hgot, ?_, ?_, ?_, ?_, Or.inr hpos, fun q _ _ => by omega⟩, hpos⟩
  · rw [hgotClient]
  · rw [hgotClient]
    rfl
  · rw [hgotClient]
    exact myfile_afterSend hfull
  · rw [hspace]
    decide

variable (host) in
theorem turning_of_length (haccepted : fileTooLarge file = false) (hm : m ≤ 200)
    (hlong : dataSize * (m + 1) ≤ file.length) :
    ∃ slot s, Session.Reachable file (inetAddr host) s ∧
      Turning file host 0 1 m m slot s ∧ 0 < s.client.cwndSpace := by
  induction m with
  | zero => exact turning_start host haccepted hlong
  | succ m ih =>
      have hbefore : dataSize * (m + 1) + dataSize ≤ file.length := hlong
      obtain ⟨slot, s, hreach, hturning, hspace⟩ := ih (by omega) (by omega)
      obtain ⟨slot', t, hround, hnext⟩ := hturning.round hspace hbefore
      obtain ⟨u, hturns, hall⟩ := hnext.turn_all (by omega) hm (by omega)
      exact ⟨slot', u, (hreach.trans hround).trans hturns, hall⟩

/-! ## The window and the sequence space -/

/-- Past 102400 bytes a run leaves the sequence space between the first segment, still
logged, and the read offset. -/
theorem outgrown_of_long (host : Nat) (haccepted : fileTooLarge file = false)
    (hlong : 102400 < file.length) :
    ∃ s, Session.Reachable file (inetAddr host) s ∧ s.client.inTransfer ∧
      ∃ log ∈ s.client.cwndLogs, log.filePos + seqModulus ≤ s.client.myfile.pos := by
  obtain ⟨slot, s, hreach, hturning, hspace⟩ :=
    turning_of_length (m := 199) host haccepted (by decide) (by unfold dataSize; omega)
  obtain ⟨mid, hextend, -, hclient, -⟩ := hturning.extend hspace
  have hlogs := cwndLogs_extend hturning
  have hpos : (afterSend file s.client).myfile.pos = endOf file (dataSize * 200) := by
    simp only [afterSend, hturning.myfile]
  refine ⟨mid, hreach.trans hextend, Or.inr (by rw [hclient]), segment file 0, ?_, ?_⟩
  · rw [hclient]
    simp only [hlogs, List.mem_map]
    exact ⟨0, by simp, rfl⟩
  · rw [hclient]
    show dataSize * 0 + seqModulus ≤ (afterSend file s.client).myfile.pos
    rw [hpos, endOf_eq (by unfold dataSize; omega)]
    unfold dataSize seqModulus
    omega

/-- Of the files the client accepts, the window fits the sequence space in every run for
those of at most 102400 bytes and for no others. -/
theorem fits_sequence_space_iff (file : Buffer) (host : Nat)
    (haccepted : fileTooLarge file = false) :
    (∀ s, Session.Reachable file (inetAddr host) s → s.client.inTransfer →
        FitsSequenceSpace s.client) ↔ file.length ≤ 102400 := by
  constructor
  · intro hfits
    by_contra hlong
    obtain ⟨s, hreach, htransfer, log, hlog, hfar⟩ :=
      outgrown_of_long host haccepted (Nat.not_le.mp hlong)
    exact Nat.not_lt.mpr hfar ((hfits s hreach htransfer).span log hlog)
  · intro hshort s hreach htransfer
    apply fitsSequenceSpace_of_span
    intro log _
    have hpos := (hreach.client.ok.transfer htransfer).aligned.inStep.boundary.1
    unfold seqModulus
    omega

theorem fits_sequence_space_102400_bytes :
    ¬ ∃ s, Session.Reachable (List.replicate 102400 7) (inetAddr 0) s ∧ s.client.inTransfer ∧
      ¬ FitsSequenceSpace s.client := by
  rintro ⟨s, hreach, htransfer, hnot⟩
  apply hnot
  refine (fits_sequence_space_iff (List.replicate 102400 7) 0 ?_).mpr ?_ s hreach htransfer
  · exact not_fileTooLarge (List.length_replicate.trans_le (by decide))
  · exact List.length_replicate.le

/-- With one byte more, the first segment can be logged while the last has been sent. -/
theorem outgrown_102401_bytes :
    ∃ s, Session.Reachable (List.replicate 102401 7) (inetAddr 0) s ∧ s.client.inTransfer ∧
      ∃ log ∈ s.client.cwndLogs, log.filePos + 102401 ≤ s.client.myfile.pos := by
  apply outgrown_of_long
  · exact not_fileTooLarge (List.length_replicate.trans_le (by decide))
  · rw [List.length_replicate]
    decide

end WindowSpan

end Cs118.Confundo
