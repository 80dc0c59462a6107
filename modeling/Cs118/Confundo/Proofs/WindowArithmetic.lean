import Cs118.Confundo.Proofs.Window
import Cs118.Confundo.Proofs.WindowSpan
/-!
# The arithmetic of the congestion window

Slow start ends far below 512 * 512, and from there on the window grows by the quotient 1
until the quotient is 0.  Nothing like that bounds the credit: acknowledgements that find a
long log turn its entries into credit one by one.
-/

namespace Cs118.Confundo

open Cs118.Lib.Bytes
open Cs118.Lib.Run

structure WindowRange (c : Client) : Prop where
  low : 512 ≤ c.cwnd.toNat
  high : c.cwnd.toNat ≤ 262145
  threshLow : 256 ≤ c.ssThresh.toNat
  threshHigh : c.ssThresh.toNat ≤ 131072

/-- The operations on the window come out as those on numbers do: `CWND/512`, `CWND/2`, the
two ways `CWND` grows, the difference in packets, and `CWND_space--`. -/
structure ExactWindow (c : Client) : Prop where
  divisor : c.cwnd ≠ 0
  packets : (c.cwnd / 512).toNat = c.cwnd.toNat / 512
  half : (c.cwnd / 2).toNat = c.cwnd.toNat / 2
  slowStart : c.cwnd < c.ssThresh → (c.cwnd + 512).toNat = c.cwnd.toNat + 512
  avoidance : (c.cwnd + 512 * 512 / c.cwnd).toNat = c.cwnd.toNat + 512 * 512 / c.cwnd.toNat
  gained : c.cwnd / 512 ≤ (c.cwnd + 512 * 512 / c.cwnd) / 512
  spent : 0 < c.cwndSpace → (c.cwndSpace - 1).toNat + 1 = c.cwndSpace.toNat

def MatchedAck (c : Client) (event : ClientEvent) : Prop :=
  c.phase = .loopRecv ∧ ∃ bytes, event = .receive bytes ∧
    ∃ log ∈ c.cwndLogs, log.eAck = (readHeader bytes).ack

structure WindowGrows (c c' : Client) : Prop where
  bytes : c.cwnd.toNat ≤ c'.cwnd.toNat ∧ c'.cwnd.toNat ≤ c.cwnd.toNat + 512
  packets : c'.cwnd.toNat / 512 ≤ c.cwnd.toNat / 512 + 1

def CreditAdds (c : Client) (event : ClientEvent) (c' : Client) : Prop :=
  MatchedAck c event → c'.cwndSpace.toNat =
    c.cwndSpace.toNat + (1 + (c'.cwnd.toNat / 512 - c.cwnd.toNat / 512))

/-- A time-out leaves credit for the segment it goes back to, which goes out at once. -/
def ResendsAtOnce (file : Buffer) (c : Client) : Prop :=
  ∀ front rest, c.phase = .loopTop → c.cwndLogs = front :: rest →
    (rewind c).cwndSpace = 1 ∧
      (c.step file (.iterate true)).map (·.2) = some
        [datagram ⟨front.seq, c.ackNum, c.idNum.toUInt16, c.flags⟩
          (getBytes file front.filePos dataSize)]

/-- All that is said of a state and its steps, apart from the additions to the credit. -/
structure SoundWindow (file : Buffer) (c : Client) : Prop where
  range : WindowRange c
  exact : ExactWindow c
  ack : ∀ event c', Client.next file c event = some c' → MatchedAck c event → WindowGrows c c'
  timeout : ResendsAtOnce file c

section

variable {file : Buffer} {c : Client}

/-! ## The range -/

theorem WindowRange.bounds (h : WindowRange c) : WindowBounds c where
  low := h.low
  high := h.high.trans (by decide)
  thresh := h.threshHigh.trans (by decide)

theorem WindowRange.of_fields {c' : Client} (h : WindowRange c) (hcwnd : c'.cwnd = c.cwnd)
    (hthresh : c'.ssThresh = c.ssThresh) : WindowRange c' where
  low := hcwnd ▸ h.low
  high := hcwnd ▸ h.high
  threshLow := hthresh ▸ h.threshLow
  threshHigh := hthresh ▸ h.threshHigh

/-- The quotient is at most 1 from 131073 on and 0 from 262145 on. -/
theorem add_quotient_le {n : Nat} (hlow : 512 ≤ n) (hhigh : n ≤ 262145) :
    n + 262144 / n ≤ 262145 := by
  have hquotient : 262144 / n ≤ 262144 / 512 := Nat.div_le_div_left hlow (by decide)
  by_cases hsmall : n ≤ 131072
  · omega
  · by_cases htop : n ≤ 262144
    · have hone : 262144 / n < 2 := Nat.div_lt_of_lt_mul (by omega)
      omega
    · have hzero : 262144 / n = 0 := Nat.div_eq_of_lt (by omega)
      omega

theorem WindowRange.moves (h : WindowRange c) {c' : Client}
    (hmoves : WindowMoves c.cwnd c.ssThresh c'.cwnd c'.ssThresh) : WindowRange c' := by
  have hlow := h.low
  have hhigh := h.high
  have hleast := h.threshLow
  have hmost := h.threshHigh
  cases hmoves with
  | keeps hcwnd hthresh => exact h.of_fields hcwnd hthresh
  | slowStart hslow hcwnd hthresh =>
      have hlt : c.cwnd.toNat < c.ssThresh.toNat := hslow
      have hgrown := h.bounds.toNat_slowStart hslow
      refine ⟨?_, ?_, hthresh ▸ hleast, hthresh ▸ hmost⟩
      · rw [hcwnd, hgrown]
        omega
      · rw [hcwnd, hgrown]
        omega
  | avoidance hcwnd hthresh =>
      have hgrown := (toNat_add_quotient hlow h.bounds.high).1
      have hmax := add_quotient_le hlow hhigh
      refine ⟨?_, ?_, hthresh ▸ hleast, hthresh ▸ hmost⟩
      · rw [hcwnd, hgrown]
        exact hlow.trans (Nat.le_add_right _ _)
      · rw [hcwnd, hgrown]
        exact hmax
  | timeout hcwnd hthresh =>
      have hhalf : (c.cwnd / 2).toNat = c.cwnd.toNat / 2 := UInt32.toNat_div _ _
      refine ⟨?_, ?_, ?_, ?_⟩
      · rw [hcwnd]
        decide
      · rw [hcwnd]
        decide
      · rw [hthresh, hhalf]
        omega
      · rw [hthresh, hhalf]
        omega

theorem WindowRange.step (h : WindowRange c) {event : ClientEvent}
    {next : Client × List Buffer} (hstep : c.step file event = some next) :
    WindowRange next.1 :=
  h.moves (windowMoves_of_step hstep)

/-! ## One operation at a time -/

theorem WindowRange.exactWindow (h : WindowRange c) : ExactWindow c where
  divisor hzero := by
    have hlow := h.low
    rw [hzero, UInt32.toNat_zero] at hlow
    omega
  packets := UInt32.toNat_div _ _
  half := UInt32.toNat_div _ _
  slowStart hslow := h.bounds.toNat_slowStart hslow
  avoidance := (toNat_add_quotient h.low h.bounds.high).1
  gained := (packets_avoidance h.low h.bounds.high).1
  spent hcredit := by
    obtain ⟨hpos, hspent⟩ := toNat_sub_one hcredit
    omega

theorem next_matchedAck (h : WindowRange c) {event : ClientEvent} {c' : Client}
    (hnext : Client.next file c event = some c') (hmatched : MatchedAck c event) :
    c'.cwndLogs.length + 1 ≤ c.cwndLogs.length ∧
      ∃ (added : Nat) (gain : UInt32), added ≤ 512 ∧ c'.cwnd.toNat = c.cwnd.toNat + added ∧
        c'.cwndSpace = c.cwndSpace + gain ∧
        gain.toNat = 1 + (c'.cwnd.toNat / 512 - c.cwnd.toNat / 512) := by
  obtain ⟨hphase, bytes, rfl, log, hlog, hack⟩ := hmatched
  obtain ⟨next, hstep, rfl⟩ := Option.map_eq_some_iff.mp hnext
  have hend : next = endIteration (onAck c (readHeader bytes).ack) := by
    simp only [Client.step, hphase] at hstep
    split_ifs at hstep
    exact (Option.some.inj hstep).symm
  obtain ⟨hlogs, hspace, hcwnd, -⟩ := endIteration_window (onAck c (readHeader bytes).ack)
  rw [← hend] at hlogs hspace hcwnd
  cases herase : eraseThrough (readHeader bytes).ack c.cwndLogs with
  | none => exact absurd hack (eraseThrough_eq_none.mp herase log hlog)
  | some rest =>
      have honAck : onAck c (readHeader bytes).ack = growWindow { c with cwndLogs := rest } := by
        unfold onAck
        rw [herase]
      have hbounds : WindowBounds { c with cwndLogs := rest } := h.bounds.of_fields rfl rfl
      obtain ⟨added, gain, hadded, hgrown, hcredit, hgain⟩ := growWindow_gain hbounds
      obtain ⟨_, _, hgrow, -⟩ := growWindow_eq { c with cwndLogs := rest }
      rw [honAck] at hlogs hspace hcwnd
      refine ⟨?_, added, gain, hadded, hcwnd ▸ hgrown, hspace.trans hcredit, ?_⟩
      · obtain ⟨before, hit, hsplit, -, -⟩ := eraseThrough_eq_some herase
        rw [hlogs, hgrow, hsplit, List.length_append, List.length_cons]
        exact Nat.le_add_left _ _
      · rw [hcwnd, hgrown]
        exact hgain

theorem windowGrows_of_matchedAck (h : WindowRange c) {event : ClientEvent} {c' : Client}
    (hnext : Client.next file c event = some c') (hmatched : MatchedAck c event) :
    WindowGrows c c' := by
  obtain ⟨-, added, _, hadded, hgrown, -, -⟩ := next_matchedAck h hnext hmatched
  constructor
  · omega
  · omega

theorem resendsAtOnce (h : ClientOk file c) : ResendsAtOnce file c := by
  intro front rest hphase hlogs
  have hne : c.cwndLogs ≠ [] := by simp [hlogs]
  have hinStep := (h.transfer (Or.inl hphase)).aligned.inStep
  obtain ⟨-, hfront⟩ := hinStep.logged front (by simp [hlogs])
  have hseq : front.seq = seqAt front.filePos := congrArg Logger.seq hfront
  have hsent := sendNext_rewind hinStep hne
  refine ⟨by rw [rewind_cons hlogs], ?_⟩
  have hstep : (c.step file (.iterate true)).map (·.2) =
      some (sendNext file (rewind c)).2 := by
    simp [Client.step, hphase, hne]
  rw [hstep, hsent, rewind_cons hlogs, hseq]
  rfl

theorem soundWindow (hclient : ClientOk file c) (h : WindowRange c) : SoundWindow file c where
  range := h
  exact := h.exactWindow
  ack _ _ := windowGrows_of_matchedAck h
  timeout := resendsAtOnce hclient

/-! ## The credit -/

/-- As long as every time-out finds at most `2 ^ 32 - 512` packets logged, log and credit
together exceed `2 ^ 32 - 513` by no more than the window. -/
def HasRoom (c : Client) : Prop :=
  c.cwndLogs.length + c.cwndSpace.toNat ≤ (2 ^ 32 - 513) + c.cwnd.toNat / 512

theorem HasRoom.of_fields {c' : Client} (h : HasRoom c) (hlogs : c'.cwndLogs = c.cwndLogs)
    (hspace : c'.cwndSpace = c.cwndSpace) (hcwnd : c'.cwnd = c.cwnd) : HasRoom c' := by
  unfold HasRoom at *
  rwa [hlogs, hspace, hcwnd]

theorem HasRoom.endIteration (h : HasRoom c) : HasRoom (endIteration c).1 := by
  obtain ⟨hlogs, hspace, hcwnd, -⟩ := endIteration_window c
  exact h.of_fields hlogs hspace hcwnd

variable (file) in
theorem HasRoom.sendNext (h : HasRoom c) : HasRoom (sendNext file c).1 := by
  unfold HasRoom at *
  rwa [sendNext_credit, (sendNext_window file c).1]

variable (file) in
theorem hasRoom_timeout (hlogs : c.cwndLogs ≠ []) (hfew : c.cwndLogs.length ≤ 2 ^ 32 - 512) :
    HasRoom (Confundo.sendNext file (rewind c)).1 := by
  obtain ⟨front, rest, hcons⟩ := List.exists_cons_of_ne_nil hlogs
  have hone : (1 : UInt32).toNat = 1 := UInt32.toNat_one
  have hpacket : (512 : UInt32).toNat / 512 = 1 := by decide
  apply HasRoom.sendNext
  unfold HasRoom
  rw [hcons, List.length_cons] at hfew
  rw [rewind_cons hcons, hone, hpacket]
  omega

/-- A matched acknowledgement finds room for what it adds. -/
theorem HasRoom.ack (hroom : HasRoom c) (h : WindowRange c) {event : ClientEvent} {c' : Client}
    (hnext : Client.next file c event = some c') (hmatched : MatchedAck c event)
    (h' : WindowRange c') :
    c'.cwndSpace.toNat =
        c.cwndSpace.toNat + (1 + (c'.cwnd.toNat / 512 - c.cwnd.toNat / 512)) ∧
      HasRoom c' := by
  obtain ⟨hlogs, added, gain, -, hgrown, hspace, hgain⟩ := next_matchedAck h hnext hmatched
  have hhigh := h'.high
  unfold HasRoom at *
  have hadd : c'.cwndSpace.toNat = c.cwndSpace.toNat + gain.toNat := by
    rw [hspace, UInt32.toNat_add, Nat.mod_eq_of_lt]
    omega
  omega

theorem onAck_of_unmatched {bytes : Buffer} (hphase : c.phase = .loopRecv)
    (hother : ¬ MatchedAck c (.receive bytes)) : onAck c (readHeader bytes).ack = c := by
  rcases onAck_cases c (readHeader bytes).ack with ⟨hsame, -⟩ | ⟨_, hit, _, _, _, hsplit, hack, -⟩
  · exact hsame
  · exact absurd ⟨hphase, bytes, rfl, hit, by simp [hsplit], hack⟩ hother

structure CreditOk (file : Buffer) (c : Client) : Prop where
  client : ClientOk file c
  range : WindowRange c
  room : c.inTransfer → HasRoom c

theorem CreditOk.greet (h : CreditOk file c) (hphase : c.phase = .synWait) (header : Header)
    (hin : (onSynReply file c header).inTransfer) : HasRoom (onSynReply file c header) := by
  have hlogs := h.client.greeting (Or.inr hphase)
  have hwithin := onSynReply_within hphase hlogs header hin
  unfold WithinWindow at hwithin
  unfold HasRoom
  omega

theorem CreditOk.keeps (h : CreditOk file c) {event : ClientEvent} {next : Client × List Buffer}
    (hstep : c.step file event = some next) (hother : ¬ MatchedAck c event)
    (hfew : event = .iterate true → c.cwndLogs.length ≤ 2 ^ 32 - 512)
    (hin : next.1.inTransfer) : HasRoom next.1 := by
  by_cases hgreeting : c.phase = .synSend ∨ c.phase = .synWait
  · cases Client.greets_of_step hgreeting hstep with
    | sendSyn _ => exact absurd hin (by simp [Client.inTransfer])
    | giveUp _ => exact absurd hin (by simp [Client.inTransfer])
    | synTimeout _ => exact absurd hin (by simp [Client.inTransfer])
    | reply hphase => exact h.greet hphase _ hin
  · cases Client.moves_of_step (not_or.mp hgreeting) hstep with
    | @iterate timeout hphase henabled =>
        cases timeout with
        | true => exact (hasRoom_timeout file (henabled rfl) (hfew rfl)).of_fields rfl rfl rfl
        | false => exact ((h.room (Or.inl hphase)).sendNext file).of_fields rfl rfl rfl
    | ack hphase =>
        rw [onAck_of_unmatched hphase hother]
        exact (h.room (Or.inr hphase)).endIteration
    | nothing hphase => exact (h.room (Or.inr hphase)).endIteration
    | giveUp _ => exact absurd hin (by simp [Client.inTransfer])
    | resendFin hphase => exact absurd hin (by simp [Client.inTransfer, hphase])
    | finReply hphase =>
        unfold onFinReply at hin
        split_ifs at hin <;> exact absurd hin (by simp [Client.inTransfer, hphase])
    | timeWait hphase =>
        unfold onTimeWait at hin
        split_ifs at hin <;> exact absurd hin (by simp [Client.inTransfer, hphase])
    | timeUp _ => exact absurd hin (by simp [Client.inTransfer])

theorem CreditOk.next (h : CreditOk file c) {event : ClientEvent} {c' : Client}
    (hnext : Client.next file c event = some c')
    (hfew : event = .iterate true → c.cwndLogs.length ≤ 2 ^ 32 - 512) :
    CreditAdds c event c' ∧ CreditOk file c' := by
  obtain ⟨next, hstep, rfl⟩ := Option.map_eq_some_iff.mp hnext
  have hclient := h.client.step hstep
  have hrange := h.range.step hstep
  by_cases hmatched : MatchedAck c event
  · have hroom := h.room (Or.inr hmatched.1)
    obtain ⟨hadds, hkept⟩ := hroom.ack h.range hnext hmatched hrange
    exact ⟨fun _ => hadds, hclient, hrange, fun _ => hkept⟩
  · exact ⟨fun hack => absurd hack hmatched, hclient, hrange, h.keeps hstep hmatched hfew⟩

end

/-! ## A log that grows

A time-out of the first segment, an acknowledgement of the second and the two packets that
it makes room for leave one entry more than before. -/

section

variable {file : Buffer} {c : Client} {front : Logger} {rest : List Logger}

theorem Client.Reachable.next (h : c.Reachable file) {event : ClientEvent} {c' : Client}
    (hnext : Client.next file c event = some c') : c'.Reachable file :=
  h.tail trivial hnext

theorem Client.Reachable.inStep (h : c.Reachable file) (hphase : c.inTransfer) :
    InStep file c :=
  (h.ok.transfer hphase).aligned.inStep

def ackBytes (ack : UInt32) : Buffer := datagram ⟨0, ack, 0, ackFlag⟩ noData

theorem readHeader_ackBytes (ack : UInt32) : (readHeader (ackBytes ack)).ack = ack :=
  congrArg Header.ack (readHeader_datagram _ _)

theorem next_ack_front (hphase : c.phase = .loopRecv) (hlogs : c.cwndLogs = front :: rest) :
    Client.next file c (.receive (ackBytes front.eAck)) =
      some (endIteration (growWindow { c with cwndLogs := rest })).1 := by
  have hbytes : ackBytes front.eAck ≠ [] := datagram_ne_nil _ _
  simp only [Client.next, Client.step, hphase, if_neg hbytes, readHeader_ackBytes,
    onAck_front hlogs, Option.map_some]

theorem next_nothing (hphase : c.phase = .loopRecv) (hlogs : c.cwndLogs ≠ []) :
    Client.next file c .nothing = some { c with phase := .loopTop } := by
  simp only [Client.next, Client.step, hphase, endIteration_of_logged hlogs, Option.map_some]

theorem timeout_front (h : c.Reachable file) (hphase : c.phase = .loopTop)
    (hlogs : c.cwndLogs = front :: rest) :
    ∃ c' : Client, c'.Reachable file ∧ c'.phase = .loopRecv ∧ c'.cwndLogs = rest ++ [front] ∧
      c'.cwnd = 512 ∧ c'.cwndSpace = 0 ∧
      (front.filePos + dataSize ≤ file.length →
        c'.myfile = ⟨front.filePos + dataSize, false, false⟩) := by
  have hinStep := h.inStep (Or.inl hphase)
  have hne : c.cwndLogs ≠ [] := by simp [hlogs]
  have hback := rewind_cons hlogs
  have htimeout : Client.next file c (.iterate true) =
      some { afterSend file (rewind c) with phase := .loopRecv } := by
    simp [Client.next, Client.step, hphase, hne, sendNext_rewind hinStep hne]
  refine ⟨_, h.next htimeout, rfl, afterSend_rewind hinStep hlogs, ?_, ?_, fun hfull => ?_⟩
  · simp only [afterSend, hback]
  · simp only [afterSend, hback]
    decide
  · have hpos : (rewind c).myfile.pos = front.filePos := by rw [hback]
    exact (myfile_afterSend (by rwa [hpos])).trans (by rw [hpos])

theorem rotate {older : List Logger} (h : c.Reachable file) (hphase : c.phase = .loopTop)
    (hlogs : c.cwndLogs = older ++ rest) :
    ∃ c' : Client, c'.Reachable file ∧ c'.phase = .loopTop ∧ c'.cwndLogs = rest ++ older := by
  induction older generalizing c rest with
  | nil => exact ⟨c, h, hphase, by simp [hlogs]⟩
  | cons oldest older ih =>
      have hfront : c.cwndLogs = oldest :: (older ++ rest) := hlogs
      obtain ⟨c₁, hreach, hrecv, hlogs₁, -⟩ := timeout_front h hphase hfront
      have hnothing := hreach.next (next_nothing hrecv (by simp [hlogs₁]))
      have hsplit : c₁.cwndLogs = older ++ (rest ++ [oldest]) := by
        rw [hlogs₁, List.append_assoc]
      obtain ⟨c₂, hall, htop, hlogs₂⟩ := ih hnothing rfl hsplit
      exact ⟨c₂, hall, htop, by simp [hlogs₂]⟩

theorem ack_front (h : c.Reachable file) (hphase : c.phase = .loopRecv)
    (hlogs : c.cwndLogs = front :: rest) (hrest : rest ≠ []) (hcwnd : c.cwnd = 512)
    (hspace : c.cwndSpace = 0) :
    ∃ c' : Client, c'.Reachable file ∧ c'.phase = .loopTop ∧ c'.cwndLogs = rest ∧
      c'.myfile = c.myfile ∧ 2 ≤ c'.cwndSpace.toNat := by
  obtain ⟨cwnd, cwndSpace, hgrow, hroom, -⟩ := growWindow_room
    (c := { c with cwndLogs := rest }) (Or.inl hcwnd) (by simp [hspace])
  have hnext := h.next (next_ack_front hphase hlogs)
  rw [hgrow, endIteration_of_logged hrest] at hnext
  exact ⟨_, hnext, rfl, rfl, rfl, hroom⟩

theorem send_next (h : c.Reachable file) (hphase : c.phase = .loopTop)
    (hspace : 0 < c.cwndSpace.toNat) (heof : c.myfile.eof = false) :
    ∃ c' : Client, c'.Reachable file ∧ c'.phase = .loopRecv ∧
      c'.cwndLogs = c.cwndLogs ++ [entry file c.myfile.pos] ∧
      c'.myfile = (afterSend file c).myfile ∧ c'.cwndSpace.toNat = c.cwndSpace.toNat - 1 := by
  have hinStep := h.inStep (Or.inl hphase)
  have hsend : Client.next file c (.iterate false) =
      some { afterSend file c with phase := .loopRecv } := by
    simp [Client.next, Client.step, hphase, sendNext_of_credit hinStep hspace heof]
  exact ⟨_, h.next hsend, rfl, rfl, rfl, (toNat_sub_one hspace).2⟩

/-- The first segment times out, the second is acknowledged and sent again, and the third
goes out, which is the last of the file. -/
theorem lengthen (hfull : 2 * dataSize ≤ file.length) (hlast : file.length < 3 * dataSize)
    (h : c.Reachable file) (hphase : c.phase = .loopTop)
    (hlogs : c.cwndLogs = segment file 0 :: segment file 1 :: rest) :
    ∃ c' : Client, c'.Reachable file ∧ c'.phase = .loopRecv ∧ c'.myfile.eof = true ∧
      c'.cwndLogs = rest ++ [segment file 0, segment file 1, segment file 2] := by
  obtain ⟨c₁, hreach₁, hphase₁, hlogs₁, hcwnd, hspace, hmyfile⟩ := timeout_front h hphase hlogs
  obtain ⟨c₂, hreach₂, hphase₂, hlogs₂, hmyfile₂, hroom⟩ :=
    ack_front hreach₁ hphase₁ hlogs₁ (by simp) hcwnd hspace
  rw [hmyfile (show 0 + dataSize ≤ file.length by omega)] at hmyfile₂
  obtain ⟨c₃, hreach₃, hphase₃, hlogs₃, hmyfile₃, hspent⟩ :=
    send_next hreach₂ hphase₂ (by omega) (by rw [hmyfile₂])
  have hpos₂ : c₂.myfile.pos = dataSize * 1 := by rw [hmyfile₂]; rfl
  have hnothing := hreach₃.next (next_nothing hphase₃ (by simp [hlogs₃]))
  have hpos₃ : c₃.myfile = ⟨dataSize * 2, false, false⟩ := by
    rw [hmyfile₃, myfile_afterSend (by rw [hpos₂]; omega), hpos₂]
    rfl
  obtain ⟨c₄, hreach₄, hphase₄, hlogs₄, hmyfile₄, -⟩ :=
    send_next hnothing rfl (show 0 < c₃.cwndSpace.toNat by omega)
      (show c₃.myfile.eof = false by rw [hpos₃])
  refine ⟨c₄, hreach₄, hphase₄, ?_, ?_⟩
  · have hshort : (chunk file (dataSize * 2)).length < dataSize := by
      rw [length_chunk]
      omega
    rw [hmyfile₄]
    simp only [afterSend, hpos₃, hshort, decide_true]
  · simp only [hlogs₄, hlogs₃, hlogs₂, hpos₂, hpos₃]
    simp [segment]

/-- Any number of entries can be logged behind the first two segments. -/
theorem long_log (hfull : 2 * dataSize ≤ file.length) (hlast : file.length < 3 * dataSize)
    (h : c.Reachable file) (hphase : c.phase = .loopTop)
    (hlogs : c.cwndLogs = [segment file 0, segment file 1]) (n : Nat) :
    ∃ (c' : Client) (rest : List Logger), c'.Reachable file ∧ c'.phase = .loopTop ∧
      c'.cwndLogs = segment file 0 :: segment file 1 :: rest ∧ rest.length = n := by
  induction n with
  | zero => exact ⟨c, [], h, hphase, hlogs, rfl⟩
  | succ n ih =>
      obtain ⟨c₁, rest, hreach, htop, hlogs₁, hlength⟩ := ih
      obtain ⟨c₂, hreach₂, hrecv, -, hlogs₂⟩ := lengthen hfull hlast hreach htop hlogs₁
      have hnothing := hreach₂.next (next_nothing hrecv (by simp [hlogs₂]))
      obtain ⟨c₃, hreach₃, htop₃, hlogs₃⟩ := rotate hnothing rfl hlogs₂
      exact ⟨c₃, segment file 2 :: rest, hreach₃, htop₃, hlogs₃, by simp [hlength]⟩

/-! ## A credit that wraps -/

theorem next_idle (hphase : c.phase = .loopTop) (heof : c.myfile.eof = true) :
    Client.next file c (.iterate false) = some { c with phase := .loopRecv } := by
  simp [Client.next, Client.step, hphase, sendNext, heof]

theorem toNat_lt_of_not_wraps {n m : UInt32} (hgain : m = n + 1 ∨ m = n + 2) (h : ¬ m < n) :
    n.toNat < m.toNat := by
  rw [UInt32.lt_iff_toNat_lt] at h
  rcases hgain with rfl | rfl
  · rw [UInt32.toNat_add, UInt32.toNat_one] at *
    omega
  · rw [UInt32.toNat_add, show (2 : UInt32).toNat = 2 from rfl] at *
    omega

/-- At the end of the file the acknowledgements of a log turn it into credit, until the
credit has no room for it. -/
theorem wraps_of_long (h : c.Reachable file) (hphase : c.phase = .loopRecv)
    (heof : c.myfile.eof = true) (hlong : 2 ^ 32 ≤ c.cwndLogs.length + c.cwndSpace.toNat) :
    ∃ (c₁ : Client) (event : ClientEvent) (c₂ : Client), c₁.Reachable file ∧
      Client.next file c₁ event = some c₂ ∧ MatchedAck c₁ event ∧
      c₂.cwndSpace < c₁.cwndSpace := by
  induction hlogs : c.cwndLogs generalizing c with
  | nil =>
      have hmax := c.cwndSpace.toNat_lt
      simp only [hlogs, List.length_nil] at hlong
      omega
  | cons front rest ih =>
      have hnext : Client.next file c (.receive (ackBytes front.eAck)) = _ :=
        next_ack_front hphase hlogs
      have hmatched : MatchedAck c (.receive (ackBytes front.eAck)) :=
        ⟨hphase, _, rfl, front, by simp [hlogs], (readHeader_ackBytes _).symm⟩
      obtain ⟨cwnd, cwndSpace, hgrow, hgain⟩ := growWindow_eq { c with cwndLogs := rest }
      rw [hgrow] at hnext
      by_cases hwraps : cwndSpace < c.cwndSpace
      · refine ⟨c, _, _, h, hnext, hmatched, ?_⟩
        rwa [(endIteration_window _).2.1]
      · have hmore : c.cwndSpace.toNat < cwndSpace.toNat := toNat_lt_of_not_wraps hgain hwraps
        have hmax := cwndSpace.toNat_lt
        have hlength : c.cwndLogs.length = rest.length + 1 := by simp [hlogs]
        have hrest : rest ≠ [] := by
          rintro rfl
          rw [List.length_nil] at hlength
          omega
        rw [endIteration_of_logged hrest] at hnext
        refine ih ((h.next hnext).next (next_idle rfl heof)) rfl heof ?_ rfl
        show 2 ^ 32 ≤ rest.length + cwndSpace.toNat
        omega

end

/-! ## Every run -/

theorem creditOk_start (file : Buffer) : CreditOk file Client.start where
  client := clientOk_of_greeting (Or.inl rfl) rfl
  range := ⟨by decide, by decide, by decide, by decide⟩
  room := by simp [Client.start, Client.inTransfer]

/-- Whatever arrives and times out, the window stays in its range, its arithmetic is exact
and its steps are as they should be; and so are the additions to the credit unless some
time-out has found more than `2 ^ 32 - 512` packets logged. -/
theorem window_arithmetic (file : Buffer) {events : List ClientEvent} {c : Client}
    (hrun : run (Client.next file) Client.start events = some c) :
    SoundWindow file c ∧
      (AlongRun (Client.next file)
          (fun c event _ => event = .iterate true → c.cwndLogs.length ≤ 2 ^ 32 - 512)
          Client.start events →
        AlongRun (Client.next file) CreditAdds Client.start events) := by
  have hstart := creditOk_start file
  constructor
  · have hboth : ClientOk file c ∧ WindowRange c := by
      refine run_invariant (I := fun c => ClientOk file c ∧ WindowRange c) ?_
        ⟨hstart.client, hstart.range⟩ hrun
      rintro c event c' ⟨hclient, hrange⟩ hnext
      obtain ⟨next, hstep, rfl⟩ := Option.map_eq_some_iff.mp hnext
      exact ⟨hclient.step hstep, hrange.step hstep⟩
    exact soundWindow hboth.1 hboth.2
  · intro hfew
    refine AlongRun.imp (I := CreditOk file) ?_ hstart hfew
    intro c event c' h hnext hlogged
    exact h.next hnext hlogged

/-- A single segment times out and is acknowledged: the window is two packets, both of them
credit. -/
theorem window_arithmetic_one_byte :
    ∃ (events : List ClientEvent) (c : Client),
      run (Client.next [7]) Client.start events = some c ∧ c.cwnd = 1024 ∧ c.cwndSpace = 2 ∧
        SoundWindow [7] c ∧ AlongRun (Client.next [7]) CreditAdds Client.start events := by
  let events : List ClientEvent :=
    [.sendSyn, .receive (datagram ⟨4321, 12346, 1, synAckFlag⟩ noData), .iterate false, .nothing,
      .iterate true, .receive (ackBytes 12347)]
  have hrun : (run (Client.next [7]) Client.start events).any
      (fun c => c.cwnd = 1024 ∧ c.cwndSpace = 2) = true := by decide +kernel
  have hfew : AlongRun (Client.next [7])
      (fun c event _ => event = .iterate true → c.cwndLogs.length ≤ 2 ^ 32 - 512)
      Client.start events := by decide +kernel
  obtain ⟨c, hc, hstate⟩ := (Option.any_eq_true _ _).mp hrun
  obtain ⟨hcwnd, hspace⟩ := of_decide_eq_true hstate
  have hsound := window_arithmetic [7] hc
  exact ⟨events, c, hc, hcwnd, hspace, hsound.1, hsound.2 hfew⟩

/-- With 2 ^ 32 entries behind the first two, an acknowledgement that adds to the credit
leaves less of it. -/
theorem credit_wraps :
    ∃ (c : Client) (event : ClientEvent) (c' : Client),
      c.Reachable (List.replicate 1025 7) ∧
        Client.next (List.replicate 1025 7) c event = some c' ∧ MatchedAck c event ∧
        c'.cwndSpace < c.cwndSpace := by
  have hlength : (List.replicate 1025 (7 : UInt8)).length = 1025 := List.length_replicate
  have hfull : 2 * dataSize ≤ (List.replicate 1025 (7 : UInt8)).length := by
    rw [hlength]
    decide
  have hlast : (List.replicate 1025 (7 : UInt8)).length < 3 * dataSize := by
    rw [hlength]
    decide
  have hrun : (run (Client.next (List.replicate 1025 7)) Client.start
      [.sendSyn, .receive (datagram ⟨4321, 12346, 1, synAckFlag⟩ noData), .iterate false,
        .nothing, .iterate false, .nothing]).any (fun c => c.phase = .loopTop ∧
        c.cwndLogs = [segment (List.replicate 1025 7) 0, segment (List.replicate 1025 7) 1]) =
      true := by decide +kernel
  obtain ⟨c, hc, hstate⟩ := (Option.any_eq_true _ _).mp hrun
  obtain ⟨hphase, hlogs⟩ := of_decide_eq_true hstate
  obtain ⟨c₁, rest, hreach₁, hphase₁, hlogs₁, hrest⟩ :=
    long_log hfull hlast (reach_of_run (fun _ _ => trivial) hc) hphase hlogs (2 ^ 32)
  obtain ⟨c₂, hreach₂, hphase₂, heof, hlogs₂⟩ := lengthen hfull hlast hreach₁ hphase₁ hlogs₁
  refine wraps_of_long hreach₂ hphase₂ heof ?_
  rw [hlogs₂, List.length_append, hrest]
  exact Nat.le_add_right_of_le (Nat.le_add_right _ _)

end Cs118.Confundo
