import Cs118.Confundo.Proofs.Position
/-!
# The congestion window and the credit

The client counts its credit apart from the window.  An acknowledgement frees at least as
many places in the log as it adds credit beyond the growth of the window; a time-out gives
a window of one packet and forgets one entry only, whatever else is logged.
-/

namespace Cs118.Confundo

open Cs118.Lib.Bytes
open Cs118.Lib.Run

/-- The packets outstanding and the credit fit the window:
`CWND_logs.size() + CWND_space <= CWND/512`. -/
def WithinWindow (c : Client) : Prop :=
  c.cwndLogs.length + c.cwndSpace.toNat ≤ c.cwnd.toNat / 512

instance (c : Client) : Decidable (WithinWindow c) :=
  inferInstanceAs (Decidable (_ ≤ c.cwnd.toNat / 512))

/-- The window stays where none of its arithmetic wraps: above 512 * 512 it grows by the
quotient 0 only. -/
structure WindowBounds (c : Client) : Prop where
  low : 512 ≤ c.cwnd.toNat
  high : c.cwnd.toNat ≤ 262656
  thresh : c.ssThresh.toNat ≤ 262144

variable {file : Buffer} {c : Client}

theorem WindowBounds.of_fields {c' : Client} (h : WindowBounds c) (hcwnd : c'.cwnd = c.cwnd)
    (hthresh : c'.ssThresh = c.ssThresh) : WindowBounds c' where
  low := hcwnd ▸ h.low
  high := hcwnd ▸ h.high
  thresh := hthresh ▸ h.thresh

theorem WithinWindow.of_fields {c' : Client} (h : WithinWindow c)
    (hlogs : c'.cwndLogs = c.cwndLogs) (hspace : c'.cwndSpace = c.cwndSpace)
    (hcwnd : c'.cwnd = c.cwnd) : WithinWindow c' := by
  unfold WithinWindow at *
  rwa [hlogs, hspace, hcwnd]

/-! ## What a step does to the window -/

inductive WindowMoves (w t w' t' : UInt32) : Prop
  | keeps (hcwnd : w' = w) (hthresh : t' = t)
  | slowStart (hslow : w < t) (hcwnd : w' = w + 512) (hthresh : t' = t)
  | avoidance (hcwnd : w' = w + 512 * 512 / w) (hthresh : t' = t)
  | timeout (hcwnd : w' = 512) (hthresh : t' = w / 2)

theorem sendNext_window (file : Buffer) (c : Client) :
    (sendNext file c).1.cwnd = c.cwnd ∧ (sendNext file c).1.ssThresh = c.ssThresh := by
  unfold sendNext
  split_ifs <;> exact ⟨rfl, rfl⟩

theorem endIteration_window (c : Client) :
    (endIteration c).1.cwndLogs = c.cwndLogs ∧ (endIteration c).1.cwndSpace = c.cwndSpace ∧
      (endIteration c).1.cwnd = c.cwnd ∧ (endIteration c).1.ssThresh = c.ssThresh := by
  unfold endIteration
  split_ifs <;> exact ⟨rfl, rfl, rfl, rfl⟩

theorem growWindow_moves (c : Client) :
    WindowMoves c.cwnd c.ssThresh (growWindow c).cwnd (growWindow c).ssThresh := by
  unfold growWindow
  by_cases hslow : c.cwnd < c.ssThresh
  · rw [if_pos hslow]
    exact .slowStart hslow rfl rfl
  · rw [if_neg hslow]
    dsimp only
    split_ifs
    · exact .avoidance rfl rfl
    · exact .avoidance rfl rfl

theorem onAck_moves (c : Client) (ack : UInt32) :
    WindowMoves c.cwnd c.ssThresh (onAck c ack).cwnd (onAck c ack).ssThresh := by
  unfold onAck
  cases eraseThrough ack c.cwndLogs with
  | none => exact .keeps rfl rfl
  | some rest => exact growWindow_moves { c with cwndLogs := rest }

theorem rewind_moves (c : Client) :
    WindowMoves c.cwnd c.ssThresh (rewind c).cwnd (rewind c).ssThresh := by
  cases hlogs : c.cwndLogs with
  | nil =>
      unfold rewind
      rw [hlogs]
      exact .keeps rfl rfl
  | cons front rest =>
      rw [rewind_cons hlogs]
      exact .timeout rfl rfl

theorem enterTransfer_window (file : Buffer) (c : Client) :
    (enterTransfer file c).cwnd = c.cwnd ∧ (enterTransfer file c).ssThresh = c.ssThresh := by
  unfold enterTransfer
  split_ifs <;> exact ⟨rfl, rfl⟩

theorem onSynReply_moves (file : Buffer) (c : Client) (header : Header) :
    WindowMoves c.cwnd c.ssThresh (onSynReply file c header).cwnd
      (onSynReply file c header).ssThresh := by
  have hgrown : WindowMoves c.cwnd c.ssThresh
      (if c.cwnd < c.ssThresh then { c with cwnd := c.cwnd + 512 } else c).cwnd
      (if c.cwnd < c.ssThresh then { c with cwnd := c.cwnd + 512 } else c).ssThresh := by
    split_ifs with hslow
    · exact .slowStart hslow rfl rfl
    · exact .keeps rfl rfl
  unfold onSynReply
  by_cases hreply : header.ack = 12346 ∨ header.flags = finFlag
  · rw [if_pos hreply]
    generalize (if c.cwnd < c.ssThresh then { c with cwnd := c.cwnd + 512 } else c) = c' at hgrown ⊢
    dsimp only
    by_cases hgreeted : header.flags = synAckFlag ∧ header.seq = 4321
    · rw [if_pos hgreeted, (enterTransfer_window file _).1, (enterTransfer_window file _).2]
      exact hgrown
    · rw [if_neg hgreeted]
      exact hgrown
  · rw [if_neg hreply]
    exact .keeps rfl rfl

theorem windowMoves_of_step {event : ClientEvent} {next : Client × List Buffer}
    (hstep : c.step file event = some next) :
    WindowMoves c.cwnd c.ssThresh next.1.cwnd next.1.ssThresh := by
  by_cases hgreeting : c.phase = .synSend ∨ c.phase = .synWait
  · cases Client.greets_of_step hgreeting hstep with
    | sendSyn _ => exact .keeps rfl rfl
    | giveUp _ => exact .keeps rfl rfl
    | synTimeout _ => exact .keeps rfl rfl
    | reply _ => exact onSynReply_moves file c _
  · cases Client.moves_of_step (not_or.mp hgreeting) hstep with
    | @iterate timeout _ _ =>
        obtain ⟨hcwnd, hthresh⟩ := sendNext_window file (if timeout then rewind c else c)
        dsimp only
        rw [hcwnd, hthresh]
        cases timeout with
        | true => exact rewind_moves c
        | false => exact .keeps rfl rfl
    | @ack bytes _ =>
        obtain ⟨-, -, hcwnd, hthresh⟩ := endIteration_window (onAck c (readHeader bytes).ack)
        rw [hcwnd, hthresh]
        exact onAck_moves c _
    | nothing _ =>
        obtain ⟨-, -, hcwnd, hthresh⟩ := endIteration_window c
        exact .keeps hcwnd hthresh
    | giveUp _ => exact .keeps rfl rfl
    | resendFin _ => exact .keeps rfl rfl
    | finReply _ =>
        unfold onFinReply
        split_ifs <;> exact .keeps rfl rfl
    | timeWait _ =>
        unfold onTimeWait
        split_ifs <;> exact .keeps rfl rfl
    | timeUp _ => exact .keeps rfl rfl

/-! ## Growth -/

theorem toNat_add_512 {w : UInt32} (h : w.toNat ≤ 262144) : (w + 512).toNat = w.toNat + 512 := by
  rw [UInt32.toNat_add, show (512 : UInt32).toNat = 512 from rfl]
  omega

theorem toNat_add_quotient {w : UInt32} (hlow : 512 ≤ w.toNat) (hhigh : w.toNat ≤ 262656) :
    (w + 512 * 512 / w).toNat = w.toNat + 262144 / w.toNat ∧
      w.toNat + 262144 / w.toNat ≤ 262656 := by
  have hquotient : (512 * 512 / w : UInt32).toNat = 262144 / w.toNat := UInt32.toNat_div _ _
  have hbound : w.toNat + 262144 / w.toNat ≤ 262656 := by
    by_cases hlarge : 262144 < w.toNat
    · rw [Nat.div_eq_of_lt hlarge]
      exact hhigh
    · have hle : 262144 / w.toNat ≤ 262144 / 512 := Nat.div_le_div_left hlow (by decide)
      omega
  refine ⟨?_, hbound⟩
  rw [UInt32.toNat_add, hquotient]
  omega

theorem WindowBounds.toNat_slowStart (h : WindowBounds c) (hslow : c.cwnd < c.ssThresh) :
    (c.cwnd + 512).toNat = c.cwnd.toNat + 512 := by
  have hlt : c.cwnd.toNat < c.ssThresh.toNat := hslow
  have hthresh := h.thresh
  exact toNat_add_512 (by omega)

theorem WindowBounds.moves (h : WindowBounds c) {c' : Client}
    (hmoves : WindowMoves c.cwnd c.ssThresh c'.cwnd c'.ssThresh) : WindowBounds c' := by
  have hlow := h.low
  have hhigh := h.high
  have hmost := h.thresh
  cases hmoves with
  | keeps hcwnd hthresh => exact h.of_fields hcwnd hthresh
  | slowStart hslow hcwnd hthresh =>
      have hlt : c.cwnd.toNat < c.ssThresh.toNat := hslow
      have hgrown := h.toNat_slowStart hslow
      refine ⟨?_, ?_, hthresh ▸ hmost⟩
      · rw [hcwnd, hgrown]
        omega
      · rw [hcwnd, hgrown]
        omega
  | avoidance hcwnd hthresh =>
      obtain ⟨hgrown, hmax⟩ := toNat_add_quotient hlow hhigh
      refine ⟨?_, ?_, hthresh ▸ hmost⟩
      · rw [hcwnd, hgrown]
        exact hlow.trans (Nat.le_add_right _ _)
      · rw [hcwnd, hgrown]
        exact hmax
  | timeout hcwnd hthresh =>
      have hhalf : (c.cwnd / 2).toNat = c.cwnd.toNat / 2 := UInt32.toNat_div _ _
      refine ⟨?_, ?_, ?_⟩
      · rw [hcwnd]
        decide
      · rw [hcwnd]
        decide
      · rw [hthresh, hhalf]
        omega

theorem packets_avoidance {w : UInt32} (hlow : 512 ≤ w.toNat) (hhigh : w.toNat ≤ 262656) :
    w / 512 ≤ (w + 512 * 512 / w) / 512 ∧
      ((w + 512 * 512 / w) / 512 - w / 512).toNat =
        (w.toNat + 262144 / w.toNat) / 512 - w.toNat / 512 := by
  have hgrown := (toNat_add_quotient hlow hhigh).1
  have hnew : ((w + 512 * 512 / w) / 512).toNat = (w.toNat + 262144 / w.toNat) / 512 := by
    rw [UInt32.toNat_div, hgrown, show (512 : UInt32).toNat = 512 from rfl]
  have hold : (w / 512).toNat = w.toNat / 512 := UInt32.toNat_div _ _
  have hle : w / 512 ≤ (w + 512 * 512 / w) / 512 := by
    rw [UInt32.le_iff_toNat_le, hnew, hold]
    exact Nat.div_le_div_right (Nat.le_add_right _ _)
  refine ⟨hle, ?_⟩
  rw [UInt32.toNat_sub_of_le _ _ hle, hnew, hold]

theorem growWindow_gain (h : WindowBounds c) :
    ∃ (added : Nat) (gain : UInt32), added ≤ 512 ∧
      (growWindow c).cwnd.toNat = c.cwnd.toNat + added ∧
      (growWindow c).cwndSpace = c.cwndSpace + gain ∧
      gain.toNat = 1 + ((c.cwnd.toNat + added) / 512 - c.cwnd.toNat / 512) := by
  have hlow := h.low
  unfold growWindow
  by_cases hslow : c.cwnd < c.ssThresh
  · have hgrown := h.toNat_slowStart hslow
    rw [if_pos hslow]
    refine ⟨512, 2, le_refl _, hgrown, rfl, ?_⟩
    rw [show (2 : UInt32).toNat = 2 from rfl]
    omega
  · have hgrown := (toNat_add_quotient hlow h.high).1
    have hdiff := (packets_avoidance hlow h.high).2
    have hquotient : 262144 / c.cwnd.toNat ≤ 262144 / 512 := Nat.div_le_div_left hlow (by decide)
    generalize 262144 / c.cwnd.toNat = added at *
    rw [if_neg hslow]
    by_cases hpacket : 1 ≤ (c.cwnd + 512 * 512 / c.cwnd) / 512 - c.cwnd / 512
    · have hgain := UInt32.le_iff_toNat_le.mp hpacket
      rw [hdiff, UInt32.toNat_one] at hgain
      simp only [if_pos hpacket]
      refine ⟨added, 2, hquotient, hgrown, rfl, ?_⟩
      rw [show (2 : UInt32).toNat = 2 from rfl]
      omega
    · have hnone : ¬ 1 ≤ (c.cwnd.toNat + added) / 512 - c.cwnd.toNat / 512 := by
        rw [← hdiff]
        exact fun hgain => hpacket (UInt32.le_iff_toNat_le.mpr hgain)
      simp only [if_neg hpacket]
      refine ⟨added, 1, hquotient, hgrown, rfl, ?_⟩
      rw [UInt32.toNat_one]
      omega

/-- An expected acknowledgement frees a place in the log; the window grows by as many
packets as the credit gains beyond that place. -/
theorem growWindow_within (h : WindowBounds c)
    (hroom : c.cwndLogs.length + 1 + c.cwndSpace.toNat ≤ c.cwnd.toNat / 512) :
    WithinWindow (growWindow c) := by
  have hhigh := h.high
  obtain ⟨added, gain, hadded, hcwnd, hspace, hgain⟩ := growWindow_gain h
  obtain ⟨_, _, hgrow, -⟩ := growWindow_eq c
  have hlogs : (growWindow c).cwndLogs = c.cwndLogs := by rw [hgrow]
  have hsum : (c.cwndSpace + gain).toNat = c.cwndSpace.toNat + gain.toNat := by
    rw [UInt32.toNat_add]
    omega
  unfold WithinWindow
  rw [hlogs, hspace, hsum, hcwnd]
  omega

theorem onAck_within (h : WindowBounds c) (hwithin : WithinWindow c) (ack : UInt32) :
    WithinWindow (onAck c ack) := by
  unfold onAck
  cases herase : eraseThrough ack c.cwndLogs with
  | none => exact hwithin
  | some rest =>
      obtain ⟨before, hit, hsplit, -, -⟩ := eraseThrough_eq_some herase
      refine growWindow_within (c := { c with cwndLogs := rest }) (h.of_fields rfl rfl) ?_
      have hlength : c.cwndLogs.length = before.length + (rest.length + 1) := by simp [hsplit]
      unfold WithinWindow at hwithin
      simp only
      omega

/-! ## Sending -/

variable (file) in
theorem sendNext_credit (c : Client) :
    (sendNext file c).1.cwndLogs.length + (sendNext file c).1.cwndSpace.toNat =
      c.cwndLogs.length + c.cwndSpace.toNat := by
  unfold sendNext
  split_ifs with hcredit
  · obtain ⟨hpos, hspent⟩ := toNat_sub_one hcredit.1
    simp only [List.length_append, List.length_singleton, hspent]
    omega
  · rfl

variable (file) in
theorem sendNext_within (hwithin : WithinWindow c) : WithinWindow (sendNext file c).1 := by
  unfold WithinWindow at *
  rwa [sendNext_credit, (sendNext_window file c).1]

variable (file) in
/-- After a time-out the window is one packet, and everything logged before is still
logged. -/
theorem timeout_within_iff (hlogs : c.cwndLogs ≠ []) :
    WithinWindow (sendNext file (rewind c)).1 ↔ c.cwndLogs.length ≤ 1 := by
  obtain ⟨front, rest, hcons⟩ := List.exists_cons_of_ne_nil hlogs
  have hcredit : 0 < (rewind c).cwndSpace ∧ (rewind c).myfile.eof = false := by
    rw [rewind_cons hcons]
    exact ⟨(by decide : (0 : UInt32) < 1), rfl⟩
  have hspent : ((1 : UInt32) - 1).toNat = 0 := by decide
  have hwindow : (512 : UInt32).toNat / 512 = 1 := by decide
  unfold sendNext WithinWindow
  rw [if_pos hcredit, rewind_cons hcons]
  simp only [List.length_append, List.length_cons, List.length_nil, hcons, hspent, hwindow,
    Nat.add_zero]

/-! ## Every run -/

structure WindowOk (file : Buffer) (c : Client) : Prop where
  client : ClientOk file c
  bounds : WindowBounds c
  within : c.inTransfer → WithinWindow c

theorem WithinWindow.endIteration (h : WithinWindow c) : WithinWindow (endIteration c).1 := by
  obtain ⟨hlogs, hspace, hcwnd, -⟩ := endIteration_window c
  exact h.of_fields hlogs hspace hcwnd

theorem enterTransfer_within (hlogs : c.cwndLogs = [])
    (hin : (enterTransfer file c).inTransfer) : WithinWindow (enterTransfer file c) := by
  unfold enterTransfer at hin ⊢
  split_ifs at hin ⊢
  · exact absurd hin (by simp [Client.inTransfer])
  · have hspace : (c.cwnd / 512).toNat = c.cwnd.toNat / 512 := UInt32.toNat_div _ _
    unfold WithinWindow
    simp only [hlogs, hspace, List.length_nil]
    omega

theorem onSynReply_within (hphase : c.phase = .synWait) (hlogs : c.cwndLogs = [])
    (header : Header) (hin : (onSynReply file c header).inTransfer) :
    WithinWindow (onSynReply file c header) := by
  have hempty : (if c.cwnd < c.ssThresh then { c with cwnd := c.cwnd + 512 } else c).cwndLogs =
      [] := by
    split_ifs <;> exact hlogs
  unfold onSynReply at hin ⊢
  by_cases hreply : header.ack = 12346 ∨ header.flags = finFlag
  · rw [if_pos hreply] at hin ⊢
    dsimp only at hin ⊢
    by_cases hgreeted : header.flags = synAckFlag ∧ header.seq = 4321
    · rw [if_pos hgreeted] at hin ⊢
      exact enterTransfer_within hempty hin
    · rw [if_neg hgreeted] at hin
      exact absurd hin (by simp [Client.inTransfer])
  · rw [if_neg hreply] at hin
    exact absurd hin (by simp [Client.inTransfer, hphase])

/-- A step keeps to the window unless it is a time-out with several packets logged. -/
theorem WindowOk.step (h : WindowOk file c) {event : ClientEvent} {next : Client × List Buffer}
    (hstep : c.step file event = some next)
    (htimeout : event = .iterate true → c.cwndLogs.length ≤ 1) : WindowOk file next.1 := by
  refine ⟨h.client.step hstep, h.bounds.moves (windowMoves_of_step hstep), fun hin => ?_⟩
  by_cases hgreeting : c.phase = .synSend ∨ c.phase = .synWait
  · have hlogs := h.client.greeting hgreeting
    cases Client.greets_of_step hgreeting hstep with
    | sendSyn _ => exact absurd hin (by simp [Client.inTransfer])
    | giveUp _ => exact absurd hin (by simp [Client.inTransfer])
    | synTimeout _ => exact absurd hin (by simp [Client.inTransfer])
    | reply hphase => exact onSynReply_within hphase hlogs _ hin
  · cases Client.moves_of_step (not_or.mp hgreeting) hstep with
    | @iterate timeout hphase henabled =>
        cases timeout with
        | true =>
            have hfits := (timeout_within_iff file (henabled rfl)).mpr (htimeout rfl)
            exact hfits.of_fields rfl rfl rfl
        | false => exact (sendNext_within file (h.within (Or.inl hphase))).of_fields rfl rfl rfl
    | @ack bytes hphase =>
        exact (onAck_within h.bounds (h.within (Or.inr hphase)) _).endIteration
    | nothing hphase => exact (h.within (Or.inr hphase)).endIteration
    | giveUp _ => exact absurd hin (by simp [Client.inTransfer])
    | resendFin _ => exact h.within hin
    | finReply hphase =>
        unfold onFinReply at hin
        split_ifs at hin <;> exact absurd hin (by simp [Client.inTransfer, hphase])
    | timeWait hphase =>
        unfold onTimeWait at hin
        split_ifs at hin <;> exact absurd hin (by simp [Client.inTransfer, hphase])
    | timeUp _ => exact absurd hin (by simp [Client.inTransfer])

theorem timeout_of_within {next : Client × List Buffer}
    (hstep : c.step file (.iterate true) = some next)
    (hwithin : next.1.inTransfer → WithinWindow next.1) : c.cwndLogs.length ≤ 1 := by
  cases hphase : c.phase <;> simp only [Client.step, hphase, reduceCtorEq] at hstep
  by_cases hlogs : c.cwndLogs = []
  · simp [hlogs]
  · rw [if_neg (by simp [hlogs])] at hstep
    obtain rfl := Option.some.inj hstep
    rw [← timeout_within_iff file hlogs]
    exact (hwithin (Or.inr rfl)).of_fields rfl rfl rfl

/-- Whatever arrives and times out, the transfer loop keeps to its window exactly as long as
no time-out finds more than one packet outstanding. -/
theorem within_window_iff (file : Buffer) (events : List ClientEvent) :
    AlongRun (Client.next file) (fun _ _ c => c.inTransfer → WithinWindow c) Client.start events ↔
      AlongRun (Client.next file)
        (fun c event _ => event = .iterate true → c.cwndLogs.length ≤ 1) Client.start events := by
  refine alongRun_congr (I := WindowOk file) ?_ ?_ (fun _ _ => trivial) ?_
  · intro c event c' hc _ hstep htimeout
    obtain ⟨next, hnext, rfl⟩ := Option.map_eq_some_iff.mp hstep
    exact hc.step hnext htimeout
  · intro c event c' hc _ hstep
    obtain ⟨next, hnext, rfl⟩ := Option.map_eq_some_iff.mp hstep
    constructor
    · rintro hwithin rfl
      exact timeout_of_within hnext hwithin
    · exact fun htimeout => (hc.step hnext htimeout).within
  · exact ⟨clientOk_of_greeting (Or.inl rfl) rfl, ⟨by decide, by decide, by decide⟩,
      by simp [Client.start, Client.inTransfer]⟩

/-- Two packets are outstanding when the first times out: both stay logged in a window of
one. -/
theorem two_packets_in_window_of_one :
    ∃ c, Client.Reachable (List.replicate 1024 7) c ∧ c.inTransfer ∧
      c.cwndLogs.length = 2 ∧ c.cwndSpace = 0 ∧ c.cwnd = 512 ∧ ¬ WithinWindow c := by
  have hrun : (run (Client.next (List.replicate 1024 7)) Client.start
      [.sendSyn, .receive (datagram ⟨4321, 12346, 1, synAckFlag⟩ noData), .iterate false,
        .nothing, .iterate false, .nothing, .iterate true]).any
      (fun c => c.inTransfer ∧ c.cwndLogs.length = 2 ∧
        c.cwndSpace = 0 ∧ c.cwnd = 512 ∧ ¬ WithinWindow c) = true := by decide +kernel
  obtain ⟨c, hc, hstate⟩ := (Option.any_eq_true _ _).mp hrun
  exact ⟨c, reach_of_run (fun _ _ => trivial) hc, of_decide_eq_true hstate⟩

end Cs118.Confundo
