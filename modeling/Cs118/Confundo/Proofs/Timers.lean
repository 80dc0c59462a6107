import Cs118.Confundo.Proofs.Clocked
import Cs118.Confundo.Proofs.WindowArithmetic
/-!
# What the client's timers guarantee

The front of the log is the oldest packet, so the check on the front is a check on
all; the client gives up only after ten seconds without a datagram; and the resends
of `SYN` and `FIN` are bounded by the ten seconds and the time between two of them.
The datagrams that come in are arbitrary.
-/

namespace Cs118.Confundo.TimedClient

open Cs118.Lib.Bytes
open Cs118.Lib.Run
open Cs118.Lib.Simulation

inductive Passes (file : Buffer) (t : TimedClient) :
    TimedEvent → TimedClient × List Buffer → Prop
  | greetLate {now timer : TimePoint} (hphase : t.client.phase = .synSend)
      (hlate : 10 ≤ seconds (now - t.startTime)) :
      Passes file t (.greet now timer) (t.setPhase .failed, [])
  | greet {now timer : TimePoint} (hphase : t.client.phase = .synSend)
      (htime : seconds (now - t.startTime) < 10) :
      Passes file t (.greet now timer)
        ({ t.setPhase .synWait with timeOut := timer }, [synPacket t.client])
  | reply {bytes : Buffer} {now : TimePoint} (hphase : t.client.phase = .synWait) :
      Passes file t (.reply bytes now) (t.onSynReply file (readHeader bytes) now, [])
  | fired {now : TimePoint} (hphase : t.client.phase = .synWait)
      (hlate : 500 ≤ milliseconds (now - t.timeOut)) :
      Passes file t (.fire now) (t.setPhase .synSend, [])
  | ticks {now : TimePoint} (hphase : t.client.phase = .synWait) : Passes file t (.fire now) (t, [])
  | iterate {now sent : TimePoint} (hphase : t.client.phase = .loopTop) :
      Passes file t (.iterate now sent)
        ((sendNext file (if t.timedOut now then t.rewind else t) sent).1.setPhase .loopRecv,
          (sendNext file (if t.timedOut now then t.rewind else t) sent).2)
  | receive {bytes : Buffer} {now start send : TimePoint} (hphase : t.client.phase = .loopRecv) :
      Passes file t (.receive bytes now start send)
        ((t.onAck (readHeader bytes).ack now).endIteration start send)
  | transferLate {now start send : TimePoint} (hphase : t.client.phase = .loopRecv)
      (hlate : 10 ≤ seconds (now - t.timeoutCheck)) :
      Passes file t (.nothing now start send) (t.setPhase .failed, [])
  | nothing {now start send : TimePoint} (hphase : t.client.phase = .loopRecv) :
      Passes file t (.nothing now start send) (t.endIteration start send)
  | endingLate {now check sent : TimePoint} (hphase : t.client.phase = .finWait)
      (hlate : 10 ≤ seconds (now - t.startTime)) :
      Passes file t (.poll now check sent none) (t.setPhase .failed, [])
  | poll {now check sent : TimePoint} (hphase : t.client.phase = .finWait)
      (htime : seconds (now - t.startTime) < 10) :
      Passes file t (.poll now check sent none) (t.resendFin check sent)
  | finReply {now check sent received replied : TimePoint} {bytes : Buffer}
      (hphase : t.client.phase = .finWait) :
      Passes file t (.poll now check sent (some (bytes, received, replied)))
        (((t.resendFin check sent).1.onFinReply (readHeader bytes) received replied).1,
          (t.resendFin check sent).2 ++
            ((t.resendFin check sent).1.onFinReply (readHeader bytes) received replied).2)
  | timeUp {now : TimePoint} (hphase : t.client.phase = .timeWait) :
      Passes file t (.wait now none) (t.setPhase .closed, [])
  | waits {now : TimePoint} (hphase : t.client.phase = .timeWait) :
      Passes file t (.wait now none) (t, [])
  | timeWait {now : TimePoint} {bytes : Buffer} (hphase : t.client.phase = .timeWait) :
      Passes file t (.wait now (some bytes)) (t.onTimeWait (readHeader bytes))

variable {file : Buffer} {t t' : TimedClient} {event : TimedEvent}
  {next : TimedClient × List Buffer}

theorem passes_of_react (h : t.react file event = some next) : t.Passes file event next := by
  cases hphase : t.client.phase <;> cases event <;>
    simp only [react, hphase, reduceCtorEq] at h
  case synSend.greet =>
    split_ifs at h with hlate
    · obtain rfl := Option.some.inj h
      exact .greetLate hphase hlate
    · obtain rfl := Option.some.inj h
      exact .greet hphase (Nat.lt_of_not_le hlate)
  case synWait.reply =>
    obtain rfl := Option.some.inj h
    exact .reply hphase
  case synWait.fire =>
    split_ifs at h with hlate
    · obtain rfl := Option.some.inj h
      exact .fired hphase hlate
    · obtain rfl := Option.some.inj h
      exact .ticks hphase
  case loopTop.iterate =>
    obtain rfl := Option.some.inj h
    exact .iterate hphase
  case loopRecv.receive =>
    split_ifs at h
    obtain rfl := Option.some.inj h
    exact .receive hphase
  case loopRecv.nothing =>
    split_ifs at h with hlate
    · obtain rfl := Option.some.inj h
      exact .transferLate hphase hlate
    · obtain rfl := Option.some.inj h
      exact .nothing hphase
  case finWait.poll answer =>
    cases answer with
    | none =>
        simp only [if_true] at h
        split_ifs at h with hlate
        · obtain rfl := Option.some.inj h
          exact .endingLate hphase hlate
        · obtain rfl := Option.some.inj h
          exact .poll hphase (Nat.lt_of_not_le hlate)
    | some reply =>
        simp only [reduceCtorEq, if_false] at h
        split_ifs at h
        obtain rfl := Option.some.inj h
        exact .finReply hphase
  case timeWait.wait answer =>
    cases answer with
    | none =>
        simp only [if_true] at h
        split_ifs at h
        · obtain rfl := Option.some.inj h
          exact .timeUp hphase
        · obtain rfl := Option.some.inj h
          exact .waits hphase
    | some bytes =>
        simp only [reduceCtorEq, if_false] at h
        split_ifs at h
        obtain rfl := Option.some.inj h
        exact .timeWait hphase

/-! ## The times of the log -/

def Reachable (file : Buffer) (now : TimePoint) (t : TimedClient) : Prop :=
  Reach (fun t event => (t.step file event).map (·.1)) (fun _ => True) (start now) t

def readAt (t : TimedClient) (clock : TimePoint) : TimedClient := { t with clock := clock }

theorem Reachable.invariant {P : TimedClient → Prop} {now : TimePoint}
    (preserved : ∀ t event after, P t → (t.clock :: event.readings).IsChain (· ≤ ·) →
      t.Passes file event after → P (after.1.readAt (event.readings.getLastD t.clock)))
    (hstart : P (TimedClient.start now)) (h : Reachable file now t) : P t := by
  refine Reach.invariant (P := P) ?_ hstart h
  intro t event t' ht _ hstep
  obtain ⟨next, hnext, rfl⟩ := Option.map_eq_some_iff.mp hstep
  obtain ⟨hchain, after, hafter, rfl⟩ := step_eq_some hnext
  exact preserved t event after ht hchain (passes_of_react hafter)

/-- The packets of the log have been sent one after the other, none after `clock`. -/
structure InTurn (times : List TimePoint) (clock : TimePoint) : Prop where
  sorted : times.Pairwise (· ≤ ·)
  past : ∀ time ∈ times, time ≤ clock

theorem InTurn.mono {times : List TimePoint} {clock later : TimePoint} (h : InTurn times clock)
    (hlater : clock ≤ later) : InTurn times later :=
  ⟨h.sorted, fun time htime => (h.past time htime).trans hlater⟩

theorem InTurn.drop {times : List TimePoint} {clock : TimePoint} (h : InTurn times clock)
    (n : Nat) : InTurn (times.drop n) clock :=
  ⟨h.sorted.drop, fun time htime => h.past time (List.mem_of_mem_drop htime)⟩

theorem InTurn.push {times : List TimePoint} {clock sent : TimePoint} (h : InTurn times clock)
    (hsent : clock ≤ sent) : InTurn (times ++ [sent]) sent where
  sorted := by
    refine List.pairwise_append.mpr ⟨h.sorted, List.pairwise_singleton _ _, ?_⟩
    intro time htime last hlast
    obtain rfl := List.mem_singleton.mp hlast
    exact (h.past time htime).trans hsent
  past := by
    intro time htime
    rcases List.mem_append.mp htime with hold | hnew
    · exact (h.past time hold).trans hsent
    · exact (List.mem_singleton.mp hnew).le

theorem InTurn.sendNext {clock sent : TimePoint} (h : InTurn t.sendTimes clock)
    (hsent : clock ≤ sent) : InTurn (t.sendNext file sent).1.sendTimes sent := by
  unfold TimedClient.sendNext
  by_cases hcredit : 0 < t.client.cwndSpace ∧ t.client.myfile.eof = false
  · rw [dif_pos hcredit]
    exact h.push hsent
  · rw [dif_neg hcredit]
    exact h.mono hsent

theorem InTurn.rewind {clock : TimePoint} (h : InTurn t.sendTimes clock) (late : Bool) :
    InTurn (if late then t.rewind else t).sendTimes clock := by
  cases late with
  | true =>
      show InTurn t.sendTimes.tail clock
      rw [← List.drop_one]
      exact h.drop 1
  | false => exact h

theorem clock_le_last {clock : TimePoint} {readings : List TimePoint}
    (h : (clock :: readings).IsChain (· ≤ ·)) : clock ≤ readings.getLastD clock := by
  induction readings generalizing clock with
  | nil => exact le_rfl
  | cons now readings ih =>
      obtain ⟨hnow, hrest⟩ := List.isChain_cons_cons.mp h
      rw [List.getLastD_cons]
      exact hnow.trans (ih hrest)

theorem InTurn.passes (h : InTurn t.sendTimes t.clock)
    (hchain : (t.clock :: event.readings).IsChain (· ≤ ·))
    (hpasses : t.Passes file event next) :
    InTurn next.1.sendTimes (event.readings.getLastD t.clock) := by
  have hlast := clock_le_last hchain
  cases hpasses with
  | iterate _ =>
      simp only [TimedEvent.readings, List.isChain_cons_cons] at hchain
      exact (h.rewind _).sendNext (hchain.1.trans hchain.2.1)
  | receive _ => exact (h.drop _).mono hlast
  | reply _ =>
      unfold onSynReply
      split_ifs
      · exact h.mono hlast
      · exact h.mono hlast
  | poll _ _ | finReply _ =>
      unfold resendFin
      split_ifs
      · exact h.mono hlast
      · exact h.mono hlast
  | greetLate _ _ | greet _ _ | fired _ _ | ticks _ | transferLate _ _ | nothing _ => exact h.mono hlast
  | endingLate _ _ | timeUp _ | waits _ | timeWait _ => exact h.mono hlast

theorem inTurn_of_reachable {now : TimePoint} (h : Reachable file now t) :
    InTurn t.sendTimes t.clock := by
  refine Reachable.invariant (P := fun t => InTurn t.sendTimes t.clock) ?_ ?_ h
  · exact fun t event after ht hchain hpasses => ht.passes hchain hpasses
  · exact ⟨by simp [start], by simp [start]⟩

/-- The time-out check on the front of the log sees every packet that is late, since the
send times of the log are in order. -/
theorem timedOut_iff_exists {start : TimePoint} (h : Reachable file start t) (now : TimePoint) :
    t.sendTimes.Pairwise (· ≤ ·) ∧
      (t.timedOut now = true ↔ ∃ time ∈ t.sendTimes, 500 < milliseconds (now - time)) := by
  have hsorted := (inTurn_of_reachable h).sorted
  refine ⟨hsorted, ?_⟩
  unfold timedOut
  cases htimes : t.sendTimes with
  | nil => simp
  | cons front rest =>
      rw [htimes] at hsorted
      constructor
      · intro hlate
        exact ⟨front, by simp, by simpa using hlate⟩
      · rintro ⟨time, htime, hlate⟩
        have hfront : front ≤ time := by
          rcases List.mem_cons.mp htime with rfl | hrest
          · exact le_rfl
          · exact (List.pairwise_cons.mp hsorted).1 time hrest
        have holder : milliseconds (now - time) ≤ milliseconds (now - front) :=
          Nat.div_le_div_right (Nat.sub_le_sub_left hfront now)
        simpa using hlate.trans_le holder

/-- Two packets in 4 ms, and then nothing. -/
def silentRun : List TimedEvent :=
  [.greet 0 0, .reply (datagram ⟨4321, 12346, 1, synAckFlag⟩ noData) 1000000,
    .iterate 2000000 2000000, .nothing 3000000 3000000 3000000, .iterate 4000000 4000000]

theorem timedOut_silentRun :
    ∃ t, Reachable (List.replicate 600 7) 0 t ∧ t.sendTimes = [2000000, 4000000] ∧
      t.sendTimes.Pairwise (· ≤ ·) ∧ (t.timedOut 503000000 = true ↔
        ∃ time ∈ t.sendTimes, 500 < milliseconds (503000000 - time)) := by
  have hrun : (run (fun t event => (t.step (List.replicate 600 7) event).map (·.1)) (start 0)
      silentRun).any (fun t => t.sendTimes = [2000000, 4000000]) = true := by decide +kernel
  obtain ⟨t, ht, htimes⟩ := (Option.any_eq_true _ _).mp hrun
  have hreach : Reachable (List.replicate 600 7) 0 t := reach_of_run (fun _ _ => trivial) ht
  exact ⟨t, hreach, of_decide_eq_true htimes, timedOut_iff_exists hreach 503000000⟩

/-! ## Giving up -/

theorem ten_seconds {now since : Nat} (h : 10 ≤ seconds (now - since)) :
    since + 10000000000 ≤ now := by
  unfold seconds at h
  omega

theorem Passes.range (h : t.react file event = some next) (hrange : WindowRange t.client) :
    WindowRange next.1.client := by
  cases hreceived : event.received with
  | none =>
      rcases react_quiet h hreceived with ⟨hclient, -⟩ | ⟨e, -, hstep⟩
      · rwa [hclient]
      · exact hrange.step hstep
  | some bytes =>
      rcases react_receives h hreceived with ⟨out, hstep, -⟩ | ⟨fin, out, -, hstep, -⟩
      · exact hrange.step hstep
      · exact hrange.step hstep

structure Kept (t : TimedClient) : Prop where
  range : WindowRange t.client
  startPast : t.startTime ≤ t.clock
  -- the first iteration sends, so `timeout_check` is set before it is read
  first : t.client.phase = .loopTop → t.timerFlag = false →
    0 < t.client.cwndSpace ∧ t.client.myfile.eof = false
  checked : t.client.phase = .loopRecv → t.timerFlag = true
  sendPast : t.client.phase = .finWait → t.sendTime ≤ t.clock

/-- The client has been in contact with the server at the time `heard`, and the timer
that would make it give up has started no earlier. -/
structure Heard (heard : TimePoint) (t : TimedClient) : Prop where
  past : heard ≤ t.clock
  start : t.client.phase = .synSend ∨ t.client.phase = .synWait ∨ t.client.phase = .finWait →
    heard ≤ t.startTime
  check : t.client.inTransfer → t.timerFlag = true → heard ≤ t.timeoutCheck

variable (file) in
theorem sendNext_sends (sent : TimePoint)
    (h : 0 < t.client.cwndSpace ∧ t.client.myfile.eof = false) :
    (t.sendNext file sent).1.timerFlag = true ∧
      (t.sendNext file sent).1.timeoutCheck = if t.timerFlag then t.timeoutCheck else sent := by
  unfold sendNext
  rw [dif_pos h]
  exact ⟨rfl, rfl⟩

theorem sendNext_keeps (sent : TimePoint) :
    (t.sendNext file sent).1.startTime = t.startTime ∧
      (t.sendNext file sent).1.sendTime = t.sendTime ∧
      (t.sendNext file sent).1.clock = t.clock := by
  unfold sendNext
  split_ifs <;> exact ⟨rfl, rfl, rfl⟩

variable (file) in
theorem sendNext_of_flag (sent : TimePoint) (h : t.timerFlag = true) :
    (t.sendNext file sent).1.timerFlag = true ∧
      (t.sendNext file sent).1.timeoutCheck = t.timeoutCheck := by
  unfold sendNext
  by_cases hcredit : 0 < t.client.cwndSpace ∧ t.client.myfile.eof = false
  · rw [dif_pos hcredit]
    exact ⟨rfl, if_pos h⟩
  · rw [dif_neg hcredit]
    exact ⟨h, rfl⟩

variable (file) in
theorem Kept.iterate (h : Kept t) (hphase : t.client.phase = .loopTop) (now sent : TimePoint) :
    (sendNext file (if t.timedOut now then t.rewind else t) sent).1.timerFlag = true ∧
      (sendNext file (if t.timedOut now then t.rewind else t) sent).1.timeoutCheck =
        if t.timerFlag then t.timeoutCheck else sent := by
  have hready : (if t.timedOut now then t.rewind else t).timerFlag = t.timerFlag ∧
      (if t.timedOut now then t.rewind else t).timeoutCheck = t.timeoutCheck := by
    split_ifs <;> exact ⟨rfl, rfl⟩
  by_cases hflag : t.timerFlag = true
  · obtain ⟨hnext, hcheck⟩ := sendNext_of_flag file sent (hready.1.trans hflag)
    exact ⟨hnext, by rw [hcheck, hready.2, if_pos hflag]⟩
  · have hcredit : 0 < (if t.timedOut now then t.rewind else t).client.cwndSpace ∧
        (if t.timedOut now then t.rewind else t).client.myfile.eof = false := by
      by_cases hlate : t.timedOut now = true
      · obtain ⟨front, rest, hlogs⟩ := List.exists_cons_of_ne_nil (logged_of_timedOut hlate)
        rw [if_pos hlate]
        simp only [TimedClient.rewind, rewind_cons hlogs]
        exact ⟨(by decide : (0 : UInt32) < 1), trivial⟩
      · rw [if_neg hlate]
        exact h.first hphase (by simpa using hflag)
    obtain ⟨hnext, hcheck⟩ := sendNext_sends file sent hcredit
    exact ⟨hnext, by rw [hcheck, hready.1, hready.2]⟩

theorem kept_outside (hrange : WindowRange t.client) (hpast : t.startTime ≤ t.clock)
    (hphase : ¬ t.client.inTransfer) (hfin : t.client.phase ≠ .finWait) : Kept t where
  range := hrange
  startPast := hpast
  first := fun htop => absurd (Or.inl htop) hphase
  checked := fun hrecv => absurd (Or.inr hrecv) hphase
  sendPast := fun hwait => absurd hwait hfin

theorem entered_of_loopTop {c : Client} {header : Header} (hphase : c.phase = .synWait)
    (h : (Confundo.onSynReply file c header).phase = .loopTop) :
    (Confundo.onSynReply file c header).cwndSpace =
        (Confundo.onSynReply file c header).cwnd / 512 ∧
      (Confundo.onSynReply file c header).myfile.eof = false := by
  unfold Confundo.onSynReply at h ⊢
  unfold enterTransfer at h ⊢
  split_ifs at h ⊢ <;> simp_all [InFile.start]

variable (file) in
theorem phase_onSynReply {c : Client} (header : Header) (hphase : c.phase = .synWait) :
    (Confundo.onSynReply file c header).phase ≠ .loopRecv ∧
      (Confundo.onSynReply file c header).phase ≠ .finWait := by
  unfold Confundo.onSynReply enterTransfer
  split_ifs <;> simp [hphase]

theorem Kept.reply (h : Kept t) (hphase : t.client.phase = .synWait) {header : Header}
    {now : TimePoint} (hnow : t.clock ≤ now)
    (hrange : WindowRange (t.onSynReply file header now).client) :
    Kept ((t.onSynReply file header now).readAt now) := by
  unfold onSynReply at hrange ⊢
  split_ifs at hrange ⊢
  · obtain ⟨hrecv, hfin⟩ := phase_onSynReply file header hphase
    exact
      { range := hrange
        startPast := le_rfl
        first := by
          intro htop _
          obtain ⟨hcredit, heof⟩ := entered_of_loopTop hphase htop
          refine ⟨?_, heof⟩
          show 0 < (Confundo.onSynReply file t.client header).cwndSpace
          rw [hcredit]
          have hlow := hrange.low
          exact UInt32.lt_iff_toNat_lt.mpr (by
            rw [UInt32.toNat_div]
            exact Nat.div_pos hlow (by decide))
        checked := fun h => absurd h hrecv
        sendPast := fun h => absurd h hfin }
  · exact kept_outside hrange (h.startPast.trans hnow) (by simp [readAt, Client.inTransfer, hphase])
      (by simp [readAt, hphase])

theorem kept_endIteration {start send : TimePoint}
    (hrange : WindowRange (t.endIteration start send).1.client) (hflag : t.timerFlag = true)
    (hstart : t.startTime ≤ start) (hsend : start ≤ send) :
    Kept ((t.endIteration start send).1.readAt send) where
  range := hrange
  startPast := by
    show (if _ then start else t.startTime) ≤ send
    split_ifs
    · exact hsend
    · exact hstart.trans hsend
  first := fun _ hnot => absurd hnot (by simp [readAt, endIteration, hflag])
  checked := fun _ => hflag
  sendPast := by
    intro hfin
    have hleft : (Confundo.endIteration t.client).1.phase = .finWait := hfin
    show (if _ then send else t.sendTime) ≤ send
    rw [if_pos hleft]

theorem phase_onFinReply {c : Client} (header : Header) (hphase : c.phase = .finWait) :
    (Confundo.onFinReply c header).1.phase = .finWait ∨
      (Confundo.onFinReply c header).1.phase = .timeWait := by
  unfold Confundo.onFinReply
  split_ifs
  · exact Or.inr rfl
  · exact Or.inl hphase

theorem resendFin_keeps (check sent : TimePoint) :
    (t.resendFin check sent).1.client = t.client ∧
      ((t.resendFin check sent).1.sendTime = sent ∨
        (t.resendFin check sent).1.sendTime = t.sendTime) := by
  unfold resendFin
  split_ifs
  · exact ⟨rfl, Or.inl rfl⟩
  · exact ⟨rfl, Or.inr rfl⟩

theorem phase_onTimeWait {c : Client} (header : Header) (hphase : c.phase = .timeWait) :
    (Confundo.onTimeWait c header).1.phase = .timeWait := by
  unfold Confundo.onTimeWait
  split_ifs
  · exact hphase
  · exact hphase

theorem Kept.passes (h : Kept t) (hchain : (t.clock :: event.readings).IsChain (· ≤ ·))
    (hrange : WindowRange next.1.client) (hpasses : t.Passes file event next) :
    Kept (next.1.readAt (event.readings.getLastD t.clock)) := by
  have hlast := clock_le_last hchain
  have hpast := h.startPast.trans hlast
  cases hpasses with
  | greetLate _ _ | greet _ _ | fired _ _ | transferLate _ _ | endingLate _ _ | timeUp _ =>
      exact kept_outside hrange hpast (by simp [readAt, setPhase, Client.inTransfer])
        (by simp [readAt, setPhase])
  | ticks hphase | waits hphase =>
      exact kept_outside hrange hpast (by simp [readAt, Client.inTransfer, hphase])
        (by simp [readAt, hphase])
  | reply hphase => exact h.reply hphase hlast hrange
  | @iterate now sent hphase =>
      obtain ⟨hflag, -⟩ := h.iterate file hphase now sent
      have hready : (if t.timedOut now then t.rewind else t).startTime = t.startTime := by
        split_ifs <;> rfl
      refine ⟨hrange, ?_, by simp [readAt, setPhase], fun _ => hflag, by simp [readAt, setPhase]⟩
      show (sendNext file _ sent).1.startTime ≤ _
      rw [(sendNext_keeps sent).1, hready]
      exact hpast
  | receive hphase | nothing hphase =>
      simp only [TimedEvent.readings, List.isChain_cons_cons] at hchain
      exact kept_endIteration hrange (h.checked hphase)
        (h.startPast.trans (hchain.1.trans hchain.2.1)) hchain.2.2.1
  | @poll now check sent hphase htime =>
      have hsent := (h.sendPast hphase).trans hlast
      unfold resendFin at hrange ⊢
      split_ifs at hrange ⊢
      · exact ⟨hrange, hpast, by simp [readAt, hphase], by simp [readAt, hphase], fun _ => le_rfl⟩
      · exact ⟨hrange, hpast, by simp [readAt, hphase], by simp [readAt, hphase], fun _ => hsent⟩
  | @finReply now check sent received replied bytes hphase =>
      have hsent := (h.sendPast hphase).trans hlast
      simp only [TimedEvent.readings, List.isChain_cons_cons] at hchain
      obtain ⟨-, -, hcheck, hreceived, hreplied, -⟩ := hchain
      obtain ⟨hclient, hsend⟩ := resendFin_keeps (t := t) check sent
      have hout : ((t.resendFin check sent).1.onFinReply (readHeader bytes) received
          replied).1.client.phase = .finWait ∨
          ((t.resendFin check sent).1.onFinReply (readHeader bytes) received
            replied).1.client.phase = .timeWait := by
        refine phase_onFinReply (readHeader bytes) ?_
        rw [hclient]
        exact hphase
      refine ⟨hrange, ?_, ?_, ?_, fun _ => ?_⟩
      · show (if _ then replied else received) ≤ replied
        split_ifs
        · exact le_rfl
        · exact hreplied
      · rcases hout with hout | hout <;> simp [readAt, hout]
      · rcases hout with hout | hout <;> simp [readAt, hout]
      · show (t.resendFin check sent).1.sendTime ≤ replied
        rcases hsend with hsend | hsend <;> rw [hsend]
        · exact hreceived.trans hreplied
        · exact hsent
  | @timeWait now bytes hphase =>
      have hout := phase_onTimeWait (readHeader bytes) hphase
      exact kept_outside hrange hpast (by simp [readAt, onTimeWait, Client.inTransfer, hout])
        (by simp [readAt, onTimeWait, hout])

/-! ## Contact with the server -/

/-- The reading at which a datagram is taken as a sign of the server. -/
def heardAt : TimedEvent → Option TimePoint
  | .reply bytes now => if isExpected (readHeader bytes) then some now else none
  | .receive _ now _ _ => some now
  | .poll _ _ _ (some (_, received, _)) => some received
  | _ => none

theorem heard_outside {heard : TimePoint} (hpast : heard ≤ t.clock) (hphase : ¬ t.client.inTransfer)
    (hstart : t.client.phase ≠ .synSend ∧ t.client.phase ≠ .synWait ∧ t.client.phase ≠ .finWait) :
    Heard heard t where
  past := hpast
  start := by
    rintro (h | h | h)
    · exact absurd h hstart.1
    · exact absurd h hstart.2.1
    · exact absurd h hstart.2.2
  check := fun h _ => absurd h hphase

theorem heard_endIteration {heard start send : TimePoint} (hpast : heard ≤ start)
    (hsend : start ≤ send) (hcheck : heard ≤ t.timeoutCheck) :
    Heard heard ((t.endIteration start send).1.readAt send) where
  past := hpast.trans hsend
  start := by
    intro hphase
    show heard ≤ if _ then start else t.startTime
    have hends : (Confundo.endIteration t.client).1.phase = .finWait ∨
        (Confundo.endIteration t.client).1.phase = .loopTop := by
      unfold Confundo.endIteration
      split_ifs
      · exact Or.inl rfl
      · exact Or.inr rfl
    rcases hends with hends | hends
    · rw [if_pos hends]
      exact hpast
    · rcases hphase with h | h | h <;> exact absurd (hends.symm.trans h) (by decide)
  check := fun _ _ => hcheck

/-- The reply restarts the timer of the handshake, and the check is not set yet. -/
theorem heard_onSynReply {heard now : TimePoint} {h : Header} (hpast : heard ≤ now)
    (hold : Heard heard t ∨ isExpected h = true) :
    Heard heard ((t.onSynReply file h now).readAt now) := by
  unfold onSynReply
  split_ifs with hexpected
  · exact ⟨hpast, fun _ => hpast, fun _ hflag => absurd hflag (by simp [readAt])⟩
  · have hheard := hold.resolve_right hexpected
    exact ⟨hpast, hheard.start, hheard.check⟩

theorem heard_onFinReply {heard check sent received replied : TimePoint} {h : Header}
    (hphase : t.client.phase = .finWait) (hpast : heard ≤ received) (hreplied : received ≤ replied) :
    Heard heard
      (((t.resendFin check sent).1.onFinReply h received replied).1.readAt replied) where
  past := hpast.trans hreplied
  start := by
    intro _
    show heard ≤ if _ then replied else received
    split_ifs
    · exact hpast.trans hreplied
    · exact hpast
  check := by
    intro htransfer _
    have hout := phase_onFinReply (c := t.client) h hphase
    have hclient := (resendFin_keeps (t := t) check sent).1
    have hsame : ((t.resendFin check sent).1.onFinReply h received replied).1.client =
        (Confundo.onFinReply t.client h).1 := by
      rw [← hclient]
      rfl
    rw [readAt, Client.inTransfer, hsame] at htransfer
    rcases hout with hout | hout <;> simp [hout] at htransfer

/-- A sign of the server, now or before, holds the timers back. -/
theorem Kept.heard {heard : TimePoint} (hk : Kept t)
    (hchain : (t.clock :: event.readings).IsChain (· ≤ ·)) (hpasses : t.Passes file event next)
    (h : Heard heard t ∨ heardAt event = some heard) :
    Heard heard (next.1.readAt (event.readings.getLastD t.clock)) := by
  have hlast := clock_le_last hchain
  cases hpasses with
  | @receive bytes now start send hphase =>
      simp only [TimedEvent.readings, List.isChain_cons_cons] at hchain
      have hnow : heard ≤ now := by
        rcases h with h | h
        · exact h.past.trans hchain.1
        · exact (Option.some.inj h).ge
      exact heard_endIteration (hnow.trans hchain.2.1) hchain.2.2.1 hnow
  | @finReply now check sent received replied bytes hphase =>
      simp only [TimedEvent.readings, List.isChain_cons_cons] at hchain
      obtain ⟨hfirst, hcheck, hsent, hreceived, hreplied, -⟩ := hchain
      have hnow : heard ≤ received := by
        rcases h with h | h
        · exact h.past.trans (hfirst.trans (hcheck.trans (hsent.trans hreceived)))
        · exact (Option.some.inj h).ge
      exact heard_onFinReply hphase hnow hreplied
  | @reply bytes now hphase =>
      simp only [TimedEvent.readings, List.isChain_cons_cons] at hchain
      rcases h with hold | hat
      · exact heard_onSynReply (hold.past.trans hchain.1) (Or.inl hold)
      · rw [heardAt] at hat
        split_ifs at hat with hexpected
        exact heard_onSynReply (Option.some.inj hat).ge (Or.inr hexpected)
  | greetLate _ _ | transferLate _ _ | endingLate _ _ | timeUp _ =>
      have hold := h.resolve_right (by simp [heardAt])
      exact heard_outside (hold.past.trans hlast) (by simp [readAt, setPhase, Client.inTransfer])
        (by simp [readAt, setPhase])
  | greet hphase _ =>
      have hold := h.resolve_right (by simp [heardAt])
      exact ⟨hold.past.trans hlast, fun _ => hold.start (Or.inl hphase),
        fun htransfer => by simp [readAt, setPhase, Client.inTransfer] at htransfer⟩
  | fired hphase _ =>
      have hold := h.resolve_right (by simp [heardAt])
      exact ⟨hold.past.trans hlast, fun _ => hold.start (Or.inr (Or.inl hphase)),
        fun htransfer => by simp [readAt, setPhase, Client.inTransfer] at htransfer⟩
  | ticks _ | waits _ =>
      have hold := h.resolve_right (by simp [heardAt])
      exact ⟨hold.past.trans hlast, hold.start, hold.check⟩
  | @iterate now sent hphase =>
      have hold := h.resolve_right (by simp [heardAt])
      obtain ⟨-, hcheck⟩ := hk.iterate file hphase now sent
      refine ⟨hold.past.trans hlast, by simp [readAt, setPhase], fun _ _ => ?_⟩
      show heard ≤ (sendNext file _ sent).1.timeoutCheck
      rw [hcheck]
      split_ifs with hflag
      · exact hold.check (Or.inl hphase) hflag
      · exact hold.past.trans hlast
  | nothing hphase =>
      have hold := h.resolve_right (by simp [heardAt])
      simp only [TimedEvent.readings, List.isChain_cons_cons] at hchain
      exact heard_endIteration (hold.past.trans (hchain.1.trans hchain.2.1)) hchain.2.2.1
        (hold.check (Or.inr hphase) (hk.checked hphase))
  | @poll now check sent hphase _ =>
      have hold := h.resolve_right (by simp [heardAt])
      have hstart := hold.start (Or.inr (Or.inr hphase))
      unfold resendFin
      split_ifs
      · exact ⟨hold.past.trans hlast, fun _ => hstart, hold.check⟩
      · exact ⟨hold.past.trans hlast, fun _ => hstart, hold.check⟩
  | @timeWait now bytes hphase =>
      have hold := h.resolve_right (by simp [heardAt])
      have hout := phase_onTimeWait (readHeader bytes) hphase
      exact heard_outside (hold.past.trans hlast)
        (by simp [readAt, onTimeWait, Client.inTransfer, hout]) (by simp [readAt, onTimeWait, hout])

theorem kept_start (now : TimePoint) : Kept (start now) where
  range := by
    show WindowRange Client.start
    constructor <;> decide
  startPast := le_rfl
  first := by simp [start, Client.start]
  checked := by simp [start, Client.start]
  sendPast := by simp [start, Client.start]

theorem heard_start (now : TimePoint) : Heard now (start now) where
  past := le_rfl
  start := fun _ => le_rfl
  check := by simp [start, Client.start, Client.inTransfer]

theorem Kept.step (hk : Kept t) (h : (t.step file event).map (·.1) = some t') :
    Kept t' ∧ ∀ heard, Heard heard t ∨ heardAt event = some heard → Heard heard t' := by
  obtain ⟨next, hnext, rfl⟩ := Option.map_eq_some_iff.mp h
  obtain ⟨hchain, after, hafter, rfl⟩ := step_eq_some hnext
  have hpasses := passes_of_react hafter
  exact ⟨hk.passes hchain (Passes.range hafter hk.range) hpasses,
    fun heard hheard => hk.heard hchain hpasses hheard⟩

theorem Kept.run (hk : Kept t) {events : List TimedEvent}
    (h : run (fun t event => (t.step file event).map (·.1)) t events = some t') :
    Kept t' ∧ ∀ heard, (Heard heard t ∨ ∃ event ∈ events, heardAt event = some heard) →
      Heard heard t' := by
  induction events generalizing t with
  | nil =>
      obtain rfl : t = t' := by simpa using h
      exact ⟨hk, fun heard hheard => hheard.elim id (by simp)⟩
  | cons event events ih =>
      obtain ⟨u, hstep, hrest⟩ := run_cons_eq_some h
      obtain ⟨hu, hheardU⟩ := hk.step hstep
      obtain ⟨hlast, hheardLast⟩ := ih hu hrest
      refine ⟨hlast, fun heard hheard => hheardLast heard ?_⟩
      rcases hheard with hold | ⟨first, hmem, hfirst⟩
      · exact Or.inl (hheardU heard (Or.inl hold))
      · rcases List.mem_cons.mp hmem with rfl | hmem
        · exact Or.inl (hheardU heard (Or.inr hfirst))
        · exact Or.inr ⟨first, hmem, hfirst⟩

theorem Kept.late (hk : Kept t) (h : (t.step file event).map (·.1) = some t')
    (hreceived : event.received = none) (hfailed : t'.client.phase = .failed) {heard : TimePoint}
    (hheard : Heard heard t) :
    ∃ now, event.readings.head? = some now ∧ heard + 10000000000 ≤ now := by
  obtain ⟨next, hnext, rfl⟩ := Option.map_eq_some_iff.mp h
  obtain ⟨-, after, hafter, rfl⟩ := step_eq_some hnext
  have hafterFailed : after.1.client.phase = .failed := hfailed
  cases passes_of_react hafter with
  | greetLate hphase hlate =>
      exact ⟨_, rfl, (Nat.add_le_add_right (hheard.start (Or.inl hphase)) _).trans
        (ten_seconds hlate)⟩
  | transferLate hphase hlate =>
      exact ⟨_, rfl, (Nat.add_le_add_right
        (hheard.check (Or.inr hphase) (hk.checked hphase)) _).trans (ten_seconds hlate)⟩
  | endingLate hphase hlate =>
      exact ⟨_, rfl, (Nat.add_le_add_right (hheard.start (Or.inr (Or.inr hphase))) _).trans
        (ten_seconds hlate)⟩
  | reply _ | receive _ | finReply _ | timeWait _ => exact absurd hreceived (by simp [TimedEvent.received])
  | greet _ _ | fired _ _ | iterate _ | timeUp _ => exact absurd hafterFailed (by simp [setPhase])
  | ticks hphase | waits hphase => exact absurd (hphase.symm.trans hafterFailed) (by decide)
  | nothing hphase =>
      have hends : (Confundo.endIteration t.client).1.phase = .failed := hafterFailed
      unfold Confundo.endIteration at hends
      split_ifs at hends
  | @poll now check sent hphase _ =>
      rw [(resendFin_keeps check sent).1, hphase] at hafterFailed
      exact absurd hafterFailed (by decide)

/-- In every run `timeout_check` has been set when the transfer loop compares it, and the
client gives up only when ten seconds have passed since its start and since every datagram
it has taken as a sign of the server. -/
theorem gives_up_after_silence {now : TimePoint} {events : List TimedEvent}
    (hrun : run (fun t event => (t.step file event).map (·.1)) (start now) events = some t) :
    (t.client.phase = .loopRecv → t.timerFlag = true) ∧
      ∀ event t', (t.step file event).map (·.1) = some t' → event.received = none →
        t'.client.phase = .failed →
        ∃ last, event.readings.head? = some last ∧ now + 10000000000 ≤ last ∧
          ∀ e ∈ events, ∀ heard, heardAt e = some heard → heard + 10000000000 ≤ last := by
  obtain ⟨hk, hheard⟩ := (kept_start now).run hrun
  refine ⟨hk.checked, fun event t' hstep hreceived hfailed => ?_⟩
  obtain ⟨last, hlast, htime⟩ := hk.late hstep hreceived hfailed
    (hheard now (Or.inl (heard_start now)))
  refine ⟨last, hlast, htime, fun e he heard hat => ?_⟩
  obtain ⟨other, hother, htime⟩ := hk.late hstep hreceived hfailed (hheard heard (Or.inr ⟨e, he, hat⟩))
  obtain rfl := Option.some.inj (hlast.symm.trans hother)
  exact htime

theorem gives_up_silentRun :
    ∃ t t' : TimedClient, t.client.phase = .loopRecv ∧ t.timerFlag = true ∧
      t'.client.phase = .failed ∧
      ∃ last, (TimedEvent.nothing 10005000000 10005000000 10005000000).readings.head? = some last ∧
        0 + 10000000000 ≤ last ∧
        ∀ e ∈ silentRun, ∀ heard, heardAt e = some heard → heard + 10000000000 ≤ last := by
  have hrun : (run (fun t event => (t.step (List.replicate 600 7) event).map (·.1)) (start 0)
      silentRun).any (fun t => t.client.phase = .loopRecv ∧
        ((t.step (List.replicate 600 7) (.nothing 10005000000 10005000000 10005000000)).map
          (·.1)).any fun t' => t'.client.phase = .failed) = true := by decide +kernel
  obtain ⟨t, ht, hlast⟩ := (Option.any_eq_true _ _).mp hrun
  obtain ⟨hphase, hlast⟩ := of_decide_eq_true hlast
  obtain ⟨t', ht', hfailed⟩ := (Option.any_eq_true _ _).mp hlast
  obtain ⟨hchecked, hlate⟩ := gives_up_after_silence ht
  exact ⟨t, t', hphase, hchecked hphase, of_decide_eq_true hfailed,
    hlate _ t' ht' rfl (of_decide_eq_true hfailed)⟩

/-! ## Resends -/

def Unanswered : TimedEvent → Prop
  | .reply bytes _ => isExpected (readHeader bytes) = false
  | _ => True

/-- `n` times `SYN` has gone out, half a second between two of them. -/
inductive Greeted (t : TimedClient) (n : Nat) : Prop
  | send (hphase : t.client.phase = .synSend) (htime : t.startTime + 500000000 * n ≤ t.clock)
      (hn : n ≤ 20)
  | wait (hphase : t.client.phase = .synWait)
      (htime : t.startTime + 500000000 * n ≤ t.timeOut + 500000000) (hn : n ≤ 20)
  | failed (hphase : t.client.phase = .failed) (hn : n ≤ 20)

theorem another_syn {start clock now timer n : Nat} (htime : start + 500000000 * n ≤ clock)
    (hnow : clock ≤ now) (htimer : now ≤ timer) (hsoon : seconds (now - start) < 10) :
    start + 500000000 * (n + 1) ≤ timer + 500000000 ∧ n + 1 ≤ 20 := by
  unfold seconds at hsoon
  omega

theorem half_second {start now timer n : Nat}
    (htime : start + 500000000 * n ≤ timer + 500000000)
    (hlate : 500 ≤ milliseconds (now - timer)) : start + 500000000 * n ≤ now := by
  unfold milliseconds at hlate
  omega

theorem Greeted.step {n : Nat} (h : Greeted t n) (hquiet : Unanswered event)
    (hstep : t.step file event = some next) : Greeted next.1 (n + next.2.length) := by
  obtain ⟨hchain, after, hafter, rfl⟩ := step_eq_some hstep
  have hpasses := passes_of_react hafter
  cases h with
  | send hphase htime hn =>
      cases hpasses with
      | greetLate _ _ => exact .failed rfl hn
      | @greet now timer _ hsoon =>
          simp only [TimedEvent.readings, List.isChain_cons_cons] at hchain
          obtain ⟨hnow, htimer, -⟩ := hchain
          obtain ⟨htimer, hmore⟩ := another_syn htime hnow htimer hsoon
          exact .wait rfl htimer hmore
      | reply h | fired h _ | ticks h | iterate h | receive h | transferLate h _ | nothing h
      | endingLate h _ | poll h _ | finReply h | timeUp h | waits h | timeWait h =>
          exact absurd (hphase.symm.trans h) (by decide)
  | wait hphase htime hn =>
      cases hpasses with
      | @reply bytes now _ =>
          have hignored : t.onSynReply file (readHeader bytes) now = t := by
            unfold onSynReply
            rw [show isExpected (readHeader bytes) = false from hquiet]
            rfl
          rw [hignored]
          exact .wait hphase htime hn
      | @fired now _ hlate =>
          exact .send rfl (half_second htime hlate) hn
      | ticks _ => exact .wait hphase htime hn
      | greetLate h _ | greet h _ | iterate h | receive h | transferLate h _ | nothing h
      | endingLate h _ | poll h _ | finReply h | timeUp h | waits h | timeWait h =>
          exact absurd (hphase.symm.trans h) (by decide)
  | failed hphase hn =>
      cases hpasses with
      | greetLate h _ | greet h _ | reply h | fired h _ | ticks h | iterate h | receive h
      | transferLate h _ | nothing h | endingLate h _ | poll h _ | finReply h | timeUp h | waits h
      | timeWait h => exact absurd (hphase.symm.trans h) (by decide)

/-- A handshake without an answer is at most 20 `SYN`s. -/
theorem few_syns {now : TimePoint} {events : List TimedEvent} {sent : List Buffer}
    (hquiet : ∀ event ∈ events, Unanswered event)
    (h : emits (step file) (start now) events = some (t, sent)) : sent.length ≤ 20 := by
  have hstart : Greeted (start now) 0 := .send rfl le_rfl (by omega)
  have hlast := emits_invariant
    (fun _ _ _ _ hgreeted hevent hstep => hgreeted.step hevent hstep) hquiet hstart h
  rw [Nat.zero_add] at hlast
  cases hlast with
  | send _ _ hn => exact hn
  | wait _ _ hn => exact hn
  | failed _ hn => exact hn

def unansweredRun : List TimedEvent :=
  (List.range 20).flatMap (fun i =>
    [.greet (500000000 * i) (500000000 * i), .fire (500000000 * (i + 1))]) ++
    [.greet 10000000000 10000000000]

theorem few_syns_unansweredRun :
    ∃ last, emits (step []) (start 0) unansweredRun = some last ∧ last.2.length ≤ 20 := by
  have hrun : (emits (step []) (start 0) unansweredRun).isSome = true := by decide +kernel
  obtain ⟨last, hlast⟩ := Option.isSome_iff_exists.mp hrun
  refine ⟨last, hlast, few_syns ?_ hlast⟩
  intro event hevent
  simp only [unansweredRun, List.mem_append, List.mem_flatMap, List.mem_singleton] at hevent
  rcases hevent with ⟨i, -, hevent⟩ | rfl
  · rcases List.mem_pair.mp hevent with rfl | rfl <;> trivial
  · trivial

/-- `FIN` has gone out again `n` times, at least a second after the one before. -/
inductive Finishing (t : TimedClient) (n : Nat) : Prop
  | wait (hphase : t.client.phase = .finWait)
      (htime : t.startTime + 1000000000 * n ≤ t.sendTime) (hpast : t.sendTime ≤ t.clock)
      (hn : n ≤ 10)
  | failed (hphase : t.client.phase = .failed) (hn : n ≤ 10)

/-- The 0.5 seconds are compared with whole ones. -/
theorem another_fin {start send clock now check sent n : Nat}
    (htime : start + 1000000000 * n ≤ send) (hpast : send ≤ clock) (hnow : clock ≤ now)
    (hsoon : seconds (now - start) < 10) (hlate : 1 ≤ 2 * seconds (check - send))
    (hsent : check ≤ sent) : start + 1000000000 * (n + 1) ≤ sent ∧ n + 1 ≤ 10 := by
  unfold seconds at hsoon hlate
  omega

theorem Finishing.step {n : Nat} (h : Finishing t n) (hquiet : event.received = none)
    (hstep : t.step file event = some next) : Finishing next.1 (n + next.2.length) := by
  obtain ⟨hchain, after, hafter, rfl⟩ := step_eq_some hstep
  have hpasses := passes_of_react hafter
  cases h with
  | wait hphase htime hpast hn =>
      cases hpasses with
      | endingLate _ _ => exact .failed rfl hn
      | @poll now check sent _ hsoon =>
          have hlast : t.clock ≤ sent := clock_le_last hchain
          simp only [TimedEvent.readings, List.isChain_cons_cons] at hchain
          obtain ⟨hnow, hcheck, hsent, -⟩ := hchain
          show Finishing ((t.resendFin check sent).1.readAt sent) _
          unfold resendFin
          split_ifs with hlate
          · obtain ⟨htime, hmore⟩ := another_fin htime hpast hnow hsoon hlate hsent
            exact .wait hphase htime le_rfl hmore
          · exact .wait hphase htime (hpast.trans hlast) hn
      | finReply _ => exact absurd hquiet (by simp [TimedEvent.received])
      | greetLate h _ | greet h _ | reply h | fired h _ | ticks h | iterate h | receive h
      | transferLate h _ | nothing h | timeUp h | waits h | timeWait h =>
          exact absurd (hphase.symm.trans h) (by decide)
  | failed hphase hn =>
      cases hpasses with
      | greetLate h _ | greet h _ | reply h | fired h _ | ticks h | iterate h | receive h
      | transferLate h _ | nothing h | endingLate h _ | poll h _ | finReply h | timeUp h | waits h
      | timeWait h => exact absurd (hphase.symm.trans h) (by decide)

theorem finishing_endIteration {start send : TimePoint} (hsend : start ≤ send)
    (hphase : (t.endIteration start send).1.client.phase = .finWait) :
    Finishing ((t.endIteration start send).1.readAt send) 0 ∧
      (t.endIteration start send).2.length = 1 := by
  have hleft : (Confundo.endIteration t.client).1.phase = .finWait := hphase
  constructor
  · refine .wait hphase ?_ ?_ (by omega)
    · show (if _ then start else t.startTime) + 1000000000 * 0 ≤ if _ then send else t.sendTime
      rw [if_pos hleft, if_pos hleft]
      exact hsend
    · show (if _ then send else t.sendTime) ≤ send
      rw [if_pos hleft]
  · show (Confundo.endIteration t.client).2.length = 1
    unfold Confundo.endIteration at hleft ⊢
    split_ifs at hleft ⊢
    rfl

theorem finishing_of_left (htransfer : t.client.inTransfer)
    (hstep : t.step file event = some next) (hphase : next.1.client.phase = .finWait) :
    Finishing next.1 0 ∧ next.2.length = 1 := by
  obtain ⟨hchain, after, hafter, rfl⟩ := step_eq_some hstep
  cases passes_of_react hafter with
  | receive _ | nothing _ =>
      simp only [TimedEvent.readings, List.isChain_cons_cons] at hchain
      exact finishing_endIteration hchain.2.2.1 hphase
  | greetLate _ _ | greet _ _ | fired _ _ | iterate _ | transferLate _ _ | endingLate _ _
  | timeUp _ => exact absurd hphase (by simp [setPhase])
  | reply h | ticks h | poll h _ | finReply h | waits h | timeWait h =>
      exact absurd htransfer (by simp [Client.inTransfer, h])

/-- An `ending` in which nothing comes in is at most 11 `FIN`s. -/
theorem few_fins {events : List TimedEvent} {left last : TimedClient × List Buffer}
    (htransfer : t.client.inTransfer) (hleft : t.step file event = some left)
    (hphase : left.1.client.phase = .finWait)
    (hquiet : ∀ event ∈ events, event.received = none)
    (h : emits (step file) left.1 events = some last) : (left.2 ++ last.2).length ≤ 11 := by
  obtain ⟨hstart, hone⟩ := finishing_of_left htransfer hleft hphase
  have hlast := emits_invariant
    (fun _ _ _ _ hfinishing hevent hstep => hfinishing.step hevent hstep) hquiet hstart h
  rw [Nat.zero_add] at hlast
  rw [List.length_append, hone]
  cases hlast with
  | wait _ _ _ hn => omega
  | failed _ hn => omega

def beforeEnding : List TimedEvent :=
  [.greet 0 0, .reply (datagram ⟨4321, 12346, 1, synAckFlag⟩ noData) 1000000,
    .iterate 2000000 2000000]

def lastReceive : TimedEvent :=
  .receive (datagram ⟨4322, 12347, 1, ackFlag⟩ noData) 3000000 3000000 3000000

def silentEnding : List TimedEvent :=
  [.poll 1003000000 1003000000 1003000000 none, .poll 2003000000 2003000000 2003000000 none,
    .poll 10003000000 10003000000 10003000000 none]

theorem few_fins_silentEnding :
    ∃ t left last, run (fun t event => (t.step [7] event).map (·.1)) (start 0) beforeEnding =
        some t ∧ t.step [7] lastReceive = some left ∧
      emits (step [7]) left.1 silentEnding = some last ∧ (left.2 ++ last.2).length ≤ 11 := by
  have hrun : (run (fun t event => (t.step [7] event).map (·.1)) (start 0) beforeEnding).any
      (fun t => decide t.client.inTransfer && (t.step [7] lastReceive).any fun left =>
        decide (left.1.client.phase = .finWait) &&
          (emits (step [7]) left.1 silentEnding).isSome) = true := by decide +kernel
  obtain ⟨t, ht, hleft⟩ := (Option.any_eq_true _ _).mp hrun
  obtain ⟨htransfer, hleft⟩ := (Bool.and_eq_true _ _).mp hleft
  obtain ⟨left, hstep, hlast⟩ := (Option.any_eq_true _ _).mp hleft
  obtain ⟨hphase, hlast⟩ := (Bool.and_eq_true _ _).mp hlast
  obtain ⟨last, hlast⟩ := Option.isSome_iff_exists.mp hlast
  exact ⟨t, left, last, ht, hstep, hlast, few_fins (of_decide_eq_true htransfer) hstep
    (of_decide_eq_true hphase) (by simp [silentEnding, TimedEvent.received]) hlast⟩

end Cs118.Confundo.TimedClient
