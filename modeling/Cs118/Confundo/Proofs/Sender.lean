import Cs118.Lib.Outstanding
import Cs118.Confundo.Proofs.Segments
/-!
# The sender's log follows its file position

What each part of the transfer loop does to the read offset, the sequence
number and `CWND_logs`, and that the three stay in step whatever arrives.
-/

namespace Cs118.Confundo

open Cs118.Lib.Bytes
open Cs118.Lib.Outstanding

/-- Stream, sequence number and log describe the same file.  Once the end of
the file has been hit the offset is its length. -/
structure InStep (file : Buffer) (c : Client) : Prop where
  boundary : Boundary file c.myfile.pos
  atEnd : c.myfile.eof = true → c.myfile.pos = file.length
  cut : c.myfile.eof = false → Cut file c.myfile.pos
  failEof : c.myfile.fail = c.myfile.eof
  seq : c.seqNum = seqAt c.myfile.pos
  logged : ∀ log ∈ c.cwndLogs, Logged file log

def spans (file : Buffer) (logs : List Logger) : List Span :=
  logs.map fun log => ⟨log.filePos, endOf file log.filePos⟩

@[simp] theorem spans_nil (file : Buffer) : spans file [] = [] := rfl

@[simp] theorem spans_cons (file : Buffer) (log : Logger) (logs : List Logger) :
    spans file (log :: logs) = ⟨log.filePos, endOf file log.filePos⟩ :: spans file logs := rfl

@[simp] theorem spans_append (file : Buffer) (logs more : List Logger) :
    spans file (logs ++ more) = spans file logs ++ spans file more := by
  simp [spans]

/-! ## Credit -/

section Credit

variable {n : UInt32}

theorem toNat_add_one (h : n.toNat < 2 ^ 32 - 1) : (n + 1).toNat = n.toNat + 1 := by
  rw [UInt32.toNat_add, UInt32.toNat_one]
  omega

theorem toNat_add_two (h : n.toNat < 2 ^ 32 - 2) : (n + 2).toNat = n.toNat + 2 := by
  rw [UInt32.toNat_add, show (2 : UInt32).toNat = 2 from rfl]
  omega

theorem toNat_sub_one (h : 0 < n) : 0 < n.toNat ∧ (n - 1).toNat = n.toNat - 1 := by
  have hone : (1 : UInt32) ≤ n := h
  exact ⟨h, by rw [UInt32.toNat_sub_of_le _ _ hone, UInt32.toNat_one]⟩

end Credit

/-! ## Sending -/

def afterSend (file : Buffer) (c : Client) : Client :=
  { c with
    ackNum := 0
    flags := 0
    seqNum := seqAt (endOf file c.myfile.pos)
    cwndLogs := c.cwndLogs ++ [entry file c.myfile.pos]
    cwndSpace := c.cwndSpace - 1
    myfile :=
      ⟨endOf file c.myfile.pos, decide ((chunk file c.myfile.pos).length < dataSize),
        decide ((chunk file c.myfile.pos).length < dataSize)⟩ }

def segmentOf (file : Buffer) (c : Client) : Buffer :=
  datagram ⟨seqAt c.myfile.pos, c.ackNum, c.idNum.toUInt16, c.flags⟩ (chunk file c.myfile.pos)

theorem sendNext_of_credit {file : Buffer} {c : Client} (h : InStep file c)
    (hspace : 0 < c.cwndSpace) (heof : c.myfile.eof = false) :
    sendNext file c = (afterSend file c, [segmentOf file c]) := by
  have hfail : c.myfile.fail = false := h.failEof.trans heof
  have hread : c.myfile.read file dataSize =
      (chunk file c.myfile.pos,
        ⟨endOf file c.myfile.pos, decide ((chunk file c.myfile.pos).length < dataSize),
          decide ((chunk file c.myfile.pos).length < dataSize)⟩) := by
    unfold InFile.read
    by_cases hshort : (getBytes file c.myfile.pos dataSize).length < dataSize
    · simp [chunk, endOf, hshort]
    · simp [chunk, endOf, hshort, heof, hfail]
  have hseq : (seqAt c.myfile.pos + UInt32.ofNat (chunk file c.myfile.pos).length) %
      UInt32.ofNat seqModulus = seqAt (endOf file c.myfile.pos) :=
    seqAt_add _ (length_chunk_le _ _)
  unfold sendNext
  rw [if_pos ⟨hspace, heof⟩, hread]
  simp only [h.seq, hseq, afterSend, segmentOf, entry]

theorem sendNext_of_no_credit {file : Buffer} {c : Client}
    (h : ¬ (0 < c.cwndSpace ∧ c.myfile.eof = false)) : sendNext file c = (c, []) := by
  unfold sendNext
  rw [if_neg h]

theorem InStep.afterSend {file : Buffer} {c : Client} (h : InStep file c)
    (heof : c.myfile.eof = false) : InStep file (afterSend file c) where
  boundary := (h.cut heof).boundary_endOf
  atEnd := by
    intro hshort
    have hlen := length_chunk file c.myfile.pos
    have hle := h.boundary.1
    simp only [Confundo.afterSend, decide_eq_true_eq] at hshort ⊢
    unfold endOf
    omega
  cut := by
    intro hfull
    have hlen := length_chunk file c.myfile.pos
    obtain ⟨hmod, hle⟩ := h.cut heof
    simp only [Confundo.afterSend, decide_eq_false_iff_not] at hfull ⊢
    refine ⟨?_, endOf_le hle⟩
    unfold endOf dataSize at *
    omega
  failEof := rfl
  seq := rfl
  logged := by
    intro log hlog
    simp only [Confundo.afterSend, List.mem_append, List.mem_singleton] at hlog
    rcases hlog with hlog | rfl
    · exact h.logged log hlog
    · exact ⟨h.cut heof, rfl⟩

/-! ## Time-outs -/

theorem rewind_cons {c : Client} {front : Logger} {rest : List Logger}
    (h : c.cwndLogs = front :: rest) :
    rewind c =
      { c with
        myfile := ⟨front.filePos, false, false⟩
        seqNum := front.seq
        cwndLogs := rest
        ssThresh := c.cwnd / 2
        cwnd := 512
        cwndSpace := 1 } := by
  unfold rewind
  rw [h]
  rfl

theorem InStep.rewind {file : Buffer} {c : Client} (h : InStep file c) :
    InStep file (rewind c) := by
  cases hlogs : c.cwndLogs with
  | nil =>
      unfold Confundo.rewind
      rw [hlogs]
      exact h
  | cons front rest =>
      rw [rewind_cons hlogs]
      obtain ⟨hcut, hfront⟩ := h.logged front (by simp [hlogs])
      exact
        { boundary := hcut.boundary
          atEnd := by simp
          cut := fun _ => hcut
          failEof := rfl
          seq := by rw [hfront]; rfl
          logged := fun log hlog => h.logged log (by simp [hlogs, hlog]) }

theorem sendNext_rewind {file : Buffer} {c : Client} (h : InStep file c)
    (hlogs : c.cwndLogs ≠ []) :
    sendNext file (rewind c) = (afterSend file (rewind c), [segmentOf file (rewind c)]) := by
  obtain ⟨front, rest, hcons⟩ := List.exists_cons_of_ne_nil hlogs
  apply sendNext_of_credit h.rewind
  · rw [rewind_cons hcons]
    exact (by decide : (0 : UInt32) < 1)
  · rw [rewind_cons hcons]

/-- A time-out resends the oldest segment: its entry moves to the back. -/
theorem afterSend_rewind {file : Buffer} {c : Client} {front : Logger} {rest : List Logger}
    (h : InStep file c) (hlogs : c.cwndLogs = front :: rest) :
    (afterSend file (rewind c)).cwndLogs = rest ++ [front] := by
  obtain ⟨-, hfront⟩ := h.logged front (by simp [hlogs])
  rw [rewind_cons hlogs]
  simp only [afterSend]
  rw [← hfront]

/-! ## Acknowledgements -/

theorem eraseThrough_eq_some {ack : UInt32} {logs rest : List Logger}
    (h : eraseThrough ack logs = some rest) :
    ∃ before hit, logs = before ++ hit :: rest ∧ hit.eAck = ack ∧
      ∀ log ∈ before, log.eAck ≠ ack := by
  induction logs with
  | nil => simp [eraseThrough] at h
  | cons log logs ih =>
      unfold eraseThrough at h
      split_ifs at h with hack
      · exact ⟨[], log, by simpa using h, hack, by simp⟩
      · obtain ⟨before, hit, hsplit, hhit, hfirst⟩ := ih h
        exact ⟨log :: before, hit, by simp [hsplit], hhit,
          List.forall_mem_cons.mpr ⟨hack, hfirst⟩⟩

theorem eraseThrough_eq_none {ack : UInt32} {logs : List Logger} :
    eraseThrough ack logs = none ↔ ∀ log ∈ logs, log.eAck ≠ ack := by
  induction logs with
  | nil => simp [eraseThrough]
  | cons log logs ih =>
      unfold eraseThrough
      split_ifs with hack
      · simp [hack]
      · simp [hack, ih]

theorem growWindow_eq (c : Client) :
    ∃ cwnd cwndSpace, growWindow c = { c with cwnd := cwnd, cwndSpace := cwndSpace } ∧
      (cwndSpace = c.cwndSpace + 1 ∨ cwndSpace = c.cwndSpace + 2) := by
  unfold growWindow
  split_ifs
  · exact ⟨_, _, rfl, Or.inr rfl⟩
  · simp only
    split_ifs
    · exact ⟨_, _, rfl, Or.inr rfl⟩
    · exact ⟨_, _, rfl, Or.inl rfl⟩

theorem onAck_cases (c : Client) (ack : UInt32) :
    (onAck c ack = c ∧ ∀ log ∈ c.cwndLogs, log.eAck ≠ ack) ∨
    ∃ before hit rest cwnd cwndSpace,
      c.cwndLogs = before ++ hit :: rest ∧ hit.eAck = ack ∧
      (cwndSpace = c.cwndSpace + 1 ∨ cwndSpace = c.cwndSpace + 2) ∧
      onAck c ack = { c with cwndLogs := rest, cwnd := cwnd, cwndSpace := cwndSpace } := by
  unfold onAck
  cases herase : eraseThrough ack c.cwndLogs with
  | none => exact Or.inl ⟨rfl, eraseThrough_eq_none.mp herase⟩
  | some rest =>
      right
      obtain ⟨before, hit, hsplit, hhit, -⟩ := eraseThrough_eq_some herase
      obtain ⟨cwnd, cwndSpace, hgrow, hspace⟩ := growWindow_eq { c with cwndLogs := rest }
      exact ⟨before, hit, rest, cwnd, cwndSpace, hsplit, hhit, hspace, hgrow⟩

theorem InStep.onAck {file : Buffer} {c : Client} (h : InStep file c) (ack : UInt32) :
    InStep file (onAck c ack) := by
  rcases onAck_cases c ack with ⟨hsame, -⟩ | ⟨before, hit, rest, _, _, hsplit, -, -, hack⟩
  · rwa [hsame]
  · rw [hack]
    exact
      { h with
        logged := fun log hlog => h.logged log (by simp [hsplit, hlog]) }

/-! ## The loop's exit -/

theorem endIteration_of_logged {c : Client} (h : c.cwndLogs ≠ []) :
    endIteration c = ({ c with phase := .loopTop }, []) :=
  if_neg fun hexit => h hexit.2

theorem InStep.tellg_eq_none {file : Buffer} {c : Client} (h : InStep file c) :
    c.myfile.tellg = none ↔ c.myfile.eof = true := by
  unfold InFile.tellg
  rw [← h.failEof]
  split_ifs with hfail <;> simp [hfail]

theorem InStep.of_fields {file : Buffer} {c c' : Client} (h : InStep file c)
    (hfile : c'.myfile = c.myfile) (hseq : c'.seqNum = c.seqNum)
    (hlogs : c'.cwndLogs = c.cwndLogs) : InStep file c' where
  boundary := hfile ▸ h.boundary
  atEnd := hfile ▸ h.atEnd
  cut := hfile ▸ h.cut
  failEof := hfile ▸ h.failEof
  seq := by rw [hseq, hfile, h.seq]
  logged := hlogs ▸ h.logged

end Cs118.Confundo
