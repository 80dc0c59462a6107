import Cs118.Tcp.Transfer
/-!
# Bytes that `send` does not take

The client reads the next part of the file whatever `send` has taken of the last one.  So
the stream is the file without the bytes that were read and not taken.
-/

namespace Cs118.Tcp

open Cs118.Lib.Bytes
open Cs118.Lib.Run

def Transfer.TakesAll (s : Transfer) (action : Action) : Prop :=
  ∀ wait count left, action = .send wait (some count) →
    select s.client.timeout wait = .ready left → (s.client.rest.take bufSize).length ≤ count

/-- No byte of the file has been read and not taken. -/
def Transfer.Whole (file : Buffer) (s : Transfer) : Prop :=
  s.stream.length + s.client.rest.length = file.length

structure Transfer.Ok (file : Buffer) (s : Transfer) : Prop where
  sublist : (s.stream ++ s.client.rest).Sublist file
  taken : s.taken ≤ s.stream.length
  received : s.server.status = .receiving ∨ s.server.status = .finished →
    s.server.file = s.stream.take s.taken
  finished : s.server.status = .finished →
    s.taken = s.stream.length ∧ s.client.status ≠ .sending
  succeeded : s.client.status = .succeeded → s.client.rest = []

section

variable {file : Buffer} {s t : Transfer}

theorem transferOk_start (timeout : Nat) : (Transfer.start file timeout).Ok file where
  sublist := List.Sublist.refl _
  taken := Nat.le_refl 0
  received _ := rfl
  finished h := absurd h (by simp [Transfer.start, Handler.start])
  succeeded h := absurd h (by simp [Transfer.start, Client.start])

/-! ## The client's iterations -/

/-- What an iteration of the client does: it fails, or it ends at the end of the file, or
`count` bytes of the next part are taken. -/
theorem Client.step_cases (c : Client) (wait : Wait) (sent : Option Nat) :
    (∃ timeout status, status ≠ .succeeded ∧
      (sent = none ∨ ∀ left, select c.timeout wait ≠ .ready left) ∧
      c.step wait sent = ({ c with timeout := timeout, status := status }, [])) ∨
    (∃ timeout, c.rest = [] ∧
      c.step wait sent = ({ c with timeout := timeout, status := .succeeded }, [])) ∨
    ∃ left count, sent = some count ∧ c.rest ≠ [] ∧ select c.timeout wait = .ready left ∧
      c.step wait sent = ({ c with timeout := left, rest := c.rest.drop bufSize },
        (c.rest.take bufSize).take count) := by
  unfold Client.step
  cases hselect : select c.timeout wait with
  | failed => exact Or.inl ⟨_, _, by simp, Or.inr (by simp), rfl⟩
  | expired => exact Or.inl ⟨_, _, by simp, Or.inr (by simp), rfl⟩
  | ready left =>
      dsimp only
      by_cases hend : c.rest.take bufSize = []
      · have hrest : c.rest = [] := by
          rcases List.take_eq_nil_iff.mp hend with hzero | hnil
          · exact absurd hzero (by decide)
          · exact hnil
        rw [if_pos hend]
        exact Or.inr (Or.inl ⟨left, hrest, rfl⟩)
      · have hrest : c.rest ≠ [] := fun hnil => hend (by rw [hnil]; rfl)
        rw [if_neg hend]
        cases sent with
        | none => exact Or.inl ⟨_, _, by simp, Or.inl rfl, rfl⟩
        | some count => exact Or.inr (Or.inr ⟨left, count, rfl, hrest, rfl, rfl⟩)

theorem step_send {wait : Wait} {sent : Option Nat} (h : s.step (.send wait sent) = some t) :
    s.client.status = .sending ∧
      (s.client.rest ≠ [] → ∀ count ∈ sent, SendResult (s.client.rest.take bufSize).length count) ∧
      t = { s with
        client := (s.client.step wait sent).1, stream := s.stream ++ (s.client.step wait sent).2 } := by
  simp only [Transfer.step] at h
  split at h
  · rename_i hguard
    exact ⟨hguard.1, hguard.2, (Option.some.inj h).symm⟩
  · simp at h

theorem take_append_drop_sublist (rest : Buffer) (count : Nat) :
    ((rest.take bufSize).take count ++ rest.drop bufSize).Sublist rest := by
  calc ((rest.take bufSize).take count ++ rest.drop bufSize).Sublist
        (rest.take bufSize ++ rest.drop bufSize) :=
        (List.take_sublist count _).append_right _
    _ = rest := List.take_append_drop bufSize rest

theorem Transfer.Ok.send (h : s.Ok file) {wait : Wait} {sent : Option Nat}
    (hstep : s.step (.send wait sent) = some t) : t.Ok file := by
  obtain ⟨hsending, -, rfl⟩ := step_send hstep
  have hnotFinished : s.server.status ≠ .finished := fun hfinished =>
    (h.finished hfinished).2 hsending
  have hreceived (more : Buffer) (hstatus : s.server.status = .receiving ∨
      s.server.status = .finished) : s.server.file = (s.stream ++ more).take s.taken := by
    rw [h.received hstatus, List.take_append_of_le_length h.taken]
  rcases s.client.step_cases wait sent with ⟨_, status, hsucceeded, -, heq⟩ | ⟨_, hend, heq⟩ |
    ⟨_, count, rfl, -, -, heq⟩
  · rw [heq]
    refine ⟨by simpa using h.sublist, by simpa using h.taken, hreceived [], ?_, ?_⟩
    · exact fun hfinished => absurd hfinished hnotFinished
    · exact fun hstatus => absurd hstatus hsucceeded
  · rw [heq]
    refine ⟨by simpa using h.sublist, by simpa using h.taken, hreceived [], ?_, fun _ => hend⟩
    exact fun hfinished => absurd hfinished hnotFinished
  · rw [heq]
    refine ⟨?_, ?_, hreceived _, ?_, ?_⟩
    · dsimp only
      rw [List.append_assoc]
      exact ((take_append_drop_sublist s.client.rest count).append_left _).trans h.sublist
    · dsimp only
      rw [List.length_append]
      exact h.taken.trans (Nat.le_add_right _ _)
    · exact fun hfinished => absurd hfinished hnotFinished
    · intro hstatus
      dsimp only at hstatus
      rw [hsending] at hstatus
      exact absurd hstatus (by simp)

/-- A byte is lost exactly by a `send` that does not take all. -/
theorem whole_send (h : s.Ok file) {wait : Wait} {sent : Option Nat}
    (hstep : s.step (.send wait sent) = some t) :
    t.Whole file ↔ s.Whole file ∧ s.TakesAll (.send wait sent) := by
  obtain ⟨-, hresult, rfl⟩ := step_send hstep
  have hlength := h.sublist.length_le
  rw [List.length_append] at hlength
  unfold Transfer.Whole Transfer.TakesAll
  rcases s.client.step_cases wait sent with ⟨_, _, -, hnone, heq⟩ | ⟨_, hend, heq⟩ |
    ⟨left, count, rfl, hrest, hselect, heq⟩
  · rw [heq]
    dsimp only
    rw [List.append_nil]
    refine (and_iff_left ?_).symm
    rintro wait' count left haction hselect
    obtain ⟨rfl, rfl⟩ := Action.send.inj haction
    rcases hnone with hnone | hnone
    · exact absurd hnone (by simp)
    · exact absurd hselect (hnone left)
  · rw [heq]
    dsimp only
    rw [List.append_nil]
    refine (and_iff_left ?_).symm
    rintro _ count _ - -
    rw [hend]
    exact Nat.zero_le count
  · rw [heq]
    dsimp only
    obtain ⟨hmin, hmax⟩ := hresult hrest count rfl
    have htaken : ((s.client.rest.take bufSize).take count).length = count := by
      rw [List.length_take]
      omega
    have hread : (s.client.rest.take bufSize).length + (s.client.rest.drop bufSize).length =
        s.client.rest.length := by
      rw [← List.length_append, List.take_append_drop]
    rw [List.length_append, htaken]
    constructor
    · intro hwhole
      refine ⟨by omega, ?_⟩
      rintro wait' count' left' haction -
      obtain ⟨-, hcount⟩ := Action.send.inj haction
      rw [← Option.some.inj hcount]
      omega
    · rintro ⟨hwhole, hall⟩
      have hle := hall wait count left rfl hselect
      omega

/-! ## The server's iterations -/

theorem step_recv {wait : Wait} {count : Option Nat} (h : s.step (.recv wait count) = some t) :
    s.server.status = .receiving ∧ (∀ n ∈ count, RecvResult s n) ∧
      ((∃ left, select s.server.timeout wait = .ready left ∧
          t = { s with
            taken := s.taken + count.getD 0
            server := s.server.step wait (count.map s.inFlight.take) }) ∨
        (∀ left, select s.server.timeout wait ≠ .ready left) ∧
          t = { s with server := s.server.step wait none }) := by
  simp only [Transfer.step] at h
  split at h
  · rename_i hguard
    refine ⟨hguard.1, hguard.2, ?_⟩
    cases hselect : select s.server.timeout wait with
    | failed =>
        rw [hselect] at h
        exact Or.inr ⟨by simp, (Option.some.inj h).symm⟩
    | expired =>
        rw [hselect] at h
        exact Or.inr ⟨by simp, (Option.some.inj h).symm⟩
    | ready left =>
        rw [hselect] at h
        exact Or.inl ⟨left, rfl, (Option.some.inj h).symm⟩
  · simp at h

theorem whole_recv {wait : Wait} {count : Option Nat}
    (hstep : s.step (.recv wait count) = some t) : t.Whole file ↔ s.Whole file := by
  obtain ⟨-, -, ⟨_, -, rfl⟩ | ⟨-, rfl⟩⟩ := step_recv hstep <;> exact Iff.rfl

theorem Handler.step_not_ready {h : Handler} {wait : Wait} (received : Option Buffer)
    (hnot : ∀ left, select h.timeout wait ≠ .ready left) :
    (h.step wait received).status ≠ .receiving ∧ (h.step wait received).status ≠ .finished := by
  unfold Handler.step
  cases hselect : select h.timeout wait with
  | failed => simp
  | expired => simp
  | ready left => exact absurd hselect (hnot left)

theorem Handler.step_ready {h : Handler} {wait : Wait} {left : Nat}
    (hready : select h.timeout wait = .ready left) (received : Option Buffer) :
    h.step wait received =
      match received with
      | none => { h with timeout := left, status := .failed "ERROR: Receive data failed\n" }
      | some [] => { h with timeout := left, status := .finished }
      | some bytes => { h with timeout := left, file := h.file ++ bytes } := by
  rcases received with _ | _ | _ <;> simp only [Handler.step, hready]

theorem Transfer.Ok.recv (h : s.Ok file) {wait : Wait} {count : Option Nat}
    (hstep : s.step (.recv wait count) = some t) : t.Ok file := by
  obtain ⟨hreceiving, hresult, ⟨left, hready, rfl⟩ | ⟨hnot, rfl⟩⟩ := step_recv hstep
  · cases count with
    | none =>
        rw [Option.map_none, Option.getD_none, Nat.add_zero, Handler.step_ready hready]
        exact ⟨h.sublist, h.taken, by simp, by simp, h.succeeded⟩
    | some n =>
        obtain ⟨-, hfits, hend⟩ := hresult n rfl
        have htaken : s.taken + n ≤ s.stream.length := by
          have hfits' := hfits
          rw [Transfer.inFlight, List.length_drop] at hfits'
          have hle := h.taken
          omega
        have hfile : s.server.file ++ s.inFlight.take n = s.stream.take (s.taken + n) := by
          rw [h.received (Or.inl hreceiving), Transfer.inFlight, List.take_add]
        rw [Option.map_some, Option.getD_some, Handler.step_ready hready]
        cases hbytes : s.inFlight.take n with
        | nil =>
            have hzero : n = 0 := by
              have hlength := congrArg List.length hbytes
              rw [List.length_take, List.length_nil] at hlength
              omega
            obtain ⟨hempty, hclosed⟩ := hend hzero
            have hall : s.taken + n = s.stream.length := by
              have hrest := congrArg List.length hempty
              rw [Transfer.inFlight, List.length_drop, List.length_nil] at hrest
              omega
            rw [hbytes, List.append_nil] at hfile
            exact ⟨h.sublist, htaken, fun _ => hfile, fun _ => ⟨hall, hclosed⟩, h.succeeded⟩
        | cons first others =>
            rw [hbytes] at hfile
            refine ⟨h.sublist, htaken, fun _ => hfile, fun hfinished => ?_, h.succeeded⟩
            dsimp only at hfinished
            rw [hreceiving] at hfinished
            exact absurd hfinished (by simp)
  · obtain ⟨hnotReceiving, hnotFinished⟩ := Handler.step_not_ready none hnot
    refine ⟨h.sublist, h.taken, ?_, fun hfinished => absurd hfinished hnotFinished, h.succeeded⟩
    rintro (hreceiving' | hfinished)
    · exact absurd hreceiving' hnotReceiving
    · exact absurd hfinished hnotFinished

/-! ## Runs -/

theorem Transfer.Ok.step (h : s.Ok file) {action : Action} (hstep : s.step action = some t) :
    t.Ok file := by
  cases action with
  | send wait sent => exact h.send hstep
  | recv wait count => exact h.recv hstep

theorem whole_step (h : s.Ok file) {action : Action} (hstep : s.step action = some t) :
    t.Whole file ↔ s.Whole file ∧ s.TakesAll action := by
  cases action with
  | send wait sent => exact whole_send h hstep
  | recv wait count =>
      rw [whole_recv hstep]
      exact (and_iff_left fun _ _ _ haction => absurd haction (by simp)).symm

theorem file_eq_iff_whole (h : s.Ok file) (hclient : s.client.status = .succeeded)
    (hserver : s.server.status = .finished) : s.server.file = file ↔ s.Whole file := by
  have hrest := h.succeeded hclient
  have hfile : s.server.file = s.stream := by
    rw [h.received (Or.inr hserver), (h.finished hserver).1, List.take_length]
  have hsublist := h.sublist
  rw [hrest, List.append_nil] at hsublist
  rw [hfile, Transfer.Whole, hrest, List.length_nil, Nat.add_zero]
  exact ⟨fun heq => by rw [heq], hsublist.eq_of_length⟩

end

/-- A transfer that ends well on both sides delivers the file exactly when every `send`
has taken all the bytes that it was offered. -/
theorem file_transferred_iff (file : Buffer) (timeout : Nat) {actions : List Action}
    {s : Transfer} (hrun : run Transfer.step (Transfer.start file timeout) actions = some s)
    (hclient : s.client.status = .succeeded) (hserver : s.server.status = .finished) :
    s.server.file = file ↔
      AlongRun Transfer.step (fun s action _ => s.TakesAll action) (Transfer.start file timeout)
        actions := by
  have hok := run_invariant (fun _ _ _ h hstep => Transfer.Ok.step h hstep)
    (transferOk_start timeout) hrun
  have hwhole := iff_alongRun (P := Transfer.Whole file)
    (fun _ _ _ h _ hstep => Transfer.Ok.step h hstep)
    (fun _ _ _ h _ hstep => whole_step h hstep) (fun _ _ => trivial)
    (transferOk_start timeout) hrun
  have hstart : (Transfer.start file timeout).Whole file := Nat.zero_add _
  rw [file_eq_iff_whole hok hclient hserver, hwhole, and_iff_right hstart]

def twoByteRun (count : Nat) : List Action :=
  [.send (.ready 0) (some count), .send (.ready 0) none, .recv (.ready 0) (some count),
    .recv (.ready 0) (some 0)]

def twoByteEnd (count : Nat) : Transfer :=
  ⟨⟨[], initialTimeout, .succeeded⟩, [7, 8].take count, count,
    ⟨initialTimeout, [7, 8].take count, .finished⟩⟩

theorem file_transferred_two_bytes :
    (twoByteEnd 2).server.file = [7, 8] ↔
      AlongRun Transfer.step (fun s action _ => s.TakesAll action)
        (Transfer.start [7, 8] initialTimeout) (twoByteRun 2) :=
  file_transferred_iff [7, 8] initialTimeout (s := twoByteEnd 2) (by decide +kernel) rfl rfl

/-- One byte is taken, and the transfer ends well without the other. -/
theorem byte_lost_by_partial_send :
    run Transfer.step (Transfer.start [7, 8] initialTimeout) (twoByteRun 1) =
        some (twoByteEnd 1) ∧
      (twoByteEnd 1).client.status = .succeeded ∧ (twoByteEnd 1).server.status = .finished ∧
      (twoByteEnd 1).server.file ≠ [7, 8] := by
  refine ⟨?_, ?_, ?_, ?_⟩ <;> decide +kernel

end Cs118.Tcp
