import Cs118.Tcp.Proofs.Threads
/-!
# One connection of the server program

Where no `accept` comes too early, what the program does for one connection is a run of the
two-party transfer, and the connection's file holds what its handler has flushed.
-/

namespace Cs118.Tcp

open Cs118.Lib.Bytes
open Cs118.Lib.Run

/-! ## Writing at the end -/

theorem writeAt_end {content : Buffer} {pos : Nat} (h : content.length = pos) (data : Buffer) :
    writeAt content pos data = content ++ data := by
  unfold writeAt
  split_ifs with hdata
  · rw [hdata, List.append_nil]
  · subst h
    simp

theorem writeAt_take {file : Buffer} {flushed count : Nat} (h : flushed ≤ file.length) :
    writeAt (file.take flushed) flushed ((file.drop flushed).take count) =
      file.take (flushed + count) := by
  rw [writeAt_end (List.length_take_of_le h), List.take_add]

theorem writeAt_drop {file : Buffer} {flushed : Nat} (h : flushed ≤ file.length) :
    writeAt (file.take flushed) flushed (file.drop flushed) = file := by
  rw [writeAt_end (List.length_take_of_le h), List.take_append_drop]

/-! ## The view of a connection -/

def handlerOf : Option Thread → Handler
  | some (.serving _ _ _ h) => h
  | _ => Handler.start

def Service.transfer (s : Service) (i : Nat) : Transfer :=
  (s.peers (i + 1)).transfer (handlerOf s.threads[i]?)

/-- The file of a connection is there once its thread has opened it.  It holds what the
handler has flushed, which is everything when the handler has ended, and the socket has
been closed exactly if that was by a time-out. -/
def Filed (thread : Option Thread) (peer : Peer) (file : Option Buffer) : Prop :=
  match thread with
  | some (.serving _ _ flushed h) =>
    file = some (h.file.take flushed) ∧ flushed ≤ h.file.length ∧
      (h.status = .finished ∨ h.status = .timedOut → flushed = h.file.length) ∧
      (peer.isOpen = false ↔ h.status = .timedOut)
  | _ => file = none ∧ peer.taken = 0 ∧ peer.isOpen = true

def Service.FiledAt (s : Service) (i : Nat) : Prop :=
  Filed s.threads[i]? (s.peers (i + 1)) (s.files (i + 1))

structure Service.SameAt (i : Nat) (s s' : Service) : Prop where
  thread : s'.threads[i]? = s.threads[i]?
  peer : s'.peers (i + 1) = s.peers (i + 1)
  file : s'.files (i + 1) = s.files (i + 1)

inductive Service.Progress (i : Nat) (s : Service) : ServiceAction → Service → Prop
  | send {wait : Wait} {sent : Option Nat} {s' : Service}
      (h : (s.transfer i).step (.send wait sent) = some (s'.transfer i)) :
      Progress i s (.send (i + 1) wait sent) s'
  | recv {wait : Wait} {count : Option Nat} {s' : Service}
      (h : (s.transfer i).step (.recv wait count) = some (s'.transfer i)) :
      Progress i s (.iterate i wait count) s'
  | stays {action : ServiceAction} {s' : Service}
      (hsend : ∀ wait sent, action ≠ .send (i + 1) wait sent)
      (h : s'.transfer i = s.transfer i) : Progress i s action s'

section

variable {s s' : Service} {action : ServiceAction} {i : Nat}

theorem Service.SameAt.filedAt (h : Service.SameAt i s s') (hs : s.FiledAt i) : s'.FiledAt i := by
  unfold Service.FiledAt
  rw [h.thread, h.peer, h.file]
  exact hs

theorem Service.SameAt.transfer (h : Service.SameAt i s s') : s'.transfer i = s.transfer i := by
  unfold Service.transfer
  rw [h.thread, h.peer]

theorem Service.SameAt.step (h : Service.SameAt i s s') (hs : s.FiledAt i)
    (hsend : ∀ wait sent, action ≠ .send (i + 1) wait sent) :
    s'.FiledAt i ∧ Service.Progress i s action s' :=
  ⟨h.filedAt hs, .stays hsend h.transfer⟩

theorem sameAt_setThread {j : Nat} (hne : j ≠ i) (thread : Thread) :
    Service.SameAt i s (s.setThread j thread) :=
  ⟨List.getElem?_set_ne hne, rfl, rfl⟩

theorem Service.SameAt.trans {t : Service} (h : Service.SameAt i s t)
    (h' : Service.SameAt i t s') : Service.SameAt i s s' :=
  ⟨h'.thread.trans h.thread, h'.peer.trans h.peer, h'.file.trans h.file⟩

theorem sameAt_files {number : Nat} (hne : number ≠ i + 1) (file : Option Buffer) :
    Service.SameAt i s { s with files := Function.update s.files number file } :=
  ⟨rfl, rfl, Function.update_of_ne (Ne.symm hne) _ _⟩

theorem sameAt_peers {socket : Nat} (hne : socket ≠ i + 1) (peer : Peer) :
    Service.SameAt i s { s with peers := Function.update s.peers socket peer } :=
  ⟨rfl, Function.update_of_ne (Ne.symm hne) _ _, rfl⟩

theorem sameAt_settle {j : Nat} (hne : j ≠ i) (flushed : Nat) (h : Handler) :
    Service.SameAt i s (s.settle j (j + 1) (j + 1) flushed h) := by
  have hnumber : j + 1 ≠ i + 1 := by omega
  unfold Service.settle
  cases h.status with
  | receiving => exact sameAt_setThread hne _
  | finished => exact (sameAt_setThread hne _).trans (sameAt_files hnumber _)
  | timedOut =>
      exact (sameAt_setThread hne _).trans ((sameAt_peers hnumber _).trans (sameAt_files hnumber _))
  | failed _ => exact ⟨List.getElem?_set_ne hne, rfl, rfl⟩

/-! ## A handler's iteration -/

theorem Handler.step_file (h : Handler) (wait : Wait) (received : Option Buffer) :
    (h.step wait received).status = .timedOut ∨
      ∃ more, (h.step wait received).file = h.file ++ more := by
  unfold Handler.step
  cases select h.timeout wait with
  | failed => exact Or.inr ⟨[], by simp⟩
  | expired => exact Or.inl rfl
  | ready left =>
      right
      match received with
      | none => exact ⟨[], by simp⟩
      | some [] => exact ⟨[], by simp⟩
      | some (byte :: bytes) => exact ⟨byte :: bytes, rfl⟩

theorem filedAt_settle {flushed : Nat} {h h' : Handler} (hlt : i < s.threads.length)
    (hfile : s.files (i + 1) = some (h.file.take flushed)) (hflushed : flushed ≤ h.file.length)
    (hopen : (s.peers (i + 1)).isOpen = true)
    (hgrows : h'.status = .timedOut ∨ ∃ more, h'.file = h.file ++ more) :
    (s.settle i (i + 1) (i + 1) flushed h').FiledAt i := by
  have hprefix : h'.status ≠ .timedOut →
      h'.file.take flushed = h.file.take flushed ∧ flushed ≤ h'.file.length := by
    intro hgoes
    obtain ⟨more, hmore⟩ := hgrows.resolve_left hgoes
    rw [hmore, List.take_append_of_le_length hflushed, List.length_append]
    exact ⟨rfl, by omega⟩
  unfold Service.FiledAt Service.settle
  cases hstatus : h'.status with
  | receiving | failed _ =>
      obtain ⟨htake, hle⟩ := hprefix (by simp [hstatus])
      simp only [Service.setThread, List.getElem?_set_self hlt, Filed, hstatus, hopen, htake]
      exact ⟨hfile, hle, by simp, by simp⟩
  | finished =>
      obtain ⟨htake, hle⟩ := hprefix (by simp [hstatus])
      have hwritten := writeAt_drop hle
      rw [htake] at hwritten
      simp only [Service.setThread, Service.write, List.getElem?_set_self hlt, Filed, hstatus,
        Function.update_self, hfile, hopen, Option.map_some, hwritten, List.take_length]
      exact ⟨trivial, le_rfl, fun _ => trivial, by simp⟩
  | timedOut =>
      simp only [Service.setThread, List.getElem?_set_self hlt, Filed, hstatus,
        Function.update_self, List.take_length]
      exact ⟨trivial, le_rfl, fun _ => trivial, by simp⟩

/-! ## A step of the program -/

theorem transfer_of_thread {thread : Option Thread} (h : s.threads[i]? = thread) :
    s.transfer i = (s.peers (i + 1)).transfer (handlerOf thread) := by
  rw [Service.transfer, h]

theorem filedAt_of_thread {thread : Option Thread} (h : s.threads[i]? = thread) :
    s.FiledAt i ↔ Filed thread (s.peers (i + 1)) (s.files (i + 1)) := by
  rw [Service.FiledAt, h]

theorem step_send_transfer {p : Peer} {h : Handler} (h' : Handler) {wait : Wait}
    {sent : Option Nat} {t : Transfer} (hstep : (p.transfer h).step (.send wait sent) = some t) :
    (p.transfer h').step (.send wait sent) = some ⟨t.client, t.stream, p.taken, h'⟩ := by
  obtain ⟨hsending, hresult, rfl⟩ := step_send hstep
  simp only [Transfer.step]
  exact if_pos ⟨hsending, hresult⟩

theorem progress_send {k : Nat} {wait : Wait} {sent : Option Nat} {t : Transfer}
    (hs : s.FiledAt i)
    (hstep : ((s.peers k).transfer Handler.start).step (.send wait sent) = some t)
    (hs' : s' = { s with
      peers := Function.update s.peers k
        { s.peers k with client := t.client, stream := t.stream } }) :
    s'.FiledAt i ∧ Service.Progress i s (.send k wait sent) s' := by
  subst hs'
  by_cases hk : k = i + 1
  · subst hk
    have hnext := step_send_transfer (handlerOf s.threads[i]?) hstep
    unfold Service.FiledAt at hs ⊢
    simp only [Function.update_self]
    refine ⟨?_, .send ?_⟩
    · unfold Filed at hs ⊢
      exact hs
    · simpa [Service.transfer, Peer.transfer] using hnext
  · refine (sameAt_peers hk _).step hs ?_
    rintro wait' sent' heq
    exact hk (ServiceAction.send.inj heq).1

theorem progress_thread {j : Nat} {old new : Thread} (hs : s.FiledAt i)
    (hsend : ∀ wait sent, action ≠ .send (i + 1) wait sent)
    (hold : s.threads[j]? = some old) (hthreads : s'.threads = s.threads.set j new)
    (hpeers : s'.peers = s.peers) (hfile : j ≠ i → s'.files (i + 1) = s.files (i + 1))
    (hview : j = i → handlerOf (some new) = handlerOf (some old) ∧
      Filed (some new) (s.peers (i + 1)) (s'.files (i + 1))) :
    s'.FiledAt i ∧ Service.Progress i s action s' := by
  by_cases hj : j = i
  · subst hj
    have hlt := (List.getElem?_eq_some_iff.mp hold).1
    have hnew : s'.threads[j]? = some new := by rw [hthreads, List.getElem?_set_self hlt]
    obtain ⟨hhandler, hfiled⟩ := hview rfl
    refine ⟨?_, .stays hsend ?_⟩
    · rw [filedAt_of_thread hnew, hpeers]
      exact hfiled
    · rw [transfer_of_thread hnew, transfer_of_thread hold, hhandler, hpeers]
  · have hsame : Service.SameAt i s s' :=
      ⟨by rw [hthreads, List.getElem?_set_ne hj], by rw [hpeers], hfile hj⟩
    exact hsame.step hs hsend

theorem progress_iterate {flushed : Nat} {wait : Wait} {count : Option Nat} {h : Handler}
    {t : Transfer} (hs : s.FiledAt i)
    (hthread : s.threads[i]? = some (.serving (i + 1) (i + 1) flushed h))
    (hstep : ((s.peers (i + 1)).transfer h).step (.recv wait count) = some t) :
    ((s.setTaken (i + 1) t.taken).settle i (i + 1) (i + 1) flushed t.server).FiledAt i ∧
      Service.Progress i s (.iterate i wait count)
        ((s.setTaken (i + 1) t.taken).settle i (i + 1) (i + 1) flushed t.server) := by
  have hlt := (List.getElem?_eq_some_iff.mp hthread).1
  obtain ⟨hreceiving, -, hcases⟩ := step_recv hstep
  have hreceiving : h.status = .receiving := hreceiving
  rw [filedAt_of_thread hthread] at hs
  obtain ⟨hfile, hflushed, -, hclosed⟩ := hs
  have hopen : (s.peers (i + 1)).isOpen = true := by
    rw [← Bool.not_eq_false, hclosed, hreceiving]
    simp
  have hserver : ∃ received, t.server = h.step wait received := by
    rcases hcases with ⟨_, _, rfl⟩ | ⟨_, rfl⟩
    · exact ⟨_, rfl⟩
    · exact ⟨none, rfl⟩
  obtain ⟨received, hserver⟩ := hserver
  have hpeer : t.client = (s.peers (i + 1)).client ∧ t.stream = (s.peers (i + 1)).stream := by
    rcases hcases with ⟨_, _, rfl⟩ | ⟨_, rfl⟩ <;> exact ⟨rfl, rfl⟩
  constructor
  · refine filedAt_settle hlt hfile hflushed ?_ ?_
    · simpa [Service.setTaken] using hopen
    · rw [hserver]
      exact h.step_file wait received
  · refine .recv ?_
    rw [transfer_of_thread hthread]
    have hend : ((s.setTaken (i + 1) t.taken).settle i (i + 1) (i + 1) flushed t.server).transfer i =
        t := by
      obtain ⟨flushed', hthreads, hview⟩ : ∃ flushed',
          ((s.setTaken (i + 1) t.taken).settle i (i + 1) (i + 1) flushed t.server).threads =
              s.threads.set i (.serving (i + 1) (i + 1) flushed' t.server) ∧
            ∀ h', (((s.setTaken (i + 1) t.taken).settle i (i + 1) (i + 1) flushed
              t.server).peers (i + 1)).transfer h' =
                ⟨t.client, t.stream, t.taken, h'⟩ := by
        rw [hpeer.1, hpeer.2]
        unfold Service.settle
        cases t.server.status <;>
          exact ⟨_, rfl, fun h' => by simp [Service.setTaken, Service.setThread, Service.write,
            Peer.transfer]⟩
      rw [transfer_of_thread (by rw [hthreads, List.getElem?_set_self hlt]), hview]
      rfl
    rw [hend]
    exact hstep

/-- A step of the program is a step of the connection's transfer or none of its. -/
theorem Service.FiledAt.step (hs : s.FiledAt i) (howned : s.Owned)
    (hstep : s.step action = some s') : s'.FiledAt i ∧ Service.Progress i s action s' := by
  cases Service.moves_of_step hstep with
  | send ht => exact progress_send hs ht rfl
  | accept _ | fail => exact Service.SameAt.step ⟨rfl, rfl, rfl⟩ hs (by simp)
  | spawn _ =>
      rcases Nat.lt_trichotomy i s.threads.length with hlt | heq | hgt
      · exact Service.SameAt.step ⟨List.getElem?_append_left hlt, rfl, rfl⟩ hs (by simp)
      · -- the new thread: nothing has been read for its connection yet
        have hold : s.threads[i]? = none := List.getElem?_eq_none (by omega)
        have hnew : (s.threads ++ [Thread.created])[i]? = some .created := by
          subst heq
          exact List.getElem?_concat_length
        rw [filedAt_of_thread hold] at hs
        refine ⟨?_, .stays (by simp) ?_⟩
        · rw [filedAt_of_thread hnew]
          exact hs
        · rw [transfer_of_thread hnew, transfer_of_thread hold]
          rfl
      · have hold : s.threads[i]? = none := List.getElem?_eq_none (by omega)
        have hnew : (s.threads ++ [Thread.created])[i]? = none := by
          apply List.getElem?_eq_none
          rw [List.length_append, List.length_singleton]
          omega
        exact Service.SameAt.step ⟨hnew.trans hold.symm, rfl, rfl⟩ hs (by simp)
  | @sprintf j hthread =>
      refine progress_thread hs (by simp) hthread rfl rfl (fun _ => rfl) ?_
      rintro rfl
      exact ⟨rfl, (filedAt_of_thread hthread).mp hs⟩
  | @readParam j number hthread =>
      refine progress_thread hs (by simp) hthread rfl rfl (fun _ => rfl) ?_
      rintro rfl
      exact ⟨rfl, (filedAt_of_thread hthread).mp hs⟩
  | @fopen j number socket hthread =>
      obtain ⟨rfl, rfl⟩ := howned j _ hthread
      refine progress_thread hs (by simp) hthread rfl rfl
        (fun hj => Function.update_of_ne (by omega) _ _) ?_
      rintro rfl
      obtain ⟨-, -, hopen⟩ := (filedAt_of_thread hthread).mp hs
      exact ⟨rfl, by simp [Filed, Handler.start, hopen]⟩
  | @iterate j number socket flushed _ _ _ t hthread _ ht =>
      obtain ⟨rfl, rfl⟩ := howned j _ hthread
      by_cases hj : j = i
      · subst hj
        exact progress_iterate hs hthread ht
      · exact ((sameAt_peers (by omega) _).trans (sameAt_settle hj _ _)).step hs (by simp)
  | @flush j number socket flushed count h hthread _ hfits =>
      obtain ⟨rfl, rfl⟩ := howned j _ hthread
      refine progress_thread hs (by simp) hthread rfl rfl
        (fun hj => Function.update_of_ne (by omega) _ _) ?_
      rintro rfl
      obtain ⟨hfile, hflushed, hended, hclosed⟩ := (filedAt_of_thread hthread).mp hs
      refine ⟨rfl, ?_, hfits, fun hend => ?_, hclosed⟩
      · simp [Service.write, Service.setThread, hfile, writeAt_take hflushed]
      · have hall := hended hend
        omega

end

/-! ## Runs -/

section Runs

variable {source : Nat → Buffer} {timeout : Nat → Nat} {actions : List ServiceAction}
  {s s' : Service} {action : ServiceAction} {i : Nat}

theorem filedAt_start (source : Nat → Buffer) (timeout : Nat → Nat) (i : Nat) :
    (Service.start source timeout).FiledAt i := ⟨rfl, rfl, rfl⟩

/-- Each connection's part of the program has been reached by a transfer of its own. -/
structure Service.Separate (source : Nat → Buffer) (timeout : Nat → Nat) (s : Service) : Prop where
  counted : s.Counted
  owned : s.Owned
  filed : ∀ i, s.FiledAt i
  reached : ∀ i, Reach Transfer.step (fun _ => True)
    (Transfer.start (source (i + 1)) (timeout (i + 1))) (s.transfer i)

theorem Service.Separate.step (h : s.Separate source timeout) (hstep : s.step action = some s')
    (hread : s.AcceptsAfterRead action) : s'.Separate source timeout where
  counted := h.counted.step hstep
  owned := (owned_step h.counted hstep).mpr ⟨h.owned, hread⟩
  filed := fun i => ((h.filed i).step h.owned hstep).1
  reached := by
    intro i
    cases ((h.filed i).step h.owned hstep).2 with
    | send hsend => exact (h.reached i).tail trivial hsend
    | recv hrecv => exact (h.reached i).tail trivial hrecv
    | stays _ hsame =>
        rw [hsame]
        exact h.reached i

theorem separate_start (source : Nat → Buffer) (timeout : Nat → Nat) :
    (Service.start source timeout).Separate source timeout where
  counted := counted_start source timeout
  owned := fun i thread hthread => by simp [Service.start] at hthread
  filed := filedAt_start source timeout
  reached := fun i => .refl _

/-- In every run in which no `accept` comes too early, whatever the threads' order, each
connection is a transfer between its client and its handler alone, and its file holds what
this handler has flushed. -/
theorem connection_refines (hrun : run Service.step (Service.start source timeout) actions = some s)
    (hread : AlongRun Service.step (fun s action _ => s.AcceptsAfterRead action)
      (Service.start source timeout) actions) (i : Nat) :
    Reach Transfer.step (fun _ => True) (Transfer.start (source (i + 1)) (timeout (i + 1)))
        (s.transfer i) ∧ s.FiledAt i := by
  have h := AlongRun.invariant (P := Service.Separate source timeout)
    (fun _ _ _ hs hstep hread => hs.step hstep hread) (separate_start source timeout) hread hrun
  exact ⟨h.reached i, h.filed i⟩

def busyActions : List ServiceAction :=
  [.accept, .spawn, .sprintf 0, .readParam 0, .accept, .send 1 (.ready 0) (some 1), .fopen 0,
    .spawn, .iterate 0 (.ready 0) (some 1), .flush 0 1]

theorem connection_busyActions :
    ∃ s, run Service.step (Service.start (fun _ => [7]) fun _ => initialTimeout) busyActions =
        some s ∧
      Reach Transfer.step (fun _ => True) (Transfer.start [7] initialTimeout) (s.transfer 0) ∧
      s.FiledAt 0 := by
  have hsome : (run Service.step (Service.start (fun _ => [7]) fun _ => initialTimeout)
      busyActions).isSome = true := by decide +kernel
  have hread : AlongRun Service.step (fun s action _ => s.AcceptsAfterRead action)
      (Service.start (fun _ => [7]) fun _ => initialTimeout) busyActions := by decide +kernel
  obtain ⟨s, hs⟩ := Option.isSome_iff_exists.mp hsome
  exact ⟨s, hs, connection_refines hs hread 0⟩

/-! ## The file of a connection -/

def Service.TakesAll (i : Nat) (s : Service) (action : ServiceAction) : Prop :=
  ∀ wait sent, action = .send (i + 1) wait sent → (s.transfer i).TakesAll (.send wait sent)

structure Service.Tracked (source : Nat → Buffer) (i : Nat) (s : Service) : Prop where
  counted : s.Counted
  filed : s.Owned → s.FiledAt i
  ok : s.Owned → (s.transfer i).Ok (source (i + 1))

theorem Service.Progress.ok {file : Buffer} (h : Service.Progress i s action s')
    (hok : (s.transfer i).Ok file) : (s'.transfer i).Ok file := by
  cases h with
  | send hstep => exact hok.step hstep
  | recv hstep => exact hok.step hstep
  | stays _ hsame => rwa [hsame]

theorem Service.Progress.whole {file : Buffer} (h : Service.Progress i s action s')
    (hok : (s.transfer i).Ok file) :
    (s'.transfer i).Whole file ↔ (s.transfer i).Whole file ∧ s.TakesAll i action := by
  cases h with
  | @send wait sent _ hstep =>
      rw [whole_step hok hstep]
      refine and_congr_right fun _ => ⟨?_, fun h => h wait sent rfl⟩
      rintro h wait' sent' heq
      obtain ⟨-, rfl, rfl⟩ := ServiceAction.send.inj heq
      exact h
  | recv hstep =>
      rw [whole_recv hstep]
      exact (and_iff_left fun _ _ heq => absurd heq (by simp)).symm
  | stays hsend hsame =>
      rw [hsame]
      exact (and_iff_left fun wait sent heq => absurd heq (hsend wait sent)).symm

theorem Service.Tracked.step (h : s.Tracked source i) (hstep : s.step action = some s') :
    s'.Tracked source i := by
  refine ⟨h.counted.step hstep, fun howned => ?_, fun howned => ?_⟩
  · have hbefore := ((owned_step h.counted hstep).mp howned).1
    exact ((h.filed hbefore).step hbefore hstep).1
  · have hbefore := ((owned_step h.counted hstep).mp howned).1
    exact ((h.filed hbefore).step hbefore hstep).2.ok (h.ok hbefore)

theorem whole_of_step (h : s.Tracked source i) (hstep : s.step action = some s') :
    s'.Owned ∧ (s'.transfer i).Whole (source (i + 1)) ↔
      (s.Owned ∧ (s.transfer i).Whole (source (i + 1))) ∧
        s.AcceptsAfterRead action ∧ s.TakesAll i action := by
  rw [owned_step h.counted hstep]
  constructor
  · rintro ⟨⟨howned, hread⟩, hwhole⟩
    have hprogress := ((h.filed howned).step howned hstep).2
    have hboth := (hprogress.whole (h.ok howned)).mp hwhole
    exact ⟨⟨howned, hboth.1⟩, hread, hboth.2⟩
  · rintro ⟨⟨howned, hwhole⟩, hread, htakes⟩
    have hprogress := ((h.filed howned).step howned hstep).2
    exact ⟨⟨howned, hread⟩, (hprogress.whole (h.ok howned)).mpr ⟨hwhole, htakes⟩⟩

theorem file_of_finished (hs : s.FiledAt i) (hserver : (s.transfer i).server.status = .finished) :
    s.files (i + 1) = some (s.transfer i).server.file := by
  cases hthread : s.threads[i]? with
  | none =>
      rw [transfer_of_thread hthread] at hserver
      cases hserver
  | some thread =>
      rw [transfer_of_thread hthread] at hserver ⊢
      rw [filedAt_of_thread hthread] at hs
      cases thread with
      | created | named _ | connected _ _ => cases hserver
      | serving number socket flushed h =>
          obtain ⟨hfile, -, hended, -⟩ := hs
          rw [hfile, hended (Or.inl hserver), List.take_length]
          rfl

/-- With any number of clients: where no `accept` comes too early, and the client of a
connection and its handler have both ended well, the connection's file is the client's if
and only if every send of this client took all the bytes it was offered. -/
theorem file_served_iff (hrun : run Service.step (Service.start source timeout) actions = some s)
    (hread : AlongRun Service.step (fun s action _ => s.AcceptsAfterRead action)
      (Service.start source timeout) actions)
    (hclient : (s.transfer i).client.status = .succeeded)
    (hserver : (s.transfer i).server.status = .finished) :
    s.files (i + 1) = some (source (i + 1)) ↔
      AlongRun Service.step (fun s action _ => s.TakesAll i action)
        (Service.start source timeout) actions := by
  have hstart : (Service.start source timeout).Tracked source i :=
    ⟨counted_start source timeout, fun _ => filedAt_start source timeout i,
      fun _ => transferOk_start _⟩
  have htracked := run_invariant (fun _ _ _ h hstep => Service.Tracked.step h hstep) hstart hrun
  have howned := (owned_iff_alongRun hrun).mpr hread
  have hwhole := iff_alongRun
    (P := fun s => s.Owned ∧ (s.transfer i).Whole (source (i + 1)))
    (fun _ _ _ h _ hstep => Service.Tracked.step h hstep)
    (fun _ _ _ h _ hstep => whole_of_step h hstep) (fun _ _ => trivial) hstart hrun
  have hok := htracked.ok howned
  rw [alongRun_and] at hwhole
  calc s.files (i + 1) = some (source (i + 1))
      ↔ (s.transfer i).server.file = source (i + 1) := by
        rw [file_of_finished (htracked.filed howned) hserver, Option.some_inj]
    _ ↔ (s.transfer i).Whole (source (i + 1)) := file_eq_iff_whole hok hclient hserver
    _ ↔ s.Owned ∧ (s.transfer i).Whole (source (i + 1)) := (and_iff_right howned).symm
    _ ↔ _ := hwhole
    _ ↔ _ := and_iff_right ⟨(owned_iff_alongRun (run_nil _ _)).mpr trivial, Nat.zero_add _⟩
    _ ↔ _ := and_iff_right hread

/-- Two connections at once; the second client's file arrives first. -/
def patientActions : List ServiceAction :=
  [.accept, .spawn, .sprintf 0, .readParam 0, .accept, .spawn, .send 2 (.ready 0) (some 2),
    .sprintf 1, .send 1 (.ready 0) (some 1), .readParam 1, .fopen 1, .fopen 0,
    .send 2 (.ready 0) none, .iterate 1 (.ready 0) (some 1), .iterate 0 (.ready 0) (some 1),
    .flush 0 1, .iterate 1 (.ready 0) (some 1), .iterate 1 (.ready 0) (some 0)]

def twoFiles (k : Nat) : Buffer := if k = 1 then [7] else [8, 9]

theorem file_served_patientActions :
    ∃ s, run Service.step (Service.start twoFiles fun _ => initialTimeout) patientActions =
        some s ∧
      (s.files 2 = some (twoFiles 2) ↔
        AlongRun Service.step (fun s action _ => s.TakesAll 1 action)
          (Service.start twoFiles fun _ => initialTimeout) patientActions) := by
  have hfound : (run Service.step (Service.start twoFiles fun _ => initialTimeout)
      patientActions).any (fun s => (s.transfer 1).client.status = .succeeded ∧
        (s.transfer 1).server.status = .finished) = true := by decide +kernel
  have hread : AlongRun Service.step (fun s action _ => s.AcceptsAfterRead action)
      (Service.start twoFiles fun _ => initialTimeout) patientActions := by decide +kernel
  obtain ⟨s, hs, hended⟩ := (Option.any_eq_true _ _).mp hfound
  obtain ⟨hclient, hserver⟩ := of_decide_eq_true hended
  exact ⟨s, hs, file_served_iff hs hread hclient hserver⟩

end Runs

end Cs118.Tcp
