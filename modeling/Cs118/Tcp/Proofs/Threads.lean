import Cs118.Tcp.Service
import Cs118.Tcp.Proofs.PartialSends
/-!
# The threads of the server program

A handler serves the connection it was started for exactly if the accept loop lets it read
`connection_num` and its parameter before the next `accept` returns.  Where the loop always
does, the program is as many two-party transfers as there are connections, each with a
file of its own.
-/

namespace Cs118.Tcp

open Cs118.Lib.Bytes
open Cs118.Lib.Run

/-! ## What a step does -/

inductive Service.Moves (s : Service) : ServiceAction → Service → Prop
  | send {k : Nat} {wait : Wait} {sent : Option Nat} {t : Transfer}
      (h : ((s.peers k).transfer Handler.start).step (.send wait sent) = some t) :
      Moves s (.send k wait sent)
        { s with
          peers := Function.update s.peers k
            { s.peers k with client := t.client, stream := t.stream } }
  | accept (h : s.accepted = false) :
      Moves s .accept { s with clientSockfd := s.threads.length + 1, accepted := true }
  | spawn (h : s.accepted = true) :
      Moves s .spawn
        { s with
          connectionNum := s.connectionNum + 1
          accepted := false
          threads := s.threads ++ [.created] }
  | fail : Moves s .fail { s with exited := true }
  | sprintf {i : Nat} (h : s.threads[i]? = some .created) :
      Moves s (.sprintf i) (s.setThread i (.named s.connectionNum))
  | readParam {i number : Nat} (h : s.threads[i]? = some (.named number)) :
      Moves s (.readParam i) (s.setThread i (.connected number s.clientSockfd))
  | fopen {i number socket : Nat} (h : s.threads[i]? = some (.connected number socket)) :
      Moves s (.fopen i)
        { s.setThread i (.serving number socket 0 Handler.start) with
          files := Function.update s.files number (some []) }
  | iterate {i number socket flushed : Nat} {wait : Wait} {count : Option Nat} {h : Handler}
      {t : Transfer} (hthread : s.threads[i]? = some (.serving number socket flushed h))
      (hopen : (s.peers socket).isOpen = true ∨ wait = .error)
      (hstep : ((s.peers socket).transfer h).step (.recv wait count) = some t) :
      Moves s (.iterate i wait count)
        ((s.setTaken socket t.taken).settle i number socket flushed t.server)
  | flush {i number socket flushed count : Nat} {h : Handler}
      (hthread : s.threads[i]? = some (.serving number socket flushed h)) (hcount : 0 < count)
      (hfits : flushed + count ≤ h.file.length) :
      Moves s (.flush i count)
        ((s.setThread i (.serving number socket (flushed + count) h)).write number flushed
          ((h.file.drop flushed).take count))

section

variable {s s' : Service} {action : ServiceAction}

theorem Service.moves_of_step (h : s.step action = some s') : s.Moves action s' := by
  unfold Service.step at h
  split_ifs at h
  cases action with
  | send k wait sent =>
      obtain ⟨t, ht, rfl⟩ := Option.map_eq_some_iff.mp h
      exact .send ht
  | accept =>
      simp only [Service.perform] at h
      split_ifs at h with haccepted
      obtain rfl := Option.some.inj h
      exact .accept (by simpa using haccepted)
  | spawn =>
      simp only [Service.perform] at h
      split_ifs at h with haccepted
      obtain rfl := Option.some.inj h
      exact .spawn haccepted
  | fail =>
      obtain rfl := Option.some.inj h
      exact .fail
  | sprintf i =>
      simp only [Service.perform] at h
      split at h
      · next hthread =>
          obtain rfl := Option.some.inj h
          exact .sprintf hthread
      · cases h
  | readParam i =>
      simp only [Service.perform] at h
      split at h
      · next hthread =>
          obtain rfl := Option.some.inj h
          exact .readParam hthread
      · cases h
  | fopen i =>
      simp only [Service.perform] at h
      split at h
      · next hthread =>
          obtain rfl := Option.some.inj h
          exact .fopen hthread
      · cases h
  | iterate i wait count =>
      simp only [Service.perform] at h
      split at h
      · next hthread =>
          split_ifs at h with hopen
          obtain ⟨t, ht, rfl⟩ := Option.map_eq_some_iff.mp h
          exact .iterate hthread hopen ht
      · cases h
  | flush i count =>
      simp only [Service.perform] at h
      split at h
      · next hthread =>
          split_ifs at h with hcount
          obtain rfl := Option.some.inj h
          exact .flush hthread hcount.1 hcount.2
      · cases h

theorem Service.settle_keeps (s : Service) (i number socket flushed : Nat) (h : Handler) :
    (s.settle i number socket flushed h).connectionNum = s.connectionNum ∧
      (s.settle i number socket flushed h).clientSockfd = s.clientSockfd ∧
      (s.settle i number socket flushed h).accepted = s.accepted ∧
      ∃ flushed', (s.settle i number socket flushed h).threads =
        s.threads.set i (.serving number socket flushed' h) := by
  unfold Service.settle
  cases h.status <;> exact ⟨rfl, rfl, rfl, _, rfl⟩

/-! ## Whose connection a thread serves -/

/-- What a thread has read of the two variables, or would read now, belongs to connection
`k`. -/
def Thread.Owns (k connectionNum clientSockfd : Nat) : Thread → Prop
  | .created => connectionNum = k ∧ clientSockfd = k
  | .named number => number = k ∧ clientSockfd = k
  | .connected number socket => number = k ∧ socket = k
  | .serving number socket _ _ => number = k ∧ socket = k

def Thread.HasRead : Thread → Prop
  | .created => False
  | .named _ => False
  | _ => True

instance : DecidablePred Thread.HasRead
  | .created | .named _ => isFalse id
  | .connected _ _ | .serving _ _ _ _ => isTrue trivial

def Service.OwnsAt (s : Service) (i : Nat) : Prop :=
  ∀ thread : Thread, s.threads[i]? = some thread →
    thread.Owns (i + 1) s.connectionNum s.clientSockfd

def Service.Owned (s : Service) : Prop :=
  ∀ i, s.OwnsAt i

def Service.AcceptsAfterRead (s : Service) (action : ServiceAction) : Prop :=
  action = .accept → ∀ thread ∈ s.threads, thread.HasRead

instance (s : Service) (action : ServiceAction) : Decidable (s.AcceptsAfterRead action) :=
  inferInstanceAs (Decidable (_ → _))

structure Service.Counted (s : Service) : Prop where
  connectionNum : s.connectionNum = s.threads.length
  clientSockfd : s.clientSockfd = s.threads.length + if s.accepted then 1 else 0

theorem Service.Counted.step (h : s.Counted) (hstep : s.step action = some s') : s'.Counted := by
  have hsame : ∀ {t : Service} {i : Nat} {thread : Thread},
      t.connectionNum = s.connectionNum ∧ t.clientSockfd = s.clientSockfd ∧
        t.accepted = s.accepted → t.threads = s.threads.set i thread → t.Counted := by
    rintro t i thread ⟨hnum, hsock, haccepted⟩ hthreads
    have hlength : t.threads.length = s.threads.length := by rw [hthreads, List.length_set]
    exact ⟨by rw [hnum, hlength, h.connectionNum],
      by rw [hsock, hlength, haccepted, h.clientSockfd]⟩
  cases Service.moves_of_step hstep with
  | send _ | fail => exact ⟨h.connectionNum, h.clientSockfd⟩
  | accept _ => exact ⟨h.connectionNum, rfl⟩
  | spawn haccepted =>
      have hsock := h.clientSockfd
      rw [haccepted] at hsock
      refine ⟨?_, ?_⟩
      · simp [h.connectionNum]
      · simpa using hsock
  | sprintf _ | readParam _ | fopen _ | flush _ _ _ => exact hsame ⟨rfl, rfl, rfl⟩ rfl
  | @iterate i number socket flushed _ _ _ t _ _ _ =>
      obtain ⟨hnum, hsock, haccepted, _, hthreads⟩ :=
        (s.setTaken socket t.taken).settle_keeps i number socket flushed t.server
      exact hsame ⟨hnum, hsock, haccepted⟩ hthreads

theorem ownsAt_set (k : Nat) {i : Nat} {old new : Thread} (hold : s.threads[i]? = some old)
    (hnum : s'.connectionNum = s.connectionNum) (hsock : s'.clientSockfd = s.clientSockfd)
    (hthreads : s'.threads = s.threads.set i new)
    (hsame : new.Owns (i + 1) s.connectionNum s.clientSockfd ↔
      old.Owns (i + 1) s.connectionNum s.clientSockfd) : s'.OwnsAt k ↔ s.OwnsAt k := by
  have hlt : i < s.threads.length := (List.getElem?_eq_some_iff.mp hold).1
  unfold Service.OwnsAt
  rw [hnum, hsock, hthreads]
  by_cases hk : k = i
  · subst hk
    simp [List.getElem?_set_self hlt, hold, hsame]
  · rw [List.getElem?_set_ne (Ne.symm hk)]

theorem ownsAt_accept (k : Nat) :
    Service.OwnsAt { s with clientSockfd := s.threads.length + 1, accepted := true } k ↔
      s.OwnsAt k ∧ ∀ thread, s.threads[k]? = some thread → thread.HasRead := by
  constructor
  · intro howned
    have hread : ∀ thread, s.threads[k]? = some thread → thread.HasRead := by
      intro thread hthread
      have hlt : k < s.threads.length := (List.getElem?_eq_some_iff.mp hthread).1
      have hown := howned thread hthread
      cases thread with
      | created | named _ =>
          have hslot : s.threads.length + 1 = k + 1 := hown.2
          omega
      | connected _ _ | serving _ _ _ _ => trivial
    refine ⟨fun thread hthread => ?_, hread⟩
    have hown := howned thread hthread
    have hhas := hread thread hthread
    cases thread with
    | created | named _ => exact hhas.elim
    | connected _ _ | serving _ _ _ _ => exact hown
  · rintro ⟨howned, hread⟩ thread hthread
    have hown := howned thread hthread
    have hhas := hread thread hthread
    cases thread with
    | created | named _ => exact hhas.elim
    | connected _ _ | serving _ _ _ _ => exact hown

theorem ownsAt_spawn (h : s.Counted) (haccepted : s.accepted = true) (k : Nat) :
    Service.OwnsAt
        { s with
          connectionNum := s.connectionNum + 1
          accepted := false
          threads := s.threads ++ [.created] } k ↔ s.OwnsAt k := by
  have hnum := h.connectionNum
  have hsock : s.clientSockfd = s.threads.length + 1 := by
    rw [h.clientSockfd, haccepted, if_pos rfl]
  rcases Nat.lt_trichotomy k s.threads.length with hlt | rfl | hgt
  · unfold Service.OwnsAt
    rw [List.getElem?_append_left hlt]
    refine forall_congr' fun thread => forall_congr' fun hthread => ?_
    cases thread with
    | created =>
        constructor
        · intro hown
          exact absurd (hsock.symm.trans hown.2) (by omega)
        · intro hown
          exact absurd (hsock.symm.trans hown.2) (by omega)
    | named _ | connected _ _ | serving _ _ _ _ => exact Iff.rfl
  · constructor
    · intro _ thread hthread
      simp at hthread
    · intro _ thread hthread
      obtain rfl : Thread.created = thread := by simpa using hthread
      exact ⟨show s.connectionNum + 1 = s.threads.length + 1 by omega, hsock⟩
  · constructor
    · intro _ thread hthread
      rw [List.getElem?_eq_none (by omega)] at hthread
      cases hthread
    · intro _ thread hthread
      rw [List.getElem?_eq_none (by simp; omega)] at hthread
      cases hthread

/-- A step keeps each thread's connection its own unless it is an `accept` that comes too
early, and what is lost so stays lost. -/
theorem ownsAt_step (h : s.Counted) (hstep : s.step action = some s') (k : Nat) :
    s'.OwnsAt k ↔ s.OwnsAt k ∧
      (action = .accept → ∀ thread, s.threads[k]? = some thread → thread.HasRead) := by
  have hothers : action ≠ .accept → (s'.OwnsAt k ↔ s.OwnsAt k) →
      (s'.OwnsAt k ↔ s.OwnsAt k ∧
        (action = .accept → ∀ thread, s.threads[k]? = some thread → thread.HasRead)) :=
    fun hother hiff => hiff.trans (and_iff_left fun heq => absurd heq hother).symm
  cases Service.moves_of_step hstep with
  | send _ | fail => exact hothers (by simp) Iff.rfl
  | accept haccepted =>
      rw [ownsAt_accept, forall_prop_of_true rfl]
  | spawn haccepted => exact hothers (by simp) (ownsAt_spawn h haccepted k)
  | sprintf hthread => exact hothers (by simp) (ownsAt_set k hthread rfl rfl rfl Iff.rfl)
  | readParam hthread => exact hothers (by simp) (ownsAt_set k hthread rfl rfl rfl Iff.rfl)
  | fopen hthread => exact hothers (by simp) (ownsAt_set k hthread rfl rfl rfl Iff.rfl)
  | flush hthread _ _ => exact hothers (by simp) (ownsAt_set k hthread rfl rfl rfl Iff.rfl)
  | @iterate i number socket flushed _ _ _ t hthread _ _ =>
      obtain ⟨hnum, hsock, -, _, hthreads⟩ :=
        (s.setTaken socket t.taken).settle_keeps i number socket flushed t.server
      exact hothers (by simp) (ownsAt_set k hthread hnum hsock hthreads Iff.rfl)

theorem owned_step (h : s.Counted) (hstep : s.step action = some s') :
    s'.Owned ↔ s.Owned ∧ s.AcceptsAfterRead action := by
  have hread : s.AcceptsAfterRead action ↔ ∀ k : Nat, action = .accept →
      ∀ thread : Thread, s.threads[k]? = some thread → thread.HasRead := by
    constructor
    · intro hall k haccept thread hthread
      exact hall haccept thread (List.mem_of_getElem? hthread)
    · intro hall haccept thread hmem
      obtain ⟨k, hlt, rfl⟩ := List.mem_iff_getElem.mp hmem
      exact hall k haccept _ (List.getElem?_eq_getElem hlt)
  rw [hread]
  unfold Service.Owned
  rw [← forall_and]
  exact forall_congr' (ownsAt_step h hstep)

end

/-! ## Runs -/

section Runs

variable {source : Nat → Buffer} {timeout : Nat → Nat} {actions : List ServiceAction} {s : Service}

theorem counted_start (source : Nat → Buffer) (timeout : Nat → Nat) :
    (Service.start source timeout).Counted := ⟨rfl, rfl⟩

theorem owned_iff_alongRun
    (hrun : run Service.step (Service.start source timeout) actions = some s) :
    s.Owned ↔ AlongRun Service.step (fun s action _ => s.AcceptsAfterRead action)
      (Service.start source timeout) actions := by
  have hiff := iff_alongRun (P := Service.Owned)
    (fun _ _ _ hcounted _ hstep => Service.Counted.step hcounted hstep)
    (fun _ _ _ hcounted _ hstep => owned_step hcounted hstep) (fun _ _ => trivial)
    (counted_start source timeout) hrun
  rw [hiff]
  exact and_iff_right fun i thread hthread => by simp [Service.start] at hthread

theorem lost_of_run {later : List ServiceAction} {s' : Service} {i : Nat} (h : s.Counted)
    (hlost : ¬ s.OwnsAt i) (hlater : run Service.step s later = some s') : ¬ s'.OwnsAt i := by
  have hkept : s'.Counted ∧ ¬ s'.OwnsAt i := by
    refine run_invariant (I := fun s : Service => s.Counted ∧ ¬ s.OwnsAt i) ?_ ⟨h, hlost⟩ hlater
    intro u action u' hu hstep
    exact ⟨hu.1.step hstep, fun howns => hu.2 ((ownsAt_step hu.1 hstep i).mp howns).1⟩
  exact hkept.2

/-- Every thread has the number and the socket of its own connection if and only if no
`accept` returned while a thread had still to read them.  A thread that has lost its own
connection never gets it again. -/
theorem owned_iff (hrun : run Service.step (Service.start source timeout) actions = some s) :
    (s.Owned ↔ AlongRun Service.step (fun s action _ => s.AcceptsAfterRead action)
      (Service.start source timeout) actions) ∧
    ∀ later s' i, run Service.step s later = some s' → ¬ s.OwnsAt i → ¬ s'.OwnsAt i := by
  have hcounted : s.Counted :=
    run_invariant (fun _ _ _ h hstep => h.step hstep) (counted_start source timeout) hrun
  exact ⟨owned_iff_alongRun hrun, fun _ _ _ hlater hlost => lost_of_run hcounted hlost hlater⟩

/-- Two connections are accepted before the first thread gets to run: both threads serve the
second one. -/
def hastyActions : List ServiceAction :=
  [.accept, .spawn, .accept, .spawn, .sprintf 0, .readParam 0, .sprintf 1, .readParam 1]

theorem owned_hastyActions :
    ∃ s, run Service.step (Service.start (fun _ => [7]) fun _ => initialTimeout) hastyActions =
        some s ∧ s.threads = [.connected 2 2, .connected 2 2] ∧
      (s.Owned ↔ AlongRun Service.step (fun s action _ => s.AcceptsAfterRead action)
        (Service.start (fun _ => [7]) fun _ => initialTimeout) hastyActions) ∧
      ∀ later s' i, run Service.step s later = some s' → ¬ s.OwnsAt i → ¬ s'.OwnsAt i := by
  have hfound : (run Service.step (Service.start (fun _ => [7]) fun _ => initialTimeout)
      hastyActions).any (fun s => s.threads = [.connected 2 2, .connected 2 2]) = true := by
    decide +kernel
  obtain ⟨s, hs, hthreads⟩ := (Option.any_eq_true _ _).mp hfound
  exact ⟨s, hs, of_decide_eq_true hthreads, owned_iff hs⟩

end Runs

end Cs118.Tcp
