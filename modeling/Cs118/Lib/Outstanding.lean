import Mathlib.Data.List.Basic
import Mathlib.Order.Lattice
/-!
# The log of a cumulative-acknowledgement sender

A sender keeps the byte spans it has sent and not seen acknowledged.  It pushes
the span at its read offset, moves the oldest span to the back when it resends
it, and forgets everything up to a span whose end the receiver has reached.

The log is then no longer sorted.  What survives every interleaving is that it
is a *cyclic chain*: each span starts no later than its predecessor ends or
than the receiver has got, where the predecessor of the first span is the last.
-/

namespace Cs118.Lib.Outstanding

structure Span where
  start : Nat
  stop : Nat
deriving DecidableEq, Repr

def lastStop (before : Nat) : List Span → Nat
  | [] => before
  | span :: rest => lastStop span.stop rest

/-- Every span starts within what its predecessor or the receiver covers. -/
def Linked (acked : Nat) : Nat → List Span → Prop
  | _, [] => True
  | before, span :: rest => span.start ≤ max acked before ∧ Linked acked span.stop rest

/-- The log of a sender at read offset `offset` whose receiver has the first
`acked` bytes. -/
structure Chain (acked offset : Nat) (log : List Span) : Prop where
  linked : Linked acked offset log
  covered : ∀ o, acked ≤ o → o < offset → ∃ span ∈ log, span.start ≤ o ∧ o < span.stop
  last : lastStop offset log = offset

theorem lastStop_append (before : Nat) (log : List Span) (span : Span) :
    lastStop before (log ++ [span]) = span.stop := by
  induction log generalizing before with
  | nil => rfl
  | cons head rest ih => exact ih head.stop

theorem linked_append {acked before : Nat} {log more : List Span} :
    Linked acked before (log ++ more) ↔
      Linked acked before log ∧ Linked acked (lastStop before log) more := by
  induction log generalizing before with
  | nil => simp [Linked, lastStop]
  | cons head rest ih =>
      simp only [List.cons_append, Linked, lastStop, ih]
      tauto

theorem lastStop_append_list (before : Nat) (log more : List Span) :
    lastStop before (log ++ more) = lastStop (lastStop before log) more := by
  induction log generalizing before with
  | nil => rfl
  | cons head rest ih => exact ih head.stop

theorem Linked.mono {acked acked' before before' : Nat} (hacked : acked ≤ acked')
    (hbefore : before ≤ before') {log : List Span} (h : Linked acked before log) :
    Linked acked' before' log := by
  induction log generalizing before before' with
  | nil => trivial
  | cons head rest ih => exact ⟨h.1.trans (by omega), ih le_rfl h.2⟩

theorem Linked.covers {acked before : Nat} {log : List Span} (h : Linked acked before log)
    {o : Nat} (hacked : acked ≤ o) (hbefore : before ≤ o) (hlast : o < lastStop before log) :
    ∃ span ∈ log, span.start ≤ o ∧ o < span.stop := by
  induction log generalizing before with
  | nil => exact absurd hlast (Nat.not_lt.mpr hbefore)
  | cons head rest ih =>
      have hstart : head.start ≤ o := h.1.trans (by omega)
      by_cases hin : o < head.stop
      · exact ⟨head, by simp, hstart, hin⟩
      · obtain ⟨span, hmem, hspan⟩ := ih h.2 (Nat.le_of_not_lt hin) hlast
        exact ⟨span, by simp [hmem], hspan⟩

namespace Chain

variable {acked offset : Nat} {log : List Span}

theorem offset_le (h : Chain acked offset []) : offset ≤ acked := by
  by_contra hlt
  obtain ⟨_, hmem, _⟩ := h.covered acked le_rfl (by omega)
  simp at hmem

theorem nil (h : offset ≤ acked) : Chain acked offset [] where
  linked := trivial
  covered := fun o hacked hoff => absurd hoff (by omega)
  last := rfl

theorem receive (h : Chain acked offset log) {acked' : Nat} (hacked : acked ≤ acked') :
    Chain acked' offset log where
  linked := h.linked.mono hacked le_rfl
  covered := fun o ho hoff => h.covered o (hacked.trans ho) hoff
  last := h.last

theorem push (h : Chain acked offset log) {stop : Nat} (hstop : offset ≤ stop) :
    Chain acked stop (log ++ [⟨offset, stop⟩]) where
  linked := by
    rw [linked_append]
    refine ⟨h.linked.mono le_rfl hstop, ?_, trivial⟩
    cases log with
    | nil => exact hstop.trans (by simp [lastStop])
    | cons head rest =>
        have hlast : lastStop stop (head :: rest) = offset := h.last
        rw [hlast]
        exact le_max_right _ _
  covered := by
    intro o hacked hoff
    by_cases hold : o < offset
    · obtain ⟨span, hmem, hspan⟩ := h.covered o hacked hold
      exact ⟨span, by simp [hmem], hspan⟩
    · exact ⟨⟨offset, stop⟩, by simp, Nat.le_of_not_lt hold, hoff⟩
  last := lastStop_append _ _ _

theorem rotate {front : Span} (h : Chain acked offset (front :: log)) :
    Chain acked front.stop (log ++ [front]) where
  linked := by
    rw [linked_append]
    refine ⟨h.linked.2, ?_, trivial⟩
    have hlast : lastStop front.stop log = offset := h.last
    rw [hlast]
    exact h.linked.1
  covered := by
    intro o hacked hoff
    by_cases hin : front.start ≤ o
    · exact ⟨front, by simp, hin, hoff⟩
    · have hstart := h.linked.1
      obtain ⟨span, hmem, hspan⟩ := h.covered o hacked (by omega)
      exact ⟨span, by simpa [or_comm] using hmem, hspan⟩
  last := lastStop_append _ _ _

theorem acknowledge {before after : List Span} {hit : Span}
    (h : Chain acked offset (before ++ hit :: after)) (hhit : hit.stop ≤ acked) :
    Chain acked offset after := by
  have hlinked : Linked acked hit.stop after := (linked_append.mp h.linked).2.2
  have hlast : lastStop hit.stop after = offset := by
    have := h.last
    rwa [lastStop_append_list] at this
  refine ⟨?_, ?_, ?_⟩
  · cases after with
    | nil => trivial
    | cons head rest =>
        exact ⟨hlinked.1.trans (by omega), hlinked.2⟩
  · intro o hacked hoff
    exact hlinked.covers hacked (hhit.trans hacked) (by omega)
  · cases after with
    | nil => rfl
    | cons head rest => exact hlast

/-- If no span starts where the receiver stands and none straddles that point,
a sender that is behind the receiver has only spans the receiver has. -/
theorem stop_le_acked (h : Linked acked offset log) (hbehind : offset ≤ acked)
    (hstraddle : ∀ span ∈ log, span.start < acked → span.stop ≤ acked)
    (hstart : ∀ span ∈ log, span.start ≠ acked) :
    ∀ span ∈ log, span.stop ≤ acked := by
  induction log generalizing offset with
  | nil => simp
  | cons head rest ih =>
      have hhead : head.stop ≤ acked := by
        apply hstraddle head (by simp)
        have hle := h.1
        have hne := hstart head (by simp)
        omega
      intro span hmem
      rcases List.mem_cons.mp hmem with rfl | hmem
      · exact hhead
      · exact ih h.2 hhead (fun s hs => hstraddle s (by simp [hs]))
          (fun s hs => hstart s (by simp [hs])) span hmem

end Chain

/-! ## Acknowledgement by search

A sender may look for the first entry that ends at the acknowledged point and forget it and
everything before it.  That is cumulative acknowledgement when the log is in order there. -/

section Search

variable {α : Type} {stop : α → Nat} {x : Nat}

/-- The entries that end by `x` come first, the last of them and no other ends at `x`. -/
structure InOrderAt (stop : α → Nat) (x : Nat) (log : List α) : Prop where
  ordered : log.Pairwise fun earlier later => stop later ≤ x → stop earlier < x
  reached : (∃ e ∈ log, stop e ≤ x) → ∃ e ∈ log, stop e = x

instance (stop : α → Nat) (x : Nat) (log : List α) : Decidable (InOrderAt stop x log) :=
  decidable_of_iff
    ((log.Pairwise fun earlier later => stop later ≤ x → stop earlier < x) ∧
      ((∃ e ∈ log, stop e ≤ x) → ∃ e ∈ log, stop e = x))
    ⟨fun h => ⟨h.1, h.2⟩, fun h => ⟨h.ordered, h.reached⟩⟩

theorem pairwise_of_forall_mem {R : α → α → Prop} {log : List α}
    (h : ∀ earlier ∈ log, ∀ later ∈ log, R earlier later) : log.Pairwise R :=
  List.Pairwise.imp_of_mem (fun hearlier hlater _ => h _ hearlier _ hlater)
    (List.pairwise_of_forall (R := fun _ _ => True) fun _ _ => trivial)

/-- Nothing ends at `x`, and nothing is forgotten. -/
theorem eq_filter_iff_of_miss {log : List α} (hmiss : ∀ e ∈ log, stop e ≠ x) :
    log = log.filter (fun e => x < stop e) ↔ InOrderAt stop x log := by
  have hkeep : log = log.filter (fun e => x < stop e) ↔ ∀ e ∈ log, x < stop e := by
    rw [eq_comm, List.filter_eq_self]
    simp
  rw [hkeep]
  constructor
  · intro hbeyond
    refine ⟨pairwise_of_forall_mem ?_, ?_⟩
    · intro earlier _ later hlater hle
      exact absurd hle (Nat.not_le.mpr (hbeyond later hlater))
    · rintro ⟨e, hmem, hle⟩
      exact absurd hle (Nat.not_le.mpr (hbeyond e hmem))
  · intro h e hmem
    by_contra hle
    obtain ⟨hit, hhit, heq⟩ := h.reached ⟨e, hmem, Nat.not_lt.mp hle⟩
    exact hmiss hit hhit heq

/-- `hit` is the first entry that ends at `x`, and everything up to it is forgotten. -/
theorem eq_filter_iff_of_hit {before rest : List α} {hit : α} (hfirst : ∀ e ∈ before, stop e ≠ x)
    (hhit : stop hit = x) :
    rest = (before ++ hit :: rest).filter (fun e => x < stop e) ↔
      InOrderAt stop x (before ++ hit :: rest) := by
  have hsplit : (before ++ hit :: rest).filter (fun e => x < stop e) =
      before.filter (fun e => x < stop e) ++ rest.filter (fun e => x < stop e) := by
    simp [List.filter_append, hhit]
  rw [hsplit]
  constructor
  · intro heq
    have hrest : ∀ e ∈ rest, x < stop e := by
      intro e hmem
      rw [heq, List.mem_append, List.mem_filter, List.mem_filter] at hmem
      exact hmem.elim (fun h => of_decide_eq_true h.2) fun h => of_decide_eq_true h.2
    have hbefore : ∀ e ∈ before, stop e < x := by
      have hkeep : rest.filter (fun e => x < stop e) = rest := List.filter_eq_self.mpr (by simpa)
      rw [hkeep, List.self_eq_append_left, List.filter_eq_nil_iff] at heq
      intro e hmem
      have hle : ¬ x < stop e := by simpa using heq e hmem
      exact lt_of_le_of_ne (Nat.not_lt.mp hle) (hfirst e hmem)
    refine ⟨List.pairwise_append.mpr ⟨?_, List.pairwise_cons.mpr ⟨?_, ?_⟩, ?_⟩, ?_⟩
    · exact pairwise_of_forall_mem fun e hmem _ _ _ => hbefore e hmem
    · exact fun e hmem hle => absurd hle (Nat.not_le.mpr (hrest e hmem))
    · exact pairwise_of_forall_mem fun _ _ e hmem hle =>
        absurd hle (Nat.not_le.mpr (hrest e hmem))
    · exact fun e hmem _ _ _ => hbefore e hmem
    · exact fun _ => ⟨hit, by simp, hhit⟩
  · intro h
    obtain ⟨-, hlater, hacross⟩ := List.pairwise_append.mp h.ordered
    have hbefore : before.filter (fun e => x < stop e) = [] := by
      refine List.filter_eq_nil_iff.mpr fun e hmem => ?_
      have hlt := hacross e hmem hit (by simp) hhit.le
      simpa using hlt.le
    have hrest : rest.filter (fun e => x < stop e) = rest := by
      refine List.filter_eq_self.mpr fun e hmem => ?_
      by_contra hle
      have hlt := (List.pairwise_cons.mp hlater).1 e hmem (by simpa using hle)
      omega
    rw [hbefore, hrest, List.nil_append]

end Search

end Cs118.Lib.Outstanding
