import Cs118.Confundo.Session
import Cs118.Confundo.Proofs.Table
/-!
# Several clients and one server

Every client has a session of its own with the server, and all sessions share
the server's table.  What the server sends while it serves one client may be
addressed to another: a `SYN` is echoed to the owner of every slot in use.
-/

namespace Cs118.Confundo

open Cs118.Lib.Bytes
open Cs118.Lib.Run

structure Party where
  client : Client
  toServer : List Buffer
  toClient : List Buffer
deriving DecidableEq, Repr

def Party.start : Party := ⟨Client.start, [], []⟩

structure Network (ι : Type) where
  server : Server
  party : ι → Party

namespace Network

variable {ι : Type} [DecidableEq ι]

def start : Network ι := ⟨Server.start, fun _ => Party.start⟩

/-- What client `i` and the network between it and the server look like. -/
def session (n : Network ι) (i : ι) : Session :=
  ⟨(n.party i).client, n.server, (n.party i).toServer, (n.party i).toClient⟩

def sent (s : Session) (addr : SockAddr) : Action → List Send
  | .serverReceive k => (s.toServer[k]?).elim [] fun bytes => (s.server.receive addr bytes).2
  | _ => []

/-- One action of one session.  The others receive what is addressed to them. -/
def step (file : ι → Buffer) (addr : ι → SockAddr) (n : Network ι) (a : ι × Action) :
    Option (Network ι) :=
  (Session.step (file a.1) (addr a.1) (n.session a.1) a.2).map fun s =>
    { server := s.server
      party := fun j =>
        if j = a.1 then ⟨s.client, s.toServer, s.toClient⟩
        else
          { n.party j with
            toClient := (n.party j).toClient ++
              sendsTo (addr j) (sent (n.session a.1) (addr a.1) a.2) } }

def Reachable (file : ι → Buffer) (addr : ι → SockAddr) (n : Network ι) : Prop :=
  Reach (step file addr) (fun _ => True) start n

/-- What a step can do: one party moves by itself, or the server answers a datagram
of one party and sends to any of them. -/
inductive Moves (file : ι → Buffer) (addr : ι → SockAddr) (n n' : Network ι) : Prop
  | client (i : ι) {event : ClientEvent} {next : Client × List Buffer}
      (hevent : ∀ bytes, event = .receive bytes → bytes ∈ (n.party i).toClient)
      (hstep : (n.party i).client.step (file i) event = some next)
      (hclient : (n'.party i).client = next.1)
      (hto : (n'.party i).toServer = (n.party i).toServer ++ next.2)
      (hfrom : (n'.party i).toClient ⊆ (n.party i).toClient)
      (hserver : n'.server = n.server) (hothers : ∀ j, j ≠ i → n'.party j = n.party j)
  | server (i : ι) {bytes : Buffer} (hbytes : bytes ∈ (n.party i).toServer)
      (hserver : n'.server = (n.server.receive (addr i) bytes).1)
      (hclient : ∀ j, (n'.party j).client = (n.party j).client)
      (hto : ∀ j, (n'.party j).toServer ⊆ (n.party j).toServer)
      (hfrom : ∀ j, (n'.party j).toClient =
        (n.party j).toClient ++ sendsTo (addr j) (n.server.receive (addr i) bytes).2)
  | network (i : ι) (hclient : (n'.party i).client = (n.party i).client)
      (hto : (n'.party i).toServer ⊆ (n.party i).toServer)
      (hfrom : (n'.party i).toClient ⊆ (n.party i).toClient)
      (hserver : n'.server = n.server) (hothers : ∀ j, j ≠ i → n'.party j = n.party j)

variable {file : ι → Buffer} {addr : ι → SockAddr} {n n' : Network ι}

theorem step_eq_some {a : ι × Action} (h : step file addr n a = some n') :
    ∃ s, Session.step (file a.1) (addr a.1) (n.session a.1) a.2 = some s ∧
      n'.server = s.server ∧ n'.party a.1 = ⟨s.client, s.toServer, s.toClient⟩ ∧
      ∀ j, j ≠ a.1 → n'.party j =
        { n.party j with
          toClient := (n.party j).toClient ++
            sendsTo (addr j) (sent (n.session a.1) (addr a.1) a.2) } := by
  obtain ⟨s, hs, rfl⟩ := Option.map_eq_some_iff.mp h
  exact ⟨s, hs, rfl, if_pos rfl, fun j hj => if_neg hj⟩

theorem others_of_sent_nil {p p' : Party} {addr : SockAddr} {sends : List Send}
    (hsends : sends = [])
    (h : p' = { p with toClient := p.toClient ++ sendsTo addr sends }) : p' = p := by
  subst hsends
  rw [h]
  simp [sendsTo]

theorem moves_of_step {a : ι × Action} (h : step file addr n a = some n') :
    Moves file addr n n' := by
  obtain ⟨i, action⟩ := a
  obtain ⟨s, hs, hserver, hself, hothers⟩ := step_eq_some h
  dsimp only at hs hself hothers
  have hcopy : ∀ {sent : List Buffer} {k : Nat} {bytes : Buffer}, sent[k]? = some bytes →
      sent ++ [bytes] ⊆ sent := by
    intro sent k bytes hbytes
    exact List.append_subset.mpr ⟨List.Subset.refl _,
      List.cons_subset.mpr ⟨List.mem_of_getElem? hbytes, List.nil_subset _⟩⟩
  have hsub : ∀ {sent sent' later : List Buffer}, later = sent' → sent' ⊆ sent → later ⊆ sent := by
    intro sent sent' later heq hsubset
    rwa [heq]
  -- the party's fields are those of the session after its step
  have hclient : (n'.party i).client = s.client := by rw [hself]
  have hto : (n'.party i).toServer = s.toServer := by rw [hself]
  have hfrom : (n'.party i).toClient = s.toClient := by rw [hself]
  cases action with
  | client event =>
      have hquiet := fun j hj => others_of_sent_nil rfl (hothers j hj)
      simp only [Session.step] at hs
      split_ifs at hs with hreceive
      obtain ⟨next, hstep, rfl⟩ := Option.map_eq_some_iff.mp hs
      refine .client i (fun bytes heq => ?_) hstep hclient hto (hsub hfrom (List.Subset.refl _)) hserver hquiet
      subst heq
      exact absurd rfl hreceive
  | clientReceive k =>
      have hquiet := fun j hj => others_of_sent_nil rfl (hothers j hj)
      obtain ⟨bytes, hbytes, hrest⟩ := Option.bind_eq_some_iff.mp hs
      obtain ⟨next, hstep, rfl⟩ := Option.map_eq_some_iff.mp hrest
      refine .client i (fun bytes' heq => ?_) hstep hclient hto ?_ hserver hquiet
      · obtain rfl := ClientEvent.receive.inj heq
        exact List.mem_of_getElem? hbytes
      · rw [hfrom]
        exact List.eraseIdx_subset
  | serverReceive k =>
      obtain ⟨bytes, hbytes, rfl⟩ := Option.map_eq_some_iff.mp hs
      have hsent : sent (n.session i) (addr i) (.serverReceive k) =
          (n.server.receive (addr i) bytes).2 := by
        simp only [sent, hbytes, Option.elim_some]
        rfl
      rw [hsent] at hothers
      refine .server i (List.mem_of_getElem? hbytes) hserver ?_ ?_ ?_ <;> intro j <;>
        by_cases hj : j = i
      · subst hj
        exact hclient
      · rw [hothers j hj]
      · subst hj
        rw [hto]
        exact List.eraseIdx_subset
      · rw [hothers j hj]
        exact List.Subset.refl _
      · subst hj
        exact hfrom
      · rw [hothers j hj]
  | loseToServer k =>
      have hquiet := fun j hj => others_of_sent_nil rfl (hothers j hj)
      simp only [Session.step] at hs
      split_ifs at hs
      obtain rfl := Option.some.inj hs
      exact .network i hclient (hsub hto List.eraseIdx_subset) (hsub hfrom (List.Subset.refl _)) hserver hquiet
  | loseToClient k =>
      have hquiet := fun j hj => others_of_sent_nil rfl (hothers j hj)
      simp only [Session.step] at hs
      split_ifs at hs
      obtain rfl := Option.some.inj hs
      exact .network i hclient (hsub hto (List.Subset.refl _)) (hsub hfrom List.eraseIdx_subset) hserver hquiet
  | copyToServer k =>
      have hquiet := fun j hj => others_of_sent_nil rfl (hothers j hj)
      obtain ⟨bytes, hbytes, rfl⟩ := Option.map_eq_some_iff.mp hs
      exact .network i hclient (hsub hto (hcopy hbytes)) (hsub hfrom (List.Subset.refl _)) hserver hquiet
  | copyToClient k =>
      have hquiet := fun j hj => others_of_sent_nil rfl (hothers j hj)
      obtain ⟨bytes, hbytes, rfl⟩ := Option.map_eq_some_iff.mp hs
      exact .network i hclient (hsub hto (List.Subset.refl _)) (hsub hfrom (hcopy hbytes)) hserver hquiet

end Network

end Cs118.Confundo
