import Cs118.Confundo.Session
/-!
# The packet the client receives into (`client.cpp`)

`recv_packet` is not cleared between two calls of `recvfrom`, and `ntoh_reorder` swaps its
header in place.  A datagram shorter than the header leaves the rest of it as it was, in
host order, to be swapped once more.  Of the packet nothing but the header is read.
-/

namespace Cs118.Confundo

open Cs118.Lib.Bytes
open Cs118.Lib.Run

/-- The header in memory after `recvfrom` has written a datagram over it. -/
def Header.overwrite (h : Header) (bytes : Buffer) : Buffer :=
  bytes.take 12 ++ h.image.drop bytes.length

/-- The client, and the header in the `recv_packet` of the function it is in. -/
structure ClientProcess where
  client : Client
  recvPacket : Header
deriving DecidableEq, Repr

namespace ClientProcess

def start : ClientProcess := ⟨Client.start, ⟨0, 0, 0, 0⟩⟩

/-- What the client finds in `recv_packet` when a datagram has come in.  `recv_pack` also
looks at it when the datagram was empty. -/
def perceives (p : ClientProcess) : ClientEvent → Option ClientEvent
  | .receive bytes =>
    if bytes = [] ∧ p.client.phase ≠ .synWait then none
    else some (.receive (p.recvPacket.overwrite bytes))
  | event => some event

def received (p : ClientProcess) : ClientEvent → Header
  | .receive bytes => readHeader (p.recvPacket.overwrite bytes)
  | _ => p.recvPacket

/-- `recv_pack` and `ending` begin with a `memset`; the packet of
`slidingWindow_data_trans` is whatever is on the stack. -/
def onEntry (old new : Phase) (stack h : Header) : Header :=
  match old, new with
  | .synSend, .synWait => ⟨0, 0, 0, 0⟩
  | .synWait, .loopTop => stack
  | .loopRecv, .finWait => ⟨0, 0, 0, 0⟩
  | _, _ => h

def step (file : Buffer) (p : ClientProcess) (event : ClientEvent) (stack : Header) :
    Option (ClientProcess × List Buffer) :=
  (p.perceives event).bind fun seen =>
    (p.client.step file seen).map fun next =>
      (⟨next.1, onEntry p.client.phase next.1.phase stack (p.received event)⟩, next.2)

/-- The states of a client to which arbitrary datagrams are sent, with arbitrary stack
contents. -/
def Reachable (file : Buffer) (p : ClientProcess) : Prop :=
  Reach (fun p (action : ClientEvent × Header) => (p.step file action.1 action.2).map (·.1))
    (fun _ => True) start p

end ClientProcess

/-! ## Whole headers -/

theorem length_overwrite (h : Header) (bytes : Buffer) : 12 ≤ (h.overwrite bytes).length := by
  rw [Header.overwrite, List.length_append, List.length_take, List.length_drop,
    Header.length_image]
  omega

theorem overwrite_of_whole (h : Header) {bytes : Buffer} (hwhole : 12 ≤ bytes.length) :
    h.overwrite bytes = bytes.take 12 := by
  rw [Header.overwrite, List.drop_eq_nil_of_le (by rwa [Header.length_image]), List.append_nil]

theorem readHeader_take (bytes : Buffer) : readHeader (bytes.take 12) = readHeader bytes := by
  simp only [readHeader, Header.load, load32, load16, List.drop_take, List.take_take]
  rfl

theorem readHeader_overwrite (h : Header) {bytes : Buffer} (hwhole : 12 ≤ bytes.length) :
    readHeader (h.overwrite bytes) = readHeader bytes := by
  rw [overwrite_of_whole h hwhole, readHeader_take]

/-- The client reads nothing but the header of what it receives. -/
theorem Client.step_receive_congr (file : Buffer) (c : Client) {bytes bytes' : Buffer}
    (hne : bytes ≠ []) (hne' : bytes' ≠ []) (hheader : readHeader bytes = readHeader bytes') :
    c.step file (.receive bytes) = c.step file (.receive bytes') := by
  unfold Client.step
  cases c.phase <;> simp only [hheader, if_neg hne, if_neg hne']

theorem ClientProcess.client_step {file : Buffer} {p : ClientProcess} {event : ClientEvent}
    {stack : Header} {next : ClientProcess × List Buffer}
    (h : p.step file event stack = some next) :
    ∃ seen, p.perceives event = some seen ∧
      p.client.step file seen = some (next.1.client, next.2) := by
  obtain ⟨seen, hseen, hrest⟩ := Option.bind_eq_some_iff.mp h
  obtain ⟨moved, hmoved, rfl⟩ := Option.map_eq_some_iff.mp hrest
  exact ⟨seen, hseen, hmoved⟩

theorem ClientProcess.step_of_whole (file : Buffer) (p : ClientProcess) {bytes : Buffer}
    (hwhole : 12 ≤ bytes.length) (stack : Header) :
    (p.step file (.receive bytes) stack).map (fun next => (next.1.client, next.2)) =
      p.client.step file (.receive bytes) := by
  have hne : bytes ≠ [] := by
    rintro rfl
    simp at hwhole
  have hheld : p.recvPacket.overwrite bytes ≠ [] := by
    have hlength := length_overwrite p.recvPacket bytes
    intro hempty
    simp [hempty] at hlength
  have hseen : p.perceives (.receive bytes) = some (.receive (p.recvPacket.overwrite bytes)) :=
    if_neg fun h => hne h.1
  rw [ClientProcess.step, hseen, Option.bind_some, Option.map_map,
    Client.step_receive_congr file p.client hheld hne (readHeader_overwrite _ hwhole)]
  exact Option.map_id'

/-! ## Whole datagrams -/

theorem whole_scanId {update : Connection → Connection × List Send}
    (h : ∀ c, ∀ send ∈ (update c).2, 12 ≤ send.2.length) (id : UInt16) (table : List Connection) :
    ∀ send ∈ (scanId id update table).2, 12 ≤ send.2.length := by
  induction table with
  | nil => simp [scanId]
  | cons c rest ih =>
      unfold scanId
      split_ifs
      · exact h c
      · exact ih

theorem whole_synScan (addr : SockAddr) (buf : Packet) (i : Nat) (table : List Connection) :
    ∀ send ∈ (synScan addr buf i table).2, 12 ≤ send.2.length := by
  induction table generalizing i with
  | nil => simp [synScan]
  | cons c rest ih =>
      unfold synScan
      split_ifs
      · simp [reply]
      · exact ih (i + 1)
      · rintro send (_ | ⟨_, hsend⟩)
        · simp
        · exact ih (i + 1) send hsend

theorem whole_receive (s : Server) (addr : SockAddr) (bytes : Buffer) :
    ∀ send ∈ (s.receive addr bytes).2, 12 ≤ send.2.length := by
  have hdata : ∀ buf n c, ∀ send ∈ (dataBranch buf n c).2, 12 ≤ send.2.length := by
    intro buf n c
    unfold dataBranch
    split_ifs <;> simp [reply]
  have hfin : ∀ buf c, ∀ send ∈ (finBranch buf c).2, 12 ≤ send.2.length := by
    intro buf c
    simp [finBranch, reply]
  unfold Server.receive dispatch
  dsimp only
  split_ifs
  · exact whole_synScan _ _ _ _
  · exact whole_scanId (hdata _ _) _ _
  · exact whole_scanId (hfin _) _ _
  · simp

theorem Session.Reachable.whole {file : Buffer} {addr : SockAddr} {s : Session}
    (h : Session.Reachable file addr s) : ∀ bytes ∈ s.toClient, 12 ≤ bytes.length := by
  refine Reach.invariant (P := fun s : Session => ∀ bytes ∈ s.toClient, 12 ≤ bytes.length)
    ?_ (by simp [Session.start]) h
  intro s action s' hs _ hstep bytes hbytes
  cases Session.moves_of_step hstep with
  | client _ _ _ _ _ hfrom => exact hs bytes (hfrom hbytes)
  | @server received _ hanswers =>
      rw [hanswers.toClient, List.mem_append] at hbytes
      rcases hbytes with hold | hnew
      · exact hs bytes hold
      · simp only [sendsTo, List.mem_map, List.mem_filter] at hnew
        obtain ⟨send, ⟨hsend, -⟩, rfl⟩ := hnew
        exact whole_receive _ _ _ send hsend
  | network _ _ _ hfrom => exact hs bytes (hfrom hbytes)

/-- The client of a session takes the steps of its process, whatever is left over in
`recv_packet`. -/
theorem Session.Reachable.process_step {file : Buffer} {addr : SockAddr} {s : Session}
    (h : Session.Reachable file addr s) {bytes : Buffer} (hbytes : bytes ∈ s.toClient)
    (recvPacket stack : Header) :
    (ClientProcess.step file ⟨s.client, recvPacket⟩ (.receive bytes) stack).map
        (fun next => (next.1.client, next.2)) = s.client.step file (.receive bytes) :=
  ClientProcess.step_of_whole file _ (h.whole bytes hbytes) stack

end Cs118.Confundo
