import ZetaNet.Lib.Machine
import ZetaNet.P2P.Node

/-!
# Sessions of peer-to-peer nodes

Any number of nodes and the control packets in flight between them, which arrive in any order
and each once. A node reaches another one under an address of its own for it, and sees the
other's packets come from there; a packet to any other address goes nowhere.
-/

namespace ZetaNet

variable {ι : Type}

/-- Who stands behind an address, as each node sees it. -/
structure Addressing (ι : Type) where
  address : ι → ι → Address
  route : ι → Address → Option ι
  route_eq_some : ∀ i a j, route i a = some j ↔ address i j = a

namespace Addressing

variable (net : Addressing ι)

theorem route_address (i j : ι) : net.route i (net.address i j) = some j :=
  (net.route_eq_some i _ j).mpr rfl

theorem address_inj {i j k : ι} (h : net.address i j = net.address i k) : j = k :=
  Option.some.inj ((net.route_address i j).symm.trans (h ▸ net.route_address i k))

end Addressing

/-- A control packet in flight. -/
structure ControlPacket (ι : Type) where
  source : ι
  target : ι
  payload : Bytes

/-- The nodes of a session and what is in flight. -/
structure P2PSession (ι : Type) where
  node : ι → ZP2PNode
  inFlight : List (ControlPacket ι)

/-- What can happen: the `index`-th packet in flight arrives, or a node's `Update` runs its
timers. -/
inductive SessionEvent (ι : Type)
  | deliver (index : Nat) (env : NodeEnv)
  | tick (i : ι) (now : Nat)

/-- The sockets of the event's node can be opened. -/
def SessionEvent.Opens : SessionEvent ι → Prop
  | .deliver _ env => env.opens = true
  | .tick _ _ => True

namespace P2PSession

variable [DecidableEq ι] (net : Addressing ι) (resolve : Bytes → UInt16 → Option Address)

/-- The packets of node `i` that reach a node. -/
def routed (i : ι) (sends : List ControlSend) : List (ControlPacket ι) :=
  sends.filterMap fun send => (net.route i send.target).map fun j => ⟨i, j, send.payload⟩

/-- Node `i` after a call, and what it sent on its way. -/
def afterCall (i : ι) (result : ZP2PNode × List ControlSend) (s : P2PSession ι) :
    P2PSession ι where
  node := Function.update s.node i result.1
  inFlight := s.inFlight ++ routed net i result.2

/-- The arrival of a packet: `IngestPacket` finds or makes the peer it comes from, and `Update`
takes it out of the queue. -/
def receive (packet : ControlPacket ι) (env : NodeEnv) (node : ZP2PNode) :
    ZP2PNode × List ControlSend :=
  match node.peerMapping.getOrCreatePeer (net.address packet.target packet.source) with
  | (none, peerMapping) => ({ node with peerMapping }, [])
  | (some peer, peerMapping) =>
      { node with peerMapping }.processControlPacket resolve peer.identifier packet.payload env

/-- One event of a session. -/
def machine : Machine (P2PSession ι) (SessionEvent ι) where
  step s
    | .deliver index env =>
        s.inFlight[index]?.map fun packet =>
          afterCall net packet.target (receive net resolve packet env (s.node packet.target))
            { s with inFlight := s.inFlight.eraseIdx index }
    | .tick i now => some (afterCall net i ((s.node i).tickNatPunchthrough now) s)

/-- `i` calls `BecomeHost`. -/
def becomeHost (i : ι) (env : NodeEnv) (s : P2PSession ι) : P2PSession ι :=
  afterCall net i ((s.node i).becomeHost resolve env) s

@[simp] theorem node_afterCall_self (i : ι) (result : ZP2PNode × List ControlSend)
    (s : P2PSession ι) : (afterCall net i result s).node i = result.1 :=
  Function.update_self ..

theorem node_afterCall_of_ne {i j : ι} (h : j ≠ i) (result : ZP2PNode × List ControlSend)
    (s : P2PSession ι) : (afterCall net i result s).node j = s.node j :=
  Function.update_of_ne h ..

omit [DecidableEq ι] in
theorem mem_routed {i : ι} {sends : List ControlSend} {packet : ControlPacket ι}
    (h : packet ∈ routed net i sends) :
    packet.source = i ∧
      ⟨net.address i packet.target, packet.payload⟩ ∈ sends := by
  obtain ⟨send, hsend, hroute⟩ := List.mem_filterMap.mp h
  obtain ⟨j, hj, rfl⟩ := Option.map_eq_some_iff.mp hroute
  refine ⟨rfl, ?_⟩
  rw [(net.route_eq_some i _ j).mp hj]
  exact hsend

end P2PSession

end ZetaNet
