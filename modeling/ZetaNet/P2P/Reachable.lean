import ZetaNet.Lib.Machine
import ZetaNet.P2P.Roles

/-!
# The states a node can get into

The calls an application makes, the datagrams that arrive and the control packets and timers that
`Update` works off, in any order. A node never forgets a peer: its table is one that only
`GetOrCreatePeer` has worked on.
-/

namespace ZetaNet

open Wire Checks

inductive NodeEvent
  | begin (port : UInt16) (env : NodeEnv)
  | connect (hostIp : Bytes) (hostPort localPort : UInt16) (env : NodeEnv)
  | becomeHost (env : NodeEnv)
  /-- `IngestPacket` finds or makes the peer a datagram comes from -/
  | ingest (source : Address)
  | process (sourcePeerId : UInt32) (data : Bytes) (env : NodeEnv)
  | tick (now : Nat)

namespace ZP2PNode

/-- One call or one packet. -/
def machine (resolve : Bytes → UInt16 → Option Address) : Machine ZP2PNode NodeEvent where
  step node
    | .begin port env => some (node.begin resolve port env).2
    | .connect hostIp hostPort localPort env =>
        some (node.connect resolve hostIp hostPort localPort env).2.1
    | .becomeHost env => some (node.becomeHost resolve env).1
    | .ingest source => some (node.rememberPeer source)
    | .process sourcePeerId data env =>
        some (node.processControlPacket resolve sourcePeerId data env).1
    | .tick now => some (node.tickNatPunchthrough now).1

/-! ## The peer table grows -/

/-- The table afterwards is the one before and some lookups. -/
def Grows (before after : ZP2PNode) : Prop :=
  ∃ addresses, after.peerMapping = before.peerMapping.register addresses

namespace Grows

theorem of_eq {before after : ZP2PNode} (h : after.peerMapping = before.peerMapping) :
    Grows before after :=
  ⟨[], h⟩

theorem refl (node : ZP2PNode) : Grows node node := of_eq rfl

theorem trans {a b c : ZP2PNode} (h : Grows a b) (h' : Grows b c) : Grows a c := by
  obtain ⟨first, hfirst⟩ := h
  obtain ⟨second, hsecond⟩ := h'
  refine ⟨first ++ second, ?_⟩
  rw [hsecond, hfirst]
  exact (List.foldl_append ..).symm

theorem grown {before after : ZP2PNode} (h : Grows before after)
    (hgrown : before.peerMapping.Grown) : after.peerMapping.Grown := by
  obtain ⟨addresses, h⟩ := h
  rw [h]
  exact hgrown.register addresses

theorem of_learns {before after : ZP2PNode} (h : Learns before after) : Grows before after := by
  induction h with
  | refl node => exact refl node
  | trans _ _ ih ih' => exact ih.trans ih'
  | rememberPeer address node => exact ⟨[address], rfl⟩
  | punching => exact of_eq rfl

section Roles

variable (resolve : Bytes → UInt16 → Option Address)

theorem initAsHost (port : UInt16) (env : NodeEnv) (node : ZP2PNode) :
    Grows node (node.initAsHost resolve port env).2 := by
  refine of_eq ?_
  unfold ZP2PNode.initAsHost
  dsimp only
  split
  · rfl
  · split
    · rfl
    · rfl

theorem initAsClient (hostIp : Bytes) (hostPort : UInt16) (env : NodeEnv) (node : ZP2PNode) :
    Grows node (node.initAsClient resolve hostIp hostPort env).2 := by
  refine of_eq ?_
  unfold ZP2PNode.initAsClient
  dsimp only
  split
  · rfl
  · split
    · rfl
    · rfl

theorem promoteToHost (announceTransition : Bool) (env : NodeEnv) (node : ZP2PNode) :
    Grows node (node.promoteToHost resolve announceTransition env).2.1 := by
  have hinit := initAsHost resolve node.localPort env node
  unfold ZP2PNode.promoteToHost
  rcases hresult : node.initAsHost resolve node.localPort env with ⟨started, host⟩
  rw [hresult] at hinit
  split
  · exact refl node
  split
  · exact refl node
  -- whatever was announced, the node is the one that `initAsHost` left, rearmed if it started
  cases started with
  | false =>
      dsimp only
      split
      · split
        · exact refl node
        · exact hinit
      · exact hinit
  | true =>
      have hrearmed := hinit.trans (of_learns (.rearmPeers env.now node.knownPeers host))
      dsimp only
      split
      · split
        · exact refl node
        · exact hrearmed
      · exact hrearmed

theorem reconnectToHost (endpoint : Address) (env : NodeEnv) (node : ZP2PNode) :
    Grows node (node.reconnectToHost resolve endpoint env).2.1 := by
  have hinit := initAsClient resolve endpoint.text endpoint.port env node
  unfold ZP2PNode.reconnectToHost
  split
  · exact promoteToHost resolve false env node
  rcases hresult : node.initAsClient resolve endpoint.text endpoint.port env with ⟨started, client⟩
  rw [hresult] at hinit
  cases started with
  | false => exact hinit
  | true => exact hinit.trans (of_learns (.rearmPeers ..))

theorem processControlPacket (sourcePeerId : UInt32) (data : Bytes) (env : NodeEnv)
    (node : ZP2PNode) : Grows node (node.processControlPacket resolve sourcePeerId data env).1 := by
  unfold ZP2PNode.processControlPacket
  cases hheader : readControlHeader data with
  | error e => exact refl node
  | ok found =>
      obtain ⟨kind, cursor⟩ := found
      -- every kind reads its body and tests it before the node changes, hence two splits in each
      cases kind with
      | invalid => exact refl node
      | joinHello =>
          dsimp only
          split
          · exact refl node
          · split
            · exact refl node
            · exact of_learns (.rememberPeer ..)
      | welcome =>
          dsimp only
          split
          · exact refl node
          · split
            · exact refl node
            · exact of_eq rfl
      | peerRoster =>
          dsimp only
          split
          · exact refl node
          · split
            · exact refl node
            · exact of_learns (.processRoster ..)
      | hostTransition =>
          dsimp only
          split
          · exact refl node
          · split
            · exact refl node
            · split
              · exact promoteToHost ..
              · exact reconnectToHost ..
      | keepAlive | punchAck =>
          dsimp only
          split
          · exact refl node
          · split
            · exact refl node
            · exact of_learns (.updatePunchPeer ..)
      | punchProbe =>
          dsimp only
          split
          · exact refl node
          · split
            · exact refl node
            · exact of_learns (((Learns.updatePunchPeer ..).trans (Learns.armPunchProbe ..)).trans
                (Learns.pushControlPacketToAddress ..))

theorem step {node after : ZP2PNode} {e : NodeEvent}
    (hstep : (machine resolve).step node e = some after) : Grows node after := by
  cases e with
  | begin port env =>
      obtain rfl := Option.some.inj hstep
      unfold ZP2PNode.begin
      split
      · exact refl node
      · have hinit := initAsHost resolve port env
          ({ node with localPort := port }.forgetPublicEndpoint)
        exact (of_eq rfl).trans hinit
  | connect hostIp hostPort localPort env =>
      obtain rfl := Option.some.inj hstep
      have hinit := initAsClient resolve hostIp hostPort env { node with localPort }
      unfold ZP2PNode.connect
      split
      · exact refl node
      · rcases hresult : ({ node with localPort } : ZP2PNode).initAsClient resolve hostIp hostPort
          env with ⟨started, client⟩
        rw [hresult] at hinit
        cases started with
        | false => exact hinit
        | true => exact hinit
  | becomeHost env =>
      obtain rfl := Option.some.inj hstep
      exact promoteToHost resolve true env node
  | ingest source =>
      obtain rfl := Option.some.inj hstep
      exact of_learns (.rememberPeer source node)
  | process sourcePeerId data env =>
      obtain rfl := Option.some.inj hstep
      exact processControlPacket resolve sourcePeerId data env node
  | tick now =>
      obtain rfl := Option.some.inj hstep
      exact of_learns (.tickNatPunchthrough now node)

end Roles

end Grows

/-- In no run does a node lose a peer or an id. -/
theorem grown_of_exec {resolve : Bytes → UInt16 → Option Address} {events : List NodeEvent}
    {node : ZP2PNode} (hexec : (machine resolve).exec init events = some node) :
    node.peerMapping.Grown :=
  Machine.invariant_of_exec (fun _ _ _ h hstep => (Grows.step resolve hstep).grown h)
    ZPeerMapping.grown_empty hexec

end ZP2PNode

end ZetaNet
