import ZetaNet.P2P.Control
import ZetaNet.Peer.Mapping
import ZetaNet.Transport.Layer

/-!
# `ZP2PNode`

The control side of a peer-to-peer node, from `z_p2p_node.cc`. Every function returns the node
it leaves and the control packets it sends, each already addressed as `DispatchPacket` does it:
to the server, to one peer of the table or to each of them. Times are in milliseconds; the
queues of packets that wait for the application are left out.
-/

namespace ZetaNet

open Wire Checks

/-- `kMaxPunchProbeAttempts` and the three intervals. -/
def kMaxPunchProbeAttempts : UInt32 := 12
def kPunchProbeInterval : Nat := 120
def kPeerKeepAliveInterval : Nat := 10000
def kHostKeepAliveInterval : Nat := 2000

/-- `"127.0.0.1"`, `"0.0.0.0"` and `"::1"`. -/
def kLoopbackText : Bytes := [49, 50, 55, 46, 48, 46, 48, 46, 49]
def kAnyText : Bytes := [48, 46, 48, 46, 48, 46, 48]
def kLoopback6Text : Bytes := [58, 58, 49]

/-- `advertised_ip_`, which nothing changes. -/
def advertisedIp : Bytes := kLoopbackText

structure PunchPeerState where
  address : Address
  attemptsSent : UInt32
  acknowledged : Bool
  nextProbeTime : Nat
  lastKeepaliveTime : Nat
  deriving DecidableEq

/-- `ZP2PNode::Type`. -/
inductive NodeType
  | host
  | client
  deriving DecidableEq, Repr

structure ZP2PNode where
  type : NodeType
  state : State
  localPort : UInt16
  hostEndpoint : Address
  publicEndpoint : Address
  hasPublicEndpoint : Bool
  lastHostKeepaliveTime : Nat
  punchPeers : List PunchPeerState
  peerMapping : ZPeerMapping Address

/-- A control packet and the address it goes to. -/
structure ControlSend where
  target : Address
  payload : Bytes
  deriving DecidableEq

/-- What a call of the node finds outside: the clock, and whether the socket it asks for can be
bound and its threads started. -/
structure NodeEnv where
  now : Nat
  opens : Bool

namespace ZP2PNode

/-- A node nothing has been done with. -/
def init : ZP2PNode where
  type := .host
  state := .disconnected
  localPort := 0
  hostEndpoint := Address.init
  publicEndpoint := Address.init
  hasPublicEndpoint := false
  lastHostKeepaliveTime := 0
  punchPeers := []
  peerMapping := ZPeerMapping.empty

/-- `memset` of an address to zero. -/
def clearedAddress : Address := Address.ofText [] 0 0

/-- `IsSelfAddress`. -/
def isSelfAddress (address : Address) (node : ZP2PNode) : Bool :=
  if node.hasPublicEndpoint ∧ address = node.publicEndpoint then true
  else if node.localPort = 0 ∨ address.port ≠ node.localPort then false
  else address.text = kLoopbackText ∨ address.text = kAnyText ∨ address.text = kLoopback6Text

/-- `GetOrCreatePeer` for its effect. -/
def rememberPeer (address : Address) (node : ZP2PNode) : ZP2PNode :=
  { node with peerMapping := (node.peerMapping.getOrCreatePeer address).2 }

/-! ## Sending -/

/-- The addresses a packet to the id goes to; `CreateClient` resolves the socket's server from
the name and port that `host_endpoint_` is resolved from. -/
def destinations (destinationPeerId : UInt32) (node : ZP2PNode) : List Address :=
  if destinationPeerId = ZPeerId.toServer then [node.hostEndpoint]
  else if destinationPeerId = ZPeerId.toAll then node.peerMapping.peerList.map ZPeer.address
  else ((node.peerMapping.getPeer destinationPeerId).map ZPeer.address).toList

/-- `PushControlPacket`. -/
def pushControlPacket (destinationPeerId : UInt32) (payload : Bytes) (node : ZP2PNode) :
    List ControlSend :=
  if node.state ≠ .connected then []
  else (node.destinations destinationPeerId).map fun target => ⟨target, payload⟩

/-- `PushControlPacketToAddress`. -/
def pushControlPacketToAddress (destination : Address) (payload : Bytes) (node : ZP2PNode) :
    ZP2PNode × List ControlSend :=
  match node.peerMapping.getOrCreatePeer destination with
  | (none, peerMapping) => ({ node with peerMapping }, [])
  | (some peer, peerMapping) =>
      let node := { node with peerMapping }
      (node, node.pushControlPacket peer.identifier payload)

/-- `SendJoinHello`. -/
def sendJoinHello (node : ZP2PNode) : List ControlSend :=
  node.pushControlPacket ZPeerId.toServer
    (appendU16 (controlHeader .joinHello) node.localPort)

/-- The addresses of the peer table that are not the node's own. -/
def knownPeers (node : ZP2PNode) : List Address :=
  (node.peerMapping.peerList.map ZPeer.address).filter fun address =>
    !node.isSelfAddress address

/-- The payload `BroadcastPeerRoster` builds, `none` where it gives up. -/
def rosterPayload (node : ZP2PNode) : Option Bytes :=
  let roster := node.knownPeers
  if roster.length > 0xFFFF then none
  else
    serializeAddresses (appendU16 (controlHeader .peerRoster) (UInt16.ofNat roster.length))
      roster

/-- `BroadcastPeerRoster`. -/
def broadcastPeerRoster (node : ZP2PNode) : List ControlSend :=
  if node.type ≠ .host then []
  else
    match node.rosterPayload with
    | none => []
    | some payload => node.pushControlPacket ZPeerId.toAll payload

/-- `BroadcastHostTransition`. -/
def broadcastHostTransition (endpoint : Address) (node : ZP2PNode) : List ControlSend :=
  match serializeAddress (controlHeader .hostTransition) endpoint with
  | none => []
  | some payload => node.pushControlPacket ZPeerId.toAll payload

/-- `SendWelcome`. -/
def sendWelcome (peer : ZPeer Address) (node : ZP2PNode) : List ControlSend :=
  match serializeAddress (controlHeader .welcome) peer.address with
  | none => []
  | some payload => node.pushControlPacket peer.identifier payload

/-- `SendPunchProbe`, `SendPunchAck` and `SendKeepAlive`: a header to an address. -/
def sendPunchProbe (endpoint : Address) : ZP2PNode → ZP2PNode × List ControlSend :=
  pushControlPacketToAddress endpoint (controlHeader .punchProbe)
def sendPunchAck (endpoint : Address) : ZP2PNode → ZP2PNode × List ControlSend :=
  pushControlPacketToAddress endpoint (controlHeader .punchAck)
def sendKeepAlive (endpoint : Address) : ZP2PNode → ZP2PNode × List ControlSend :=
  pushControlPacketToAddress endpoint (controlHeader .keepAlive)

/-! ## Punching -/

/-- `GetOrCreatePunchPeerState`, and `change` of the state it returns. -/
def updatePunchPeer (now : Nat) (endpoint : Address) (change : PunchPeerState → PunchPeerState)
    (node : ZP2PNode) : ZP2PNode :=
  let rec go : List PunchPeerState → List PunchPeerState
    | [] => [change ⟨endpoint, 0, false, now, now⟩]
    | state :: states =>
        if state.address = endpoint then change state :: states else state :: go states
  { node with punchPeers := go node.punchPeers }

/-- `ArmPunchProbe`. -/
def armPunchProbe (now : Nat) (endpoint : Address) (node : ZP2PNode) : ZP2PNode :=
  if node.isSelfAddress endpoint then node
  else if node.type = .client ∧ endpoint = node.hostEndpoint then node
  else
    node.updatePunchPeer now endpoint fun state =>
      if state.acknowledged then state
      else
        { state with
          attemptsSent :=
            if state.attemptsSent ≥ kMaxPunchProbeAttempts then 0 else state.attemptsSent
          nextProbeTime := now }

/-- The body of the peer loop in `TickNatPunchthrough`. -/
def tickPunchPeer (now : Nat) (state : PunchPeerState) (node : ZP2PNode) :
    PunchPeerState × ZP2PNode × List ControlSend :=
  if node.isSelfAddress state.address then (state, node, [])
  else if node.type = .client ∧ state.address = node.hostEndpoint then (state, node, [])
  else if !state.acknowledged then
    if state.attemptsSent < kMaxPunchProbeAttempts ∧ now ≥ state.nextProbeTime then
      let (node, sent) := node.sendPunchProbe state.address
      ({ state with
          attemptsSent := state.attemptsSent + 1
          nextProbeTime := now + kPunchProbeInterval
          lastKeepaliveTime := now }, node, sent)
    else (state, node, [])
  else if state.lastKeepaliveTime = 0 ∨ now - state.lastKeepaliveTime ≥ kPeerKeepAliveInterval
  then
    let (node, sent) := node.sendKeepAlive state.address
    ({ state with lastKeepaliveTime := now }, node, sent)
  else (state, node, [])

/-- The peer loop of `TickNatPunchthrough`. -/
def tickPunchPeers (now : Nat) :
    List PunchPeerState → ZP2PNode → List PunchPeerState × ZP2PNode × List ControlSend
  | [], node => ([], node, [])
  | state :: states, node =>
      let (state, node, sent) := tickPunchPeer now state node
      let (states, node, rest) := tickPunchPeers now states node
      (state :: states, node, sent ++ rest)

/-- The keep-alive of a client to its host. -/
def tickHostKeepAlive (now : Nat) (node : ZP2PNode) : ZP2PNode × List ControlSend :=
  if node.type = .client ∧ !node.isSelfAddress node.hostEndpoint ∧
      (node.lastHostKeepaliveTime = 0 ∨
        now - node.lastHostKeepaliveTime ≥ kHostKeepAliveInterval) then
    let (node, sent) := node.sendKeepAlive node.hostEndpoint
    ({ node with lastHostKeepaliveTime := now }, sent)
  else (node, [])

/-- `TickNatPunchthrough`. -/
def tickNatPunchthrough (now : Nat) (node : ZP2PNode) : ZP2PNode × List ControlSend :=
  if node.state ≠ .connected then (node, [])
  else
    let (node, hostSent) := node.tickHostKeepAlive now
    let (punchPeers, node, sent) := tickPunchPeers now node.punchPeers node
    ({ node with punchPeers }, hostSent ++ sent)

/-! ## Roles -/

section Roles

-- `ResolveAddress` of an IPv4 name
variable (resolve : Bytes → UInt16 → Option Address)

/-- `Deinit`, and the peers to punch forgotten. -/
def reset (node : ZP2PNode) : ZP2PNode := { node with state := .disconnected, punchPeers := [] }

/-- The public endpoint cleared. -/
def forgetPublicEndpoint (node : ZP2PNode) : ZP2PNode :=
  { node with hasPublicEndpoint := false, publicEndpoint := clearedAddress }

/-- `SetHostEndpoint` and the assignments behind it. -/
def enterRole (type : NodeType) (endpoint : Address) (now : Nat) (node : ZP2PNode) : ZP2PNode :=
  { node with
    hostEndpoint := endpoint
    type
    state := .connected
    lastHostKeepaliveTime := now }

/-- The endpoint a host gives for itself. -/
def ownEndpoint (port : UInt16) (node : ZP2PNode) : Option Address :=
  if node.hasPublicEndpoint then some node.publicEndpoint else resolve advertisedIp port

/-- `InitAsHost`. -/
def initAsHost (port : UInt16) (env : NodeEnv) (node : ZP2PNode) : Bool × ZP2PNode :=
  let node := node.reset
  if !env.opens then (false, node)
  else
    match node.ownEndpoint resolve port with
    | none => (false, node)
    | some endpoint => (true, node.enterRole .host endpoint env.now)

/-- `InitAsClient`; the socket binds the node's own port. -/
def initAsClient (hostIp : Bytes) (hostPort : UInt16) (env : NodeEnv) (node : ZP2PNode) :
    Bool × ZP2PNode :=
  let node := node.reset.forgetPublicEndpoint
  if !env.opens then (false, node)
  else
    match resolve hostIp hostPort with
    | none => (false, node)
    | some endpoint => (true, node.enterRole .client endpoint env.now)

/-- The body of the loop that takes a peer known before a change of role over into it. -/
def rearmPeer (now : Nat) (node : ZP2PNode) (address : Address) : ZP2PNode :=
  if node.isSelfAddress address then node
  else (node.rememberPeer address).armPunchProbe now address

def rearmPeers (now : Nat) (peers : List Address) (node : ZP2PNode) : ZP2PNode :=
  peers.foldl (rearmPeer now) node

/-- `PromoteToHost`. -/
def promoteToHost (announceTransition : Bool) (env : NodeEnv) (node : ZP2PNode) :
    Bool × ZP2PNode × List ControlSend :=
  if node.type = .host ∧ node.state = .connected then (true, node, [])
  else if node.localPort = 0 then (false, node, [])
  else
    let promote (announced : List ControlSend) : Bool × ZP2PNode × List ControlSend :=
      match node.initAsHost resolve node.localPort env with
      | (false, node) => (false, node, announced)
      | (true, host) =>
          let host := host.rearmPeers env.now node.knownPeers
          (true, host, announced ++ host.broadcastPeerRoster)
    if announceTransition ∧ node.state = .connected then
      match node.ownEndpoint resolve node.localPort with
      | none => (false, node, [])
      | some newHost => promote (node.broadcastHostTransition newHost)
    else promote []

/-- `ReconnectToHost`. -/
def reconnectToHost (endpoint : Address) (env : NodeEnv) (node : ZP2PNode) :
    Bool × ZP2PNode × List ControlSend :=
  if node.isSelfAddress endpoint then node.promoteToHost resolve false env
  else
    match node.initAsClient resolve endpoint.text endpoint.port env with
    | (false, node) => (false, node, [])
    | (true, client) =>
        let client := client.rearmPeers env.now node.knownPeers
        (true, client, client.sendJoinHello)

/-- `BecomeHost`. -/
def becomeHost (env : NodeEnv) (node : ZP2PNode) : ZP2PNode × List ControlSend :=
  (node.promoteToHost resolve true env).2

/-- `Begin`. -/
def begin (port : UInt16) (env : NodeEnv) (node : ZP2PNode) : Bool × ZP2PNode :=
  if port = 0 then (false, node)
  else
    ({ node with localPort := port }.forgetPublicEndpoint).initAsHost resolve port env

/-- `Connect`. -/
def connect (hostIp : Bytes) (hostPort localPort : UInt16) (env : NodeEnv) (node : ZP2PNode) :
    Bool × ZP2PNode × List ControlSend :=
  if hostPort = 0 ∨ localPort = 0 then (false, node, [])
  else
    match { node with localPort }.initAsClient resolve hostIp hostPort env with
    | (false, node) => (false, node, [])
    | (true, node) => (true, node, node.sendJoinHello)

/-! ## Control packets -/

/-- The packet comes from the host the client follows. -/
def fromHost (sourcePeer : Option (ZPeer Address)) (node : ZP2PNode) : Bool :=
  match sourcePeer with
  | none => false
  | some peer => peer.address = node.hostEndpoint

/-- The address loop of a `PeerRoster`. -/
def processRoster (now : Nat) (data : Bytes) : Nat → Nat → ZP2PNode → ZP2PNode
  | 0, _, node => node
  | count + 1, cursor, node =>
      match deserializeAddress data cursor with
      | .error _ => node
      | .ok (address, cursor) =>
          if node.isSelfAddress address then processRoster now data count cursor node
          else
            let known := node.rememberPeer address
            processRoster now data count cursor
              (if known.type = .client ∧ address ≠ known.hostEndpoint then
                known.armPunchProbe now address
              else known)

/-- `ProcessControlPacket`. -/
def processControlPacket (sourcePeerId : UInt32) (data : Bytes) (env : NodeEnv)
    (node : ZP2PNode) : ZP2PNode × List ControlSend :=
  match readControlHeader data with
  | .error _ => (node, [])
  | .ok (kind, cursor) =>
      let sourcePeer := node.peerMapping.getPeer sourcePeerId
      match kind with
      | .joinHello =>
          match sourcePeer with
          | none => (node, [])
          | some peer =>
              if node.type ≠ .host then (node, [])
              else
                -- the announced local port behind the kind is read and not used
                let known := node.rememberPeer peer.address
                (known, known.sendWelcome peer ++ known.broadcastPeerRoster)
      | .welcome =>
          if node.type ≠ .client ∨ !node.fromHost sourcePeer then (node, [])
          else
            match deserializeAddress data cursor with
            | .error _ => (node, [])
            | .ok (observedEndpoint, _) =>
                ({ node with publicEndpoint := observedEndpoint, hasPublicEndpoint := true }, [])
      | .peerRoster =>
          if node.type = .client ∧ !node.fromHost sourcePeer then (node, [])
          else
            match readU16 data cursor with
            | none => (node, [])
            | some (peerCount, cursor) =>
                (node.processRoster env.now data peerCount.toNat cursor, [])
      | .hostTransition =>
          if node.type = .client ∧ !node.fromHost sourcePeer then (node, [])
          else
            match deserializeAddress data cursor with
            | .error _ => (node, [])
            | .ok (nextHost, _) =>
                if node.isSelfAddress nextHost then (node.promoteToHost resolve false env).2
                else (node.reconnectToHost resolve nextHost env).2
      | .keepAlive =>
          match sourcePeer with
          | none => (node, [])
          | some peer =>
              if node.isSelfAddress peer.address then (node, [])
              else
                (node.updatePunchPeer env.now peer.address
                  fun state => { state with lastKeepaliveTime := env.now }, [])
      | .punchProbe =>
          match sourcePeer with
          | none => (node, [])
          | some peer =>
              if node.isSelfAddress peer.address then (node, [])
              else
                let node := node.updatePunchPeer env.now peer.address
                  fun state => { state with lastKeepaliveTime := env.now }
                (node.armPunchProbe env.now peer.address).sendPunchAck peer.address
      | .punchAck =>
          match sourcePeer with
          | none => (node, [])
          | some peer =>
              if node.isSelfAddress peer.address then (node, [])
              else
                (node.updatePunchPeer env.now peer.address
                  fun state =>
                    { state with acknowledged := true, lastKeepaliveTime := env.now }, [])
      | .invalid => (node, [])

end Roles

end ZP2PNode

end ZetaNet
