import ZetaNet.P2P.Node

/-!
# What a node's handlers leave alone

Only three things change a node's role: becoming a host, becoming a client, and a
`HostTransition` that is taken. Everything else at most adds peers and changes the state of
punching, and a `Welcome` sets the public endpoint of a client.
-/

namespace ZetaNet

open Wire Checks

namespace ZP2PNode

/-- The role of a node is the same, and no peer is forgotten. -/
structure SameRole (before after : ZP2PNode) : Prop where
  type : after.type = before.type
  state : after.state = before.state
  localPort : after.localPort = before.localPort
  hostEndpoint : after.hostEndpoint = before.hostEndpoint
  peers : before.peerMapping.peerList <+: after.peerMapping.peerList

/-- So is what it knows of itself. -/
structure Kept (before after : ZP2PNode) : Prop extends SameRole before after where
  publicEndpoint : after.publicEndpoint = before.publicEndpoint
  hasPublicEndpoint : after.hasPublicEndpoint = before.hasPublicEndpoint

theorem SameRole.trans {a b c : ZP2PNode} (h : SameRole a b) (h' : SameRole b c) :
    SameRole a c where
  type := h'.type.trans h.type
  state := h'.state.trans h.state
  localPort := h'.localPort.trans h.localPort
  hostEndpoint := h'.hostEndpoint.trans h.hostEndpoint
  peers := h.peers.trans h'.peers

namespace Kept

theorem refl (node : ZP2PNode) : Kept node node :=
  ⟨⟨rfl, rfl, rfl, rfl, List.prefix_rfl⟩, rfl, rfl⟩

theorem trans {a b c : ZP2PNode} (h : Kept a b) (h' : Kept b c) : Kept a c where
  toSameRole := h.toSameRole.trans h'.toSameRole
  publicEndpoint := h'.publicEndpoint.trans h.publicEndpoint
  hasPublicEndpoint := h'.hasPublicEndpoint.trans h.hasPublicEndpoint

theorem isSelfAddress {before after : ZP2PNode} (h : Kept before after) (address : Address) :
    after.isSelfAddress address = before.isSelfAddress address := by
  unfold ZP2PNode.isSelfAddress
  rw [h.hasPublicEndpoint, h.publicEndpoint, h.localPort]

theorem rememberPeer (address : Address) (node : ZP2PNode) :
    Kept node (node.rememberPeer address) :=
  ⟨⟨rfl, rfl, rfl, rfl, ZPeerMapping.prefix_getOrCreatePeer address node.peerMapping⟩, rfl, rfl⟩

end Kept

/-- Peers are found or made, and the state of punching changes. -/
inductive Learns : ZP2PNode → ZP2PNode → Prop
  | refl (node : ZP2PNode) : Learns node node
  | trans {a b c : ZP2PNode} (h : Learns a b) (h' : Learns b c) : Learns a c
  | rememberPeer (address : Address) (node : ZP2PNode) : Learns node (node.rememberPeer address)
  | punching (lastHostKeepaliveTime : Nat) (punchPeers : List PunchPeerState) (node : ZP2PNode) :
      Learns node { node with lastHostKeepaliveTime, punchPeers }

namespace Learns

theorem kept {before after : ZP2PNode} (h : Learns before after) : Kept before after := by
  induction h with
  | refl node => exact Kept.refl node
  | trans _ _ ih ih' => exact ih.trans ih'
  | rememberPeer address node => exact Kept.rememberPeer address node
  | punching => exact ⟨⟨rfl, rfl, rfl, rfl, List.prefix_rfl⟩, rfl, rfl⟩

theorem updatePunchPeer (now : Nat) (endpoint : Address)
    (change : PunchPeerState → PunchPeerState) (node : ZP2PNode) :
    Learns node (node.updatePunchPeer now endpoint change) :=
  punching node.lastHostKeepaliveTime _ node

theorem armPunchProbe (now : Nat) (endpoint : Address) (node : ZP2PNode) :
    Learns node (node.armPunchProbe now endpoint) := by
  unfold ZP2PNode.armPunchProbe
  split
  · exact refl node
  · split
    · exact refl node
    · exact updatePunchPeer ..

theorem pushControlPacketToAddress (destination : Address) (payload : Bytes) (node : ZP2PNode) :
    Learns node (node.pushControlPacketToAddress destination payload).1 := by
  have hlearns := rememberPeer destination node
  unfold ZP2PNode.rememberPeer at hlearns
  unfold ZP2PNode.pushControlPacketToAddress
  rcases hpeers : node.peerMapping.getOrCreatePeer destination with ⟨found, peerMapping⟩
  rw [hpeers] at hlearns
  cases found with
  | none => exact hlearns
  | some peer => exact hlearns

theorem rearmPeer (now : Nat) (node : ZP2PNode) (address : Address) :
    Learns node (node.rearmPeer now address) := by
  unfold ZP2PNode.rearmPeer
  split
  · exact refl node
  · exact (rememberPeer address node).trans (armPunchProbe ..)

theorem rearmPeers (now : Nat) (peers : List Address) (node : ZP2PNode) :
    Learns node (node.rearmPeers now peers) := by
  induction peers generalizing node with
  | nil => exact refl node
  | cons address peers ih => exact (rearmPeer now node address).trans (ih _)

theorem processRoster (now : Nat) (data : Bytes) (count cursor : Nat) (node : ZP2PNode) :
    Learns node (node.processRoster now data count cursor) := by
  induction count generalizing cursor node with
  | zero => exact refl node
  | succ count ih =>
      unfold ZP2PNode.processRoster
      split
      · exact refl node
      · split
        · exact ih _ node
        · refine trans ?_ (ih _ _)
          split
          · exact (rememberPeer _ node).trans (armPunchProbe ..)
          · exact rememberPeer _ node

theorem tickPunchPeer (now : Nat) (state : PunchPeerState) (node : ZP2PNode) :
    Learns node (tickPunchPeer now state node).2.1 := by
  unfold ZP2PNode.tickPunchPeer
  split
  · exact refl node
  · split
    · exact refl node
    · split
      · split
        · exact pushControlPacketToAddress ..
        · exact refl node
      · split
        · exact pushControlPacketToAddress ..
        · exact refl node

theorem tickPunchPeers (now : Nat) (states : List PunchPeerState) (node : ZP2PNode) :
    Learns node (tickPunchPeers now states node).2.1 := by
  induction states generalizing node with
  | nil => exact refl node
  | cons state states ih => exact (tickPunchPeer now state node).trans (ih _)

theorem tickHostKeepAlive (now : Nat) (node : ZP2PNode) :
    Learns node (node.tickHostKeepAlive now).1 := by
  unfold ZP2PNode.tickHostKeepAlive
  split
  · exact (pushControlPacketToAddress node.hostEndpoint _ node).trans (punching now _ _)
  · exact refl node

theorem tickNatPunchthrough (now : Nat) (node : ZP2PNode) :
    Learns node (node.tickNatPunchthrough now).1 := by
  unfold ZP2PNode.tickNatPunchthrough
  split
  · exact refl node
  · have hpeers := (tickHostKeepAlive now node).trans
      (tickPunchPeers now (node.tickHostKeepAlive now).1.punchPeers (node.tickHostKeepAlive now).1)
    exact hpeers.trans (punching _ _ _)

end Learns

/-! ## What is sent -/

/-- The payload announces a new host. -/
def isTransition (payload : Bytes) : Bool :=
  match readControlHeader payload with
  | .ok (.hostTransition, _) => true
  | _ => false

/-- None of the packets announces a new host. -/
def NoTransition (sends : List ControlSend) : Prop :=
  ∀ send ∈ sends, isTransition send.payload = false

theorem noTransition_nil : NoTransition [] := fun _ h => absurd h List.not_mem_nil

theorem NoTransition.append {sends sends' : List ControlSend} (h : NoTransition sends)
    (h' : NoTransition sends') : NoTransition (sends ++ sends') := by
  intro send hsend
  rcases List.mem_append.mp hsend with hsend | hsend
  · exact h send hsend
  · exact h' send hsend

theorem isTransition_controlHeader {kind : ControlKind} (hkind : kind ≠ .hostTransition)
    (back : Bytes) : isTransition (controlHeader kind ++ back) = false := by
  unfold isTransition
  rw [readControlHeader_controlHeader]
  cases kind <;> first | rfl | exact absurd rfl hkind

theorem payload_of_mem_push {id : UInt32} {payload : Bytes} {node : ZP2PNode}
    {send : ControlSend} (h : send ∈ node.pushControlPacket id payload) :
    send.payload = payload := by
  unfold pushControlPacket at h
  split at h
  · cases h
  · obtain ⟨target, -, rfl⟩ := List.mem_map.mp h
    rfl

/-- A payload of another kind, to any id. -/
theorem noTransition_push {kind : ControlKind} (hkind : kind ≠ .hostTransition) (back : Bytes)
    (id : UInt32) (node : ZP2PNode) :
    NoTransition (node.pushControlPacket id (controlHeader kind ++ back)) := by
  intro send hsend
  rw [payload_of_mem_push hsend]
  exact isTransition_controlHeader hkind back

theorem noTransition_pushToAddress {kind : ControlKind} (hkind : kind ≠ .hostTransition)
    (destination : Address) (node : ZP2PNode) :
    NoTransition (node.pushControlPacketToAddress destination (controlHeader kind)).2 := by
  have hpush := noTransition_push hkind []
  rw [List.append_nil] at hpush
  unfold pushControlPacketToAddress
  split
  · exact noTransition_nil
  · exact hpush _ _

theorem noTransition_sendJoinHello (node : ZP2PNode) : NoTransition node.sendJoinHello :=
  noTransition_push (by decide) _ _ node

/-- An address record extends the buffer. -/
theorem serializeAddress_extends {buffer result : Bytes} {address : Address}
    (h : serializeAddress buffer address = some result) : ∃ back, result = buffer ++ back := by
  unfold serializeAddress at h
  dsimp only at h
  split at h
  · cases h
  · obtain rfl := Option.some.inj h
    exact ⟨_, by rw [appendU16, List.append_assoc, List.append_assoc]⟩

theorem serializeAddresses_extends {buffer result : Bytes} {addresses : List Address}
    (h : serializeAddresses buffer addresses = some result) :
    ∃ back, result = buffer ++ back := by
  induction addresses generalizing buffer with
  | nil => exact ⟨[], by rw [List.append_nil, ← Option.some.inj h]⟩
  | cons address addresses ih =>
      obtain ⟨mid, hmid, hrest⟩ := Option.bind_eq_some_iff.mp h
      obtain ⟨front, rfl⟩ := serializeAddress_extends hmid
      obtain ⟨back, rfl⟩ := ih hrest
      exact ⟨front ++ back, List.append_assoc ..⟩

theorem noTransition_broadcastPeerRoster (node : ZP2PNode) :
    NoTransition node.broadcastPeerRoster := by
  unfold broadcastPeerRoster
  split
  · exact noTransition_nil
  split
  · exact noTransition_nil
  · rename_i payload hpayload
    unfold rosterPayload at hpayload
    dsimp only at hpayload
    split at hpayload
    · cases hpayload
    · obtain ⟨back, rfl⟩ := serializeAddresses_extends hpayload
      rw [appendU16, List.append_assoc]
      exact noTransition_push (by decide) _ _ node

theorem noTransition_sendWelcome (peer : ZPeer Address) (node : ZP2PNode) :
    NoTransition (node.sendWelcome peer) := by
  unfold sendWelcome
  split
  · exact noTransition_nil
  · rename_i payload hpayload
    obtain ⟨back, rfl⟩ := serializeAddress_extends hpayload
    exact noTransition_push (by decide) _ _ node

theorem noTransition_tickPunchPeer (now : Nat) (state : PunchPeerState) (node : ZP2PNode) :
    NoTransition (tickPunchPeer now state node).2.2 := by
  unfold tickPunchPeer
  split
  · exact noTransition_nil
  · split
    · exact noTransition_nil
    · split
      · split
        · exact noTransition_pushToAddress (by decide) _ node
        · exact noTransition_nil
      · split
        · exact noTransition_pushToAddress (by decide) _ node
        · exact noTransition_nil

theorem noTransition_tickPunchPeers (now : Nat) (states : List PunchPeerState)
    (node : ZP2PNode) : NoTransition (tickPunchPeers now states node).2.2 := by
  induction states generalizing node with
  | nil => exact noTransition_nil
  | cons state states ih => exact (noTransition_tickPunchPeer now state node).append (ih _)

theorem noTransition_tickNatPunchthrough (now : Nat) (node : ZP2PNode) :
    NoTransition (node.tickNatPunchthrough now).2 := by
  unfold tickNatPunchthrough
  split
  · exact noTransition_nil
  · refine NoTransition.append ?_ (noTransition_tickPunchPeers now _ _)
    unfold tickHostKeepAlive
    split
    · exact noTransition_pushToAddress (by decide) _ node
    · exact noTransition_nil

/-! ## Changes of role -/

section Roles

variable (resolve : Bytes → UInt16 → Option Address)

theorem promoteToHost_of_host {node : ZP2PNode} (htype : node.type = .host)
    (hstate : node.state = .connected) (announceTransition : Bool) (env : NodeEnv) :
    node.promoteToHost resolve announceTransition env = (true, node, []) :=
  if_pos ⟨htype, hstate⟩

/-- A promotion that is not announced announces nothing. -/
theorem noTransition_promoteToHost (env : NodeEnv) (node : ZP2PNode) :
    NoTransition (node.promoteToHost resolve false env).2.2 := by
  unfold promoteToHost
  split
  · exact noTransition_nil
  split
  · exact noTransition_nil
  dsimp only
  rw [if_neg (fun h => Bool.false_ne_true h.1)]
  split
  · exact noTransition_nil
  · exact noTransition_nil.append (noTransition_broadcastPeerRoster _)

theorem noTransition_reconnectToHost (endpoint : Address) (env : NodeEnv) (node : ZP2PNode) :
    NoTransition (node.reconnectToHost resolve endpoint env).2.2 := by
  unfold reconnectToHost
  split
  · exact noTransition_promoteToHost resolve env node
  split
  · exact noTransition_nil
  · exact noTransition_sendJoinHello _

/-- A client that becomes host: it keeps what it knows of itself and its peers, and announces
itself to the peers it knows before its roster. -/
theorem becomeHost_of_client {node : ZP2PNode} {endpoint : Address} {env : NodeEnv}
    (htype : node.type = .client) (hstate : node.state = .connected) (hport : node.localPort ≠ 0)
    (hopens : env.opens = true) (hown : node.ownEndpoint resolve node.localPort = some endpoint) :
    ∃ host roster, node.becomeHost resolve env =
        (host, node.broadcastHostTransition endpoint ++ roster) ∧
      NoTransition roster ∧
      Kept { node with type := .host, hostEndpoint := endpoint } host := by
  have hinit : node.initAsHost resolve node.localPort env =
      (true, node.reset.enterRole .host endpoint env.now) := by
    have hown' : node.reset.ownEndpoint resolve node.localPort = some endpoint := hown
    unfold initAsHost
    rw [hopens]
    simp only [Bool.not_true, Bool.false_eq_true, if_false, hown']
  have hkept : Kept { node with type := .host, hostEndpoint := endpoint }
      (node.reset.enterRole .host endpoint env.now) :=
    ⟨⟨rfl, hstate.symm, rfl, rfl, List.prefix_rfl⟩, rfl, rfl⟩
  let host := (node.reset.enterRole .host endpoint env.now).rearmPeers env.now node.knownPeers
  refine ⟨host, host.broadcastPeerRoster, ?_, noTransition_broadcastPeerRoster host,
    hkept.trans (Learns.rearmPeers ..).kept⟩
  unfold becomeHost promoteToHost
  rw [if_neg (by rw [htype]; rintro ⟨h, -⟩; cases h), if_neg hport]
  dsimp only
  rw [if_pos ⟨rfl, hstate⟩, hown]
  dsimp only
  rw [hinit]

/-- A node that follows another host. -/
theorem reconnectToHost_of_resolves {node : ZP2PNode} {endpoint host : Address} {env : NodeEnv}
    (hself : node.isSelfAddress endpoint = false) (hopens : env.opens = true)
    (hresolve : resolve endpoint.text endpoint.port = some host) :
    (node.reconnectToHost resolve endpoint env).2.1.type = .client ∧
      (node.reconnectToHost resolve endpoint env).2.1.hostEndpoint = host := by
  have hinit : node.initAsClient resolve endpoint.text endpoint.port env =
      (true, node.reset.forgetPublicEndpoint.enterRole .client host env.now) := by
    unfold initAsClient
    rw [hopens]
    simp only [Bool.not_true, Bool.false_eq_true, if_false, hresolve]
  unfold reconnectToHost
  rw [if_neg (by rw [hself]; exact Bool.false_ne_true), hinit]
  have hkept := (Learns.rearmPeers env.now node.knownPeers
    (node.reset.forgetPublicEndpoint.enterRole .client host env.now)).kept
  exact ⟨hkept.type, hkept.hostEndpoint⟩

/-- An endpoint that does not resolve makes no client. -/
theorem reconnectToHost_of_unresolved {node : ZP2PNode} {endpoint : Address} {env : NodeEnv}
    (hself : node.isSelfAddress endpoint = false)
    (hresolve : resolve endpoint.text endpoint.port = none) :
    (node.reconnectToHost resolve endpoint env).2.1.type = node.type := by
  unfold reconnectToHost
  rw [if_neg (by rw [hself]; exact Bool.false_ne_true)]
  unfold initAsClient
  rw [hresolve]
  cases env.opens <;> rfl

/-! ## A control packet -/

/-- What a control packet does: the role stays, also what a host knows of itself, and no host is
announced; or it is a transition, and the node turns to the new host. -/
theorem processControlPacket_cases (sourcePeerId : UInt32) (data : Bytes) (env : NodeEnv)
    (node : ZP2PNode) :
    let result := node.processControlPacket resolve sourcePeerId data env
    (SameRole node result.1 ∧ (node.type = .host → Kept node result.1) ∧
      NoTransition result.2) ∨
    (isTransition data = true ∧
      ¬ (node.type = .client ∧
        node.fromHost (node.peerMapping.getPeer sourcePeerId) = false) ∧
      ∃ nextHost, result = (node.reconnectToHost resolve nextHost env).2) := by
  have kept {result : ZP2PNode × List ControlSend} (hkept : Kept node result.1)
      (hsends : NoTransition result.2) : SameRole node result.1 ∧
        (node.type = .host → Kept node result.1) ∧ NoTransition result.2 :=
    ⟨hkept.toSameRole, fun _ => hkept, hsends⟩
  have hsame := @kept (node, []) (Kept.refl node) noTransition_nil
  unfold processControlPacket
  cases hheader : readControlHeader data with
  | error e => exact .inl hsame
  | ok found =>
      obtain ⟨kind, cursor⟩ := found
      cases kind with
      | invalid => exact .inl hsame
      | joinHello =>
          dsimp only
          split
          · exact .inl hsame
          · split
            · exact .inl hsame
            · refine .inl (kept (Kept.rememberPeer ..) (NoTransition.append ?_ ?_))
              · exact noTransition_sendWelcome _ _
              · exact noTransition_broadcastPeerRoster _
      | welcome =>
          dsimp only
          split
          · exact .inl hsame
          · rename_i hclient
            obtain ⟨hclient, -⟩ := not_or.mp hclient
            split
            · exact .inl hsame
            · refine .inl ⟨⟨rfl, rfl, rfl, rfl, List.prefix_rfl⟩, fun hhost => ?_, noTransition_nil⟩
              -- a host takes no `Welcome`
              rw [hhost] at hclient
              exact absurd (fun h => by cases h) hclient
      | peerRoster =>
          dsimp only
          split
          · exact .inl hsame
          · split
            · exact .inl hsame
            · exact .inl (kept (Learns.processRoster ..).kept noTransition_nil)
      | hostTransition =>
          dsimp only
          split
          · exact .inl hsame
          · rename_i hforeign
            rw [Bool.not_eq_true'] at hforeign
            split
            · exact .inl hsame
            · rename_i nextHost _ _
              -- the one handler that changes roles
              refine .inr ⟨?_, hforeign, nextHost, ?_⟩
              · unfold isTransition
                rw [hheader]
              · unfold reconnectToHost
                split <;> rfl
      | keepAlive =>
          dsimp only
          split
          · exact .inl hsame
          · split
            · exact .inl hsame
            · exact .inl (kept (Learns.updatePunchPeer ..).kept noTransition_nil)
      | punchProbe =>
          dsimp only
          split
          · exact .inl hsame
          · split
            · exact .inl hsame
            · refine .inl (kept ?_ (noTransition_pushToAddress (by decide) _ _))
              exact (((Learns.updatePunchPeer ..).trans (Learns.armPunchProbe ..)).trans
                (Learns.pushControlPacketToAddress ..)).kept
      | punchAck =>
          dsimp only
          split
          · exact .inl hsame
          · split
            · exact .inl hsame
            · exact .inl (kept (Learns.updatePunchPeer ..).kept noTransition_nil)

/-! ## Orders of a host -/

/-- What only its host may change about a client. -/
structure Untouched (before after : ZP2PNode) : Prop where
  type : after.type = before.type
  localPort : after.localPort = before.localPort
  hostEndpoint : after.hostEndpoint = before.hostEndpoint
  publicEndpoint : after.publicEndpoint = before.publicEndpoint
  hasPublicEndpoint : after.hasPublicEndpoint = before.hasPublicEndpoint
  peerMapping : after.peerMapping = before.peerMapping

theorem untouched_updatePunchPeer (now : Nat) (endpoint : Address)
    (change : PunchPeerState → PunchPeerState) (node : ZP2PNode) :
    Untouched node (node.updatePunchPeer now endpoint change) :=
  ⟨rfl, rfl, rfl, rfl, rfl, rfl⟩

theorem Untouched.armPunchProbe {before after : ZP2PNode} (h : Untouched before after)
    (now : Nat) (endpoint : Address) : Untouched before (after.armPunchProbe now endpoint) := by
  unfold ZP2PNode.armPunchProbe
  split
  · exact h
  · split
    · exact h
    · exact ⟨h.type, h.localPort, h.hostEndpoint, h.publicEndpoint, h.hasPublicEndpoint,
        h.peerMapping⟩

/-- An answer to a peer of the table adds nobody to it. -/
theorem Untouched.pushControlPacketToAddress {before after : ZP2PNode}
    (h : Untouched before after) {peer : ZPeer Address}
    (hpeer : peer ∈ before.peerMapping.peerList) (payload : Bytes) :
    Untouched before (after.pushControlPacketToAddress peer.address payload).1 := by
  unfold ZP2PNode.pushControlPacketToAddress
  rw [h.peerMapping]
  rcases ZPeerMapping.getOrCreatePeer_cases peer.address before.peerMapping with
    ⟨found, heq, -⟩ | ⟨grown, -, -, -, -, -, hnew⟩ | ⟨-, -, hnew⟩
  · rw [heq]
    exact ⟨h.type, h.localPort, h.hostEndpoint, h.publicEndpoint, h.hasPublicEndpoint, rfl⟩
  · exact absurd rfl (hnew peer hpeer)
  · exact absurd rfl (hnew peer hpeer)

/-- A client takes orders from its host alone: the control packets of others at most change
what it knows about punching. -/
theorem untouched_by_foreign_packet {node : ZP2PNode} (hclient : node.type = .client)
    {sourcePeerId : UInt32}
    (hforeign : ∀ peer, node.peerMapping.getPeer sourcePeerId = some peer →
      peer.address ≠ node.hostEndpoint) (data : Bytes) (env : NodeEnv) :
    Untouched node (node.processControlPacket resolve sourcePeerId data env).1 := by
  have hsame : Untouched node node := ⟨rfl, rfl, rfl, rfl, rfl, rfl⟩
  -- the sender is not the host, whatever it claims
  have hnotHost : node.fromHost (node.peerMapping.getPeer sourcePeerId) = false := by
    cases hpeer : node.peerMapping.getPeer sourcePeerId with
    | none => rfl
    | some peer => exact decide_eq_false (hforeign peer hpeer)
  have hpunch (now : Nat) (endpoint : Address) (change : PunchPeerState → PunchPeerState) :=
    untouched_updatePunchPeer now endpoint change node
  unfold processControlPacket
  cases hheader : readControlHeader data with
  | error e => exact hsame
  | ok found =>
      obtain ⟨kind, cursor⟩ := found
      cases kind with
      | invalid => exact hsame
      | joinHello =>
          dsimp only
          split
          · exact hsame
          -- only a host answers a hello
          · rw [if_pos (by rw [hclient]; decide)]
            exact hsame
      | welcome =>
          dsimp only
          rw [if_pos (.inr (by rw [hnotHost]; rfl))]
          exact hsame
      | peerRoster | hostTransition =>
          dsimp only
          rw [if_pos ⟨hclient, by rw [hnotHost]; rfl⟩]
          exact hsame
      | keepAlive | punchAck =>
          dsimp only
          split
          · exact hsame
          · split
            · exact hsame
            · exact hpunch ..
      | punchProbe =>
          dsimp only
          split
          · exact hsame
          · rename_i peer hpeer
            split
            · exact hsame
            -- the answer goes to a peer of the table, so the table stays
            · exact ((hpunch ..).armPunchProbe ..).pushControlPacketToAddress
                (ZPeerMapping.getPeer_eq_some.mp hpeer).1 _

/-- A client of a host that also knows another peer, which probes it. -/
def clientOfTwo : ZP2PNode :=
  ({ ZP2PNode.init with
      type := .client
      state := .connected
      localPort := 7000
      hostEndpoint := Address.ofText kLoopbackText 7001 AddressFamily.inet.toU8 }.rememberPeer
    (Address.ofText kLoopbackText 7001 AddressFamily.inet.toU8)).rememberPeer
      (Address.ofText kLoopbackText 7002 AddressFamily.inet.toU8)

/-- The probe is answered, and the client is what it was. -/
theorem untouched_by_foreign_packet_probe :
    (clientOfTwo.processControlPacket (fun _ _ => none) 1 (controlHeader .punchProbe)
        ⟨5, true⟩).2.length = 1 ∧
      Untouched clientOfTwo (clientOfTwo.processControlPacket (fun _ _ => none) 1
        (controlHeader .punchProbe) ⟨5, true⟩).1 :=
  ⟨by decide +kernel, untouched_by_foreign_packet (fun _ _ => none) rfl (by decide)
    (controlHeader .punchProbe) ⟨5, true⟩⟩

end Roles

end ZP2PNode

end ZetaNet
