import ZetaNet.P2P.Roles
import ZetaNet.P2P.Session

/-!
# A client becomes host

The new host announces itself to everybody, but a client takes the announcement only from the
host it follows, and the old host passes it on to no one. With two nodes there is only the old
host to tell; a third node keeps following it.
-/

namespace ZetaNet

open Wire Checks ZP2PNode

variable {ι : Type} [DecidableEq ι] {net : Addressing ι}
  {resolve : Bytes → UInt16 → Option Address}

/-- The numeric name of the loopback interface resolves to itself. -/
def ResolvesLoopback (resolve : Bytes → UInt16 → Option Address) : Prop :=
  ∀ port, resolve kLoopbackText port =
    some (Address.ofText kLoopbackText port AddressFamily.inet.toU8)

namespace P2PSession

/-- One host, and every other node is a client of it. -/
structure Agree (net : Addressing ι) (host : ι) (s : P2PSession ι) : Prop where
  isHost : (s.node host).type = .host
  clients : ∀ i, i ≠ host →
    (s.node i).type = .client ∧ (s.node i).hostEndpoint = net.address i host

/-- A session of connected nodes that agree on a host and know each other, with no transition
under way. -/
structure IsSession (net : Addressing ι) (host : ι) (s : P2PSession ι) : Prop
    extends Agree net host s where
  connected : ∀ i, (s.node i).state = .connected
  localPort : ∀ i, (s.node i).localPort ≠ 0
  knows : ∀ i j, j ≠ i → ∃ peer ∈ (s.node i).peerMapping.peerList, peer.address = net.address i j
  distinct : ∀ i, (s.node i).peerMapping.AddressesDistinct
  clean : ∀ i, (s.node i).hasPublicEndpoint = true → (s.node i).publicEndpoint.Clean
  noTransition : ∀ packet ∈ s.inFlight, isTransition packet.payload = false

/-- The endpoint the promoted node announces is its address, for the old host too. -/
def AnnouncesAddress (net : Addressing ι) (resolve : Bytes → UInt16 → Option Address)
    (host promoted : ι) (s : P2PSession ι) : Prop :=
  ∃ endpoint,
    (s.node promoted).ownEndpoint resolve (s.node promoted).localPort = some endpoint ∧
    (s.node host).isSelfAddress endpoint = false ∧
    resolve endpoint.text endpoint.port = some (net.address host promoted)

/-! ## The announcement -/

/-- The payload of `BroadcastHostTransition`. -/
def transitionPayload (endpoint : Address) : Bytes :=
  controlHeader .hostTransition ++ (endpoint.addressFamily ::
    UInt8.ofNat endpoint.text.length :: (endpoint.text ++ leU16 endpoint.port))

theorem isTransition_transitionPayload (endpoint : Address) :
    isTransition (transitionPayload endpoint) = true := by
  unfold isTransition transitionPayload
  rw [readControlHeader_controlHeader]

theorem deserializeAddress_transitionPayload {endpoint : Address} (hclean : endpoint.Clean) :
    ∃ cursor, deserializeAddress (transitionPayload endpoint) 6 = .ok (endpoint, cursor) := by
  have hrecord := deserializeAddress_record hclean.nonempty hclean.length_lt
    (controlHeader .hostTransition) []
  rw [List.append_nil, length_controlHeader, hclean.ofText_text] at hrecord
  exact ⟨_, hrecord⟩

/-- The announcement goes to every peer. -/
theorem broadcastHostTransition_eq {endpoint : Address} (hclean : endpoint.Clean)
    {node : ZP2PNode} (hstate : node.state = .connected) :
    node.broadcastHostTransition endpoint =
      node.peerMapping.peerList.map fun peer =>
        ⟨peer.address, transitionPayload endpoint⟩ := by
  unfold broadcastHostTransition
  rw [serializeAddress_eq hclean.nonempty hclean.length_lt]
  show node.pushControlPacket ZPeerId.toAll (transitionPayload endpoint) = _
  have hto : ZPeerId.toAll ≠ ZPeerId.toServer := by decide
  rw [pushControlPacket, if_neg (not_not_intro hstate), destinations, if_neg hto, if_pos rfl,
    List.map_map]
  rfl

/-- A node's own endpoint is clean and its own. -/
theorem ownEndpoint_eq_some (hloop : ResolvesLoopback resolve) {node : ZP2PNode}
    (hport : node.localPort ≠ 0)
    (hclean : node.hasPublicEndpoint = true → node.publicEndpoint.Clean) :
    ∃ endpoint, node.ownEndpoint resolve node.localPort = some endpoint ∧ endpoint.Clean ∧
      node.isSelfAddress endpoint = true := by
  unfold ownEndpoint
  cases hpublic : node.hasPublicEndpoint with
  | true =>
      refine ⟨node.publicEndpoint, rfl, hclean hpublic, ?_⟩
      unfold isSelfAddress
      rw [if_pos ⟨hpublic, rfl⟩]
  | false =>
      have htext : (Address.ofText kLoopbackText node.localPort
          AddressFamily.inet.toU8).text = kLoopbackText :=
        Address.text_ofText (by decide) (by decide) _ _
      refine ⟨_, hloop node.localPort, ⟨?_, ?_, ?_⟩, ?_⟩
      · rw [htext]
        rfl
      · rw [htext]
        decide
      · rw [htext]
        decide
      · have hsame : ¬ (node.localPort = 0 ∨ (Address.ofText kLoopbackText node.localPort
            AddressFamily.inet.toU8).port ≠ node.localPort) :=
          not_or.mpr ⟨hport, not_not_intro rfl⟩
        unfold isSelfAddress
        rw [if_neg (by rw [hpublic]; exact fun h => Bool.false_ne_true h.1), if_neg hsame, htext]
        rfl

/-! ## Arrivals -/

omit [DecidableEq ι] in
/-- What an arrival does to a node. -/
theorem receive_cases (packet : ControlPacket ι) (env : NodeEnv) (node : ZP2PNode) :
    let result := receive net resolve packet env node
    (SameRole node result.1 ∧ (node.type = .host → Kept node result.1) ∧
      NoTransition result.2) ∨
    (isTransition packet.payload = true ∧
      ¬ (node.type = .client ∧
        net.address packet.target packet.source ≠ node.hostEndpoint) ∧
      NoTransition result.2) := by
  have hkept := Kept.rememberPeer (net.address packet.target packet.source) node
  unfold rememberPeer at hkept
  unfold receive
  rcases hpeers : node.peerMapping.getOrCreatePeer (net.address packet.target packet.source)
    with ⟨found, peerMapping⟩
  rw [hpeers] at hkept
  cases found with
  | none => exact .inl ⟨hkept.toSameRole, fun _ => hkept, noTransition_nil⟩
  | some peer =>
      obtain ⟨hpeer, haddress⟩ := ZPeerMapping.getOrCreatePeer_mem hpeers
      dsimp only
      rcases processControlPacket_cases resolve peer.identifier packet.payload env
        { node with peerMapping } with ⟨hrole, hhost, hsends⟩ | ⟨htransition, hforeign, _, heq⟩
      · exact .inl ⟨hkept.toSameRole.trans hrole, fun h => hkept.trans (hhost h), hsends⟩
      · refine .inr ⟨htransition, fun ⟨hclient, hne⟩ => hforeign ⟨hclient, ?_⟩, ?_⟩
        · show fromHost (peerMapping.getPeer peer.identifier) { node with peerMapping } = false
          rw [ZPeerMapping.getPeer_eq_some.mpr ⟨hpeer, rfl⟩]
          show decide (peer.address = node.hostEndpoint) = false
          rw [haddress]
          exact decide_eq_false hne
        · rw [heq]
          exact noTransition_reconnectToHost resolve _ env _

omit [DecidableEq ι] in
/-- The announcement at a host that finds its sender in the table. -/
theorem receive_transition {endpoint : Address} (hclean : endpoint.Clean)
    {packet : ControlPacket ι} (hpayload : packet.payload = transitionPayload endpoint)
    (env : NodeEnv) {node : ZP2PNode} (hhost : node.type = .host) :
    let source := net.address packet.target packet.source
    receive net resolve packet env node = (node.rememberPeer source, []) ∧
      (∀ peer ∈ node.peerMapping.peerList, peer.address ≠ source) ∨
    receive net resolve packet env node =
      ((node.rememberPeer source).reconnectToHost resolve endpoint env).2 := by
  obtain ⟨cursor, hread⟩ := deserializeAddress_transitionPayload hclean
  have hheader : readControlHeader packet.payload = .ok (.hostTransition, 6) := by
    rw [hpayload]
    exact readControlHeader_controlHeader ..
  rw [← hpayload] at hread
  dsimp only
  unfold receive rememberPeer
  rcases hpeers : node.peerMapping.getOrCreatePeer (net.address packet.target packet.source)
    with ⟨found, peerMapping⟩
  cases found with
  -- the table is full and the sender is not in it
  | none =>
      left
      refine ⟨rfl, ?_⟩
      rcases ZPeerMapping.getOrCreatePeer_cases (net.address packet.target packet.source)
        node.peerMapping with ⟨_, heq, -⟩ | ⟨_, heq, -⟩ | ⟨-, -, hnew⟩
      · rw [heq] at hpeers
        cases hpeers
      · rw [heq] at hpeers
        cases hpeers
      · exact hnew
  | some peer =>
      right
      dsimp only
      unfold processControlPacket
      rw [hheader]
      dsimp only
      -- a host does not ask where a transition comes from
      rw [if_neg (by rw [hhost]; rintro ⟨h, -⟩; cases h), hread]
      dsimp only
      unfold reconnectToHost
      split <;> rfl

omit [DecidableEq ι] in
theorem noTransition_routed {i : ι} {sends : List ControlSend} (hsends : NoTransition sends) :
    ∀ packet ∈ routed net i sends, isTransition packet.payload = false :=
  fun _ hpacket => hsends _ (mem_routed net hpacket).2

omit [DecidableEq ι] in
/-- An arrival at a host that takes the announced endpoint for its own. -/
theorem receive_of_own {endpoint : Address} (hclean : endpoint.Clean) {node : ZP2PNode}
    (hhost : node.type = .host) (hstate : node.state = .connected)
    (hown : node.isSelfAddress endpoint = true) {packet : ControlPacket ι} (env : NodeEnv)
    (hpayload : isTransition packet.payload = true →
      packet.payload = transitionPayload endpoint) :
    let result := receive net resolve packet env node
    Kept node result.1 ∧ NoTransition result.2 := by
  dsimp only
  rcases receive_cases packet env node with ⟨-, hkept, hsends⟩ | ⟨htransition, -, hsends⟩
  · exact ⟨hkept hhost, hsends⟩
  refine ⟨?_, hsends⟩
  have hremember := Kept.rememberPeer (net.address packet.target packet.source) node
  rcases receive_transition hclean (hpayload htransition) env hhost with
    ⟨heq, -⟩ | heq <;> rw [heq]
  · exact hremember
  · unfold reconnectToHost
    rw [if_pos ((hremember.isSelfAddress endpoint).trans hown),
      promoteToHost_of_host resolve (hremember.type.trans hhost) (hremember.state.trans hstate)]
    exact hremember

/-! ## A third node -/

/-- A client of the old host, and only the promoted node announces itself. -/
structure Bystander (net : Addressing ι) (host promoted i : ι) (s : P2PSession ι) : Prop where
  isClient : (s.node i).type = .client
  follows : (s.node i).hostEndpoint = net.address i host
  announced : ∀ packet ∈ s.inFlight, isTransition packet.payload = true →
    packet.source = promoted

/-- Nothing that happens to others, and nothing new in flight. -/
theorem Bystander.afterCall {host promoted i : ι} {s : P2PSession ι}
    (hs : Bystander net host promoted i s) {j : ι} {result : ZP2PNode × List ControlSend}
    {inFlight : List (ControlPacket ι)} (hrole : j = i → SameRole (s.node i) result.1)
    (hsends : NoTransition result.2) (hsub : inFlight ⊆ s.inFlight) :
    Bystander net host promoted i (afterCall net j result { s with inFlight }) := by
  have hnode : SameRole (s.node i)
      ((P2PSession.afterCall net j result { s with inFlight }).node i) := by
    by_cases hij : j = i
    · subst hij
      rw [node_afterCall_self]
      exact hrole rfl
    · rw [node_afterCall_of_ne net (Ne.symm hij)]
      exact (Kept.refl _).toSameRole
  refine ⟨hnode.type.trans hs.isClient, hnode.hostEndpoint.trans hs.follows, ?_⟩
  intro packet hpacket htransition
  rcases List.mem_append.mp hpacket with hpacket | hpacket
  · exact hs.announced packet (hsub hpacket) htransition
  · rw [noTransition_routed hsends packet hpacket] at htransition
    cases htransition

theorem Bystander.step {host promoted i : ι} (hne : promoted ≠ host) {s s' : P2PSession ι}
    (hs : Bystander net host promoted i s) {e : SessionEvent ι}
    (hstep : (machine net resolve).step s e = some s') : Bystander net host promoted i s' := by
  cases e with
  | tick j now =>
      obtain rfl := Option.some.inj hstep
      refine hs.afterCall ?_ (noTransition_tickNatPunchthrough now _) (List.Subset.refl _)
      rintro rfl
      exact (Learns.tickNatPunchthrough ..).kept.toSameRole
  | deliver index env =>
      obtain ⟨packet, hpacket, rfl⟩ := Option.map_eq_some_iff.mp hstep
      have hmem := List.mem_of_getElem? hpacket
      have hcases := @receive_cases ι net resolve packet env (s.node packet.target)
      refine hs.afterCall ?_ ?_ (List.eraseIdx_subset ..)
      · rintro rfl
        rcases hcases with ⟨hrole, -⟩ | ⟨htransition, hforeign, -⟩
        · exact hrole
        · -- the announcement does not come from the host that is followed
          refine absurd ⟨hs.isClient, fun h => ?_⟩ hforeign
          rw [hs.follows, hs.announced packet hmem htransition] at h
          exact hne (net.address_inj h)
      · rcases hcases with ⟨-, -, hsends⟩ | ⟨-, -, hsends⟩
        · exact hsends
        · exact hsends

/-! ## The old host -/

/-- How many announcements are on their way to `i`. -/
def transitionsTo (i : ι) (s : P2PSession ι) : Nat :=
  s.inFlight.countP fun packet => isTransition packet.payload && decide (packet.target = i)

/-- A client of the promoted node. -/
def Follows (net : Addressing ι) (host i : ι) (s : P2PSession ι) : Prop :=
  (s.node i).type = .client ∧ (s.node i).hostEndpoint = net.address i host

/-- A promoted node that keeps its role, and the one announcement on its way to the old host or
taken by it; `own` says that the old host takes the endpoint for its own, `reached` that the
announcement makes it a client of the promoted node. -/
structure Settling (net : Addressing ι) (host promoted : ι) (endpoint : Address) (own : Bool)
    (reached : Prop) (s : P2PSession ι) : Prop where
  isHost : (s.node promoted).type = .host
  connected : (s.node promoted).state = .connected
  isOwn : (s.node promoted).isSelfAddress endpoint = true
  announced : ∀ packet ∈ s.inFlight, isTransition packet.payload = true →
    packet.source = promoted ∧ packet.payload = transitionPayload endpoint
  once : s.transitionsTo host ≤ 1
  waiting : s.transitionsTo host = 1 → (s.node host).type = .host ∧
    (s.node host).isSelfAddress endpoint = own ∧ (s.node host).state = .connected ∧
    ∃ peer ∈ (s.node host).peerMapping.peerList, peer.address = net.address host promoted
  taken : s.transitionsTo host = 0 → (s.Follows net promoted host ↔ reached)

/-- What a call adds to the packets in flight is no announcement. -/
theorem transitionsTo_afterCall (i j : ι) {result : ZP2PNode × List ControlSend}
    (hsends : NoTransition result.2) (s : P2PSession ι) :
    (afterCall net j result s).transitionsTo i = s.transitionsTo i := by
  have hnew : (routed net j result.2).countP
      (fun packet => isTransition packet.payload && decide (packet.target = i)) = 0 := by
    rw [List.countP_eq_zero]
    intro packet hpacket
    rw [noTransition_routed hsends packet hpacket, Bool.false_and]
    exact Bool.false_ne_true
  unfold transitionsTo afterCall
  rw [List.countP_append, hnew, Nat.add_zero]

/-- A packet that arrives is in flight no more. -/
theorem transitionsTo_eraseIdx (i : ι) {s : P2PSession ι} {index : Nat}
    {packet : ControlPacket ι} (h : s.inFlight[index]? = some packet) :
    s.transitionsTo i =
      transitionsTo i { s with inFlight := s.inFlight.eraseIdx index } +
        if isTransition packet.payload = true ∧ packet.target = i then 1 else 0 := by
  obtain ⟨hlt, rfl⟩ := List.getElem?_eq_some_iff.mp h
  unfold transitionsTo
  rw [← (List.getElem_cons_eraseIdx_perm hlt).countP_eq, List.countP_cons]
  simp only [Bool.and_eq_true, decide_eq_true_eq]

section Settling

variable {host promoted : ι} {endpoint : Address} {own : Bool} {reached : Prop}
  {s s' : P2PSession ι}

/-- A call that announces nothing, at a node that keeps its role. -/
theorem Settling.afterCall (hs : Settling net host promoted endpoint own reached s) (j : ι)
    {result : ZP2PNode × List ControlSend} {inFlight : List (ControlPacket ι)}
    (hrole : SameRole (s.node j) result.1)
    (hkept : (s.node j).type = .host → Kept (s.node j) result.1)
    (hsends : NoTransition result.2) (hsub : inFlight ⊆ s.inFlight)
    (hcount : transitionsTo host { s with inFlight } = s.transitionsTo host) :
    Settling net host promoted endpoint own reached
      (P2PSession.afterCall net j result { s with inFlight }) := by
  set s' := P2PSession.afterCall net j result { s with inFlight } with hs'
  -- the other nodes do not move
  have hrole (i : ι) : SameRole (s.node i) (s'.node i) := by
    by_cases hij : i = j
    · subst hij
      rw [hs', node_afterCall_self]
      exact hrole
    · rw [hs', node_afterCall_of_ne net hij]
      exact (Kept.refl _).toSameRole
  have hkept (i : ι) (hhost : (s.node i).type = .host) : Kept (s.node i) (s'.node i) := by
    by_cases hij : i = j
    · subst hij
      rw [hs', node_afterCall_self]
      exact hkept hhost
    · rw [hs', node_afterCall_of_ne net hij]
      exact Kept.refl _
  have hcount : s'.transitionsTo host = s.transitionsTo host := by
    rw [hs', transitionsTo_afterCall host j hsends, hcount]
  refine
    { isHost := (hrole promoted).type.trans hs.isHost
      connected := (hrole promoted).state.trans hs.connected
      isOwn := ((hkept promoted hs.isHost).isSelfAddress endpoint).trans hs.isOwn
      announced := ?_
      once := hcount ▸ hs.once
      waiting := ?_
      taken := ?_ }
  -- no new announcement, and the old ones are the same
  · intro packet hpacket htransition
    rcases List.mem_append.mp hpacket with hpacket | hpacket
    · exact hs.announced packet (hsub hpacket) htransition
    · rw [noTransition_routed hsends packet hpacket] at htransition
      cases htransition
  · intro h
    obtain ⟨hhost, hown, hstate, peer, hpeer, haddress⟩ := hs.waiting (hcount ▸ h)
    exact ⟨(hrole host).type.trans hhost,
      ((hkept host hhost).isSelfAddress endpoint).trans hown, (hrole host).state.trans hstate,
      peer, (hrole host).peers.subset hpeer, haddress⟩
  · intro h
    rw [← hs.taken (hcount ▸ h), Follows, Follows, (hrole host).type, (hrole host).hostEndpoint]

/-- A host turns to an endpoint exactly if that is not its own and resolves. -/
theorem follows_reconnectToHost {node : ZP2PNode} (hhost : node.type = .host)
    (hstate : node.state = .connected) {env : NodeEnv} (hopens : env.opens = true)
    (target : Address) :
    let result := (node.reconnectToHost resolve endpoint env).2.1
    (result.type = .client ∧ result.hostEndpoint = target) ↔
      node.isSelfAddress endpoint = false ∧
        resolve endpoint.text endpoint.port = some target := by
  dsimp only
  cases hself : node.isSelfAddress endpoint with
  | true =>
      unfold reconnectToHost
      rw [if_pos hself, promoteToHost_of_host resolve hhost hstate, hhost]
      exact iff_of_false (fun h => by cases h.1) (fun h => by cases h.1)
  | false =>
      cases hresolve : resolve endpoint.text endpoint.port with
      | none =>
          rw [reconnectToHost_of_unresolved resolve hself hresolve, hhost]
          exact iff_of_false (fun h => by cases h.1) (fun h => by cases h.2)
      | some found =>
          obtain ⟨htype, hendpoint⟩ := reconnectToHost_of_resolves resolve hself hopens hresolve
          rw [htype, hendpoint, Option.some_inj]
          exact and_congr_left fun _ => iff_of_true rfl rfl

/-- The announcement reaches the old host. -/
theorem Settling.receive_announcement (hne : promoted ≠ host) (hclean : endpoint.Clean)
    (hs : Settling net host promoted endpoint own
      (own = false ∧ resolve endpoint.text endpoint.port = some (net.address host promoted)) s)
    {index : Nat} {packet : ControlPacket ι} (hpacket : s.inFlight[index]? = some packet)
    (htarget : packet.target = host) (htransition : isTransition packet.payload = true)
    {env : NodeEnv} (hopens : env.opens = true) :
    Settling net host promoted endpoint own
      (own = false ∧ resolve endpoint.text endpoint.port = some (net.address host promoted))
      (P2PSession.afterCall net host (receive net resolve packet env (s.node host))
        { s with inFlight := s.inFlight.eraseIdx index }) := by
  obtain ⟨hsource, hpayload⟩ :=
    hs.announced packet (List.mem_of_getElem? hpacket) htransition
  have hcount := transitionsTo_eraseIdx host hpacket
  rw [if_pos ⟨htransition, htarget⟩] at hcount
  -- it is the last one on its way to this host
  have honce := hs.once
  obtain ⟨hhost, hown, hstate, peer, hpeer, haddress⟩ := hs.waiting (by omega)
  have hsends : NoTransition (receive net resolve packet env (s.node host)).2 := by
    rcases @receive_cases ι net resolve packet env (s.node host) with
      ⟨-, -, hsends⟩ | ⟨-, -, hsends⟩
    · exact hsends
    · exact hsends
  have hremember := Kept.rememberPeer (net.address packet.target packet.source) (s.node host)
  -- the old host knows the sender, so the packet is not dropped
  have heq : receive net resolve packet env (s.node host) =
      (((s.node host).rememberPeer (net.address packet.target packet.source)).reconnectToHost
        resolve endpoint env).2 := by
    rcases receive_transition hclean hpayload env hhost with ⟨-, hnew⟩ | heq
    · rw [htarget, hsource] at hnew
      exact absurd haddress (hnew peer hpeer)
    · exact heq
  have hleft : transitionsTo host (P2PSession.afterCall net host
      (receive net resolve packet env (s.node host))
      { s with inFlight := s.inFlight.eraseIdx index }) = 0 := by
    rw [transitionsTo_afterCall host host hsends]
    omega
  have hpromoted : (P2PSession.afterCall net host (receive net resolve packet env (s.node host))
      { s with inFlight := s.inFlight.eraseIdx index }).node promoted = s.node promoted :=
    node_afterCall_of_ne net hne ..
  refine
    { isHost := hpromoted ▸ hs.isHost
      connected := hpromoted ▸ hs.connected
      isOwn := hpromoted ▸ hs.isOwn
      announced := ?_
      once := by omega
      waiting := fun h => absurd h (by omega)
      taken := fun _ => ?_ }
  · intro other hother htransition'
    rcases List.mem_append.mp hother with hother | hother
    · exact hs.announced other (List.eraseIdx_subset hother) htransition'
    · rw [noTransition_routed hsends other hother] at htransition'
      cases htransition'
  · rw [Follows, node_afterCall_self, heq, ← hown, ← hremember.isSelfAddress endpoint]
    exact follows_reconnectToHost (hremember.type.trans hhost) (hremember.state.trans hstate)
      hopens _

/-- One event in a session of two. -/
theorem Settling.step (hne : promoted ≠ host) (htwo : ∀ i, i = host ∨ i = promoted)
    (hclean : endpoint.Clean)
    (hs : Settling net host promoted endpoint own
      (own = false ∧ resolve endpoint.text endpoint.port = some (net.address host promoted)) s)
    {e : SessionEvent ι} (hopens : e.Opens) (hstep : (machine net resolve).step s e = some s') :
    Settling net host promoted endpoint own
      (own = false ∧ resolve endpoint.text endpoint.port = some (net.address host promoted))
      s' := by
  cases e with
  | tick i now =>
      obtain rfl := Option.some.inj hstep
      exact hs.afterCall i (Learns.tickNatPunchthrough ..).kept.toSameRole
        (fun _ => (Learns.tickNatPunchthrough ..).kept) (noTransition_tickNatPunchthrough now _)
        (List.Subset.refl _) rfl
  | deliver index env =>
      obtain ⟨packet, hpacket, rfl⟩ := Option.map_eq_some_iff.mp hstep
      have hcount := transitionsTo_eraseIdx host hpacket
      by_cases hannounced : isTransition packet.payload = true ∧ packet.target = host
      · obtain ⟨htransition, htarget⟩ := hannounced
        rw [htarget]
        exact hs.receive_announcement hne hclean hpacket htarget htransition hopens
      rw [if_neg hannounced, Nat.add_zero] at hcount
      rcases htwo packet.target with htarget | htarget
      · -- no announcement, at the old host
        rcases @receive_cases ι net resolve packet env (s.node packet.target) with
          ⟨hrole, hkept, hsends⟩ | ⟨htransition, -⟩
        · exact hs.afterCall _ hrole hkept hsends (List.eraseIdx_subset ..) hcount.symm
        · exact absurd ⟨htransition, htarget⟩ hannounced
      · -- anything, at the promoted node
        have hmem := List.mem_of_getElem? hpacket
        obtain ⟨hkept, hsends⟩ := @receive_of_own ι net resolve endpoint hclean
          (s.node packet.target) (htarget ▸ hs.isHost) (htarget ▸ hs.connected)
          (htarget ▸ hs.isOwn) packet env fun h => (hs.announced packet hmem h).2
        exact hs.afterCall _ hkept.toSameRole (fun _ => hkept) hsends
          (List.eraseIdx_subset ..) hcount.symm

end Settling

/-! ## The call of `BecomeHost` -/

omit [DecidableEq ι] in
theorem routed_append (i : ι) (sends sends' : List ControlSend) :
    routed net i (sends ++ sends') = routed net i sends ++ routed net i sends' :=
  List.filterMap_append

/-- Of what goes to every peer, one packet goes to the node behind a peer's address. -/
theorem countP_routed_peers {i j : ι} {peerMapping : ZPeerMapping Address}
    (hdistinct : peerMapping.AddressesDistinct)
    (hknows : ∃ peer ∈ peerMapping.peerList, peer.address = net.address i j) {payload : Bytes}
    (htransition : isTransition payload = true) :
    (routed net i (peerMapping.peerList.map fun peer => ⟨peer.address, payload⟩)).countP
      (fun packet => isTransition packet.payload && decide (packet.target = j)) = 1 := by
  have hone : (peerMapping.peerList.map ZPeer.address).count (net.address i j) = 1 := by
    obtain ⟨peer, hpeer, haddress⟩ := hknows
    exact List.count_eq_one_of_mem hdistinct (haddress ▸ List.mem_map_of_mem hpeer)
  rw [List.count, List.countP_map] at hone
  unfold routed
  rw [List.countP_filterMap, List.countP_map, ← hone]
  refine List.countP_congr fun peer _ => ?_
  simp only [Function.comp_apply, beq_iff_eq]
  cases hroute : net.route i peer.address with
  | none =>
      refine iff_of_false (by simp) fun h => ?_
      rw [h, net.route_address] at hroute
      cases hroute
  | some k =>
      have haddress := (net.route_eq_some i _ k).mp hroute
      simp only [Option.map_some, Option.getD_some, htransition, Bool.true_and,
        decide_eq_true_eq, ← haddress]
      exact ⟨fun h => h ▸ rfl, fun h => net.address_inj h⟩

section Start

variable {host promoted : ι} {s : P2PSession ι} {env : NodeEnv}

/-- A third node is a bystander when the call returns. -/
theorem bystander_becomeHost (hs : IsSession net host s) {i : ι} (hhost : i ≠ host)
    (hpromoted : i ≠ promoted) :
    Bystander net host promoted i (s.becomeHost net resolve promoted env) := by
  have hnode : (s.becomeHost net resolve promoted env).node i = s.node i :=
    node_afterCall_of_ne net hpromoted ..
  obtain ⟨hclient, hfollows⟩ := hs.clients i hhost
  refine ⟨hnode ▸ hclient, hnode ▸ hfollows, ?_⟩
  intro packet hpacket htransition
  rcases List.mem_append.mp hpacket with hpacket | hpacket
  · rw [hs.noTransition packet hpacket] at htransition
    cases htransition
  · exact (mem_routed net hpacket).1

/-- One announcement is on its way to the old host when the call returns. -/
theorem settling_becomeHost (hs : IsSession net host s) (hne : promoted ≠ host)
    (hopens : env.opens = true) {endpoint : Address}
    (hown : (s.node promoted).ownEndpoint resolve (s.node promoted).localPort = some endpoint)
    (hclean : endpoint.Clean) (hself : (s.node promoted).isSelfAddress endpoint = true)
    (reached : Prop) :
    Settling net host promoted endpoint ((s.node host).isSelfAddress endpoint) reached
      (s.becomeHost net resolve promoted env) := by
  obtain ⟨node, roster, hcall, hroster, hkept⟩ := becomeHost_of_client resolve
    (hs.clients promoted hne).1 (hs.connected promoted) (hs.localPort promoted) hopens hown
  rw [broadcastHostTransition_eq hclean (hs.connected promoted)] at hcall
  have hnode : (s.becomeHost net resolve promoted env).node promoted = node := by
    unfold becomeHost
    rw [node_afterCall_self, hcall]
  have hhost : (s.becomeHost net resolve promoted env).node host = s.node host :=
    node_afterCall_of_ne net (Ne.symm hne) ..
  -- in flight: what was there, the announcement to each peer, the roster
  have hflight : (s.becomeHost net resolve promoted env).inFlight = s.inFlight ++
      (routed net promoted ((s.node promoted).peerMapping.peerList.map fun peer =>
        ⟨peer.address, transitionPayload endpoint⟩) ++ routed net promoted roster) := by
    unfold becomeHost afterCall
    rw [hcall, ← routed_append]
  -- only the announcement counts, and the old host gets it once
  have hcount : (s.becomeHost net resolve promoted env).transitionsTo host = 1 := by
    have hold : s.inFlight.countP
        (fun packet => isTransition packet.payload && decide (packet.target = host)) = 0 := by
      rw [List.countP_eq_zero]
      intro packet hpacket
      rw [hs.noTransition packet hpacket, Bool.false_and]
      exact Bool.false_ne_true
    have hnew : (routed net promoted roster).countP
        (fun packet => isTransition packet.payload && decide (packet.target = host)) = 0 := by
      rw [List.countP_eq_zero]
      intro packet hpacket
      rw [noTransition_routed hroster packet hpacket, Bool.false_and]
      exact Bool.false_ne_true
    unfold transitionsTo
    rw [hflight, List.countP_append, List.countP_append, hold, hnew,
      countP_routed_peers (hs.distinct promoted) (hs.knows promoted host (Ne.symm hne))
        (isTransition_transitionPayload endpoint)]
  refine
    { isHost := hnode ▸ hkept.type
      connected := hnode ▸ hkept.state.trans (hs.connected promoted)
      isOwn := ?_
      announced := ?_
      once := hcount.le
      waiting := fun _ => ?_
      taken := fun h => absurd (h.symm.trans hcount) (by decide) }
  · rw [hnode, hkept.isSelfAddress]
    exact hself
  · intro packet hpacket htransition
    rw [hflight] at hpacket
    rcases List.mem_append.mp hpacket with hpacket | hpacket
    · rw [hs.noTransition packet hpacket] at htransition
      cases htransition
    rcases List.mem_append.mp hpacket with hpacket | hpacket
    · obtain ⟨hsource, hsend⟩ := mem_routed net hpacket
      obtain ⟨peer, -, hpeer⟩ := List.mem_map.mp hsend
      exact ⟨hsource, (ControlSend.mk.inj hpeer).2.symm⟩
    · rw [noTransition_routed hroster packet hpacket] at htransition
      cases htransition
  · rw [hhost]
    exact ⟨hs.isHost, rfl, hs.connected host, hs.knows host promoted hne⟩

end Start

/-! ## When nothing is left in flight -/

/-- After a client of any session has become host and all packets have arrived, in any order, the
nodes agree on it exactly if it and the old host are all there is and it announces its address. -/
theorem agree_promoted_iff (hloop : ResolvesLoopback resolve) {host promoted : ι}
    (hne : promoted ≠ host) {s s' : P2PSession ι} (hs : IsSession net host s) {env : NodeEnv}
    (hopens : env.opens = true) {events : List (SessionEvent ι)}
    (hevents : ∀ e ∈ events, e.Opens)
    (hexec : (machine net resolve).exec (s.becomeHost net resolve promoted env) events = some s')
    (hquiet : s'.inFlight = []) :
    s'.Agree net promoted ↔
      (∀ i, i = host ∨ i = promoted) ∧ s.AnnouncesAddress net resolve host promoted := by
  obtain ⟨endpoint, hown, hclean, hself⟩ :=
    ownEndpoint_eq_some hloop (hs.localPort promoted) (hs.clean promoted)
  have hreached : s.AnnouncesAddress net resolve host promoted ↔
      (s.node host).isSelfAddress endpoint = false ∧
        resolve endpoint.text endpoint.port = some (net.address host promoted) := by
    constructor
    · rintro ⟨announced, hown', hrest⟩
      obtain rfl := Option.some.inj (hown.symm.trans hown')
      exact hrest
    · exact fun hrest => ⟨endpoint, hown, hrest⟩
  rw [hreached]
  -- in a session of two the announcement settles the matter
  have hsettled (htwo : ∀ i, i = host ∨ i = promoted) :
      Settling net host promoted endpoint ((s.node host).isSelfAddress endpoint)
        ((s.node host).isSelfAddress endpoint = false ∧
          resolve endpoint.text endpoint.port = some (net.address host promoted)) s' :=
    Machine.invariant_of_along
      (fun _ _ _ hs hopens hstep => hs.step hne htwo hclean hopens hstep)
      (settling_becomeHost hs hne hopens hown hclean hself _)
      (Machine.along_of_forall hevents _) hexec
  have hnone : s'.transitionsTo host = 0 := by
    unfold transitionsTo
    rw [hquiet]
    rfl
  constructor
  · intro hagree
    have htwo : ∀ i, i = host ∨ i = promoted := by
      -- a third node never hears of the new host
      intro i
      by_contra hthird
      obtain ⟨hhost, hpromoted⟩ := not_or.mp hthird
      have hstands := Machine.invariant_of_exec
        (fun _ _ _ hs hstep => Bystander.step hne hs hstep)
        (bystander_becomeHost hs hhost hpromoted) hexec
      have hfollows := (hagree.clients i hpromoted).2
      rw [hstands.follows] at hfollows
      exact hne (net.address_inj hfollows).symm
    exact ⟨htwo, ((hsettled htwo).taken hnone).mp (hagree.clients host (Ne.symm hne))⟩
  · rintro ⟨htwo, hrest⟩
    have hdone := hsettled htwo
    refine ⟨hdone.isHost, fun i hi => ?_⟩
    rcases htwo i with rfl | rfl
    · exact (hdone.taken hnone).mpr hrest
    · exact absurd rfl hi

/-! ## Nodes on one machine -/

/-- Node `i` of a session on the loopback interface. -/
def localAddress {n : Nat} (i : Fin n) : Address :=
  Address.ofText kLoopbackText (UInt16.ofNat (5000 + i)) AddressFamily.inet.toU8

theorem localAddress_injective {n : Nat} (hn : n ≤ 60000) :
    Function.Injective (localAddress : Fin n → Address) := by
  intro i j h
  have hport := congrArg UInt16.toNat (congrArg Address.port h)
  have hi := i.isLt
  have hj := j.isLt
  simp only [localAddress, Address.ofText, UInt16.toNat_ofNat'] at hport
  exact Fin.ext (by omega)

def localNet {n : Nat} (hn : n ≤ 60000) : Addressing (Fin n) where
  address _ j := localAddress j
  route _ a := (List.finRange n).find? fun j => localAddress j = a
  route_eq_some _ a j := by
    constructor
    · intro hfind
      simpa using List.find?_some hfind
    · rintro rfl
      have hsome : ((List.finRange n).find? fun k => localAddress k = localAddress j).isSome := by
        rw [List.find?_isSome]
        exact ⟨j, List.mem_finRange j, decide_eq_true rfl⟩
      obtain ⟨k, hk⟩ := Option.isSome_iff_exists.mp hsome
      have hsame : localAddress k = localAddress j := by simpa using List.find?_some hk
      rw [hk, localAddress_injective hn hsame]

/-- `getaddrinfo` of a numeric name. -/
def resolveNumeric (name : Bytes) (port : UInt16) : Option Address :=
  some (Address.ofText name port AddressFamily.inet.toU8)

/-- Node 0 is host, and all nodes know each other. -/
def localSession (n : Nat) [NeZero n] : P2PSession (Fin n) where
  node i :=
    { ZP2PNode.init with
      type := if i = 0 then .host else .client
      state := .connected
      localPort := (localAddress i).port
      hostEndpoint := localAddress (0 : Fin n)
      peerMapping := ((List.finRange n).filter fun j => j ≠ i).foldl
        (fun peers j => (peers.getOrCreatePeer (localAddress j)).2) ZPeerMapping.empty }
  inFlight := []

theorem isSession_localSession {n : Nat} [NeZero n] (hn : n ≤ 60000)
    (hport : ∀ i : Fin n, (localAddress i).port ≠ 0)
    (hknows : ∀ i j : Fin n, j ≠ i →
      ∃ peer ∈ ((localSession n).node i).peerMapping.peerList, peer.address = localAddress j) :
    IsSession (localNet hn) 0 (localSession n) where
  isHost := by
    show (if (0 : Fin n) = 0 then NodeType.host else .client) = .host
    exact if_pos rfl
  clients _ hi := ⟨if_neg hi, rfl⟩
  connected _ := rfl
  localPort := hport
  knows := hknows
  distinct i := by
    suffices h : ∀ (js : List (Fin n)) (peers : ZPeerMapping Address), peers.AddressesDistinct →
        (js.foldl (fun peers j => (peers.getOrCreatePeer (localAddress j)).2)
          peers).AddressesDistinct from h _ _ ZPeerMapping.addressesDistinct_empty
    intro js
    induction js with
    | nil => exact fun _ h => h
    | cons j js ih => exact fun peers h => ih _ (h.getOrCreatePeer (localAddress j))
  clean _ h := absurd h Bool.false_ne_true
  noTransition _ h := absurd h List.not_mem_nil

def arrivals (ι : Type) (count : Nat) : List (SessionEvent ι) :=
  List.replicate count (.deliver 0 ⟨0, true⟩)

/-- Three nodes: all packets have arrived, and node 2 still follows the old host. -/
theorem third_client_stays :
    let net := localNet (n := 3) (by decide)
    IsSession net 0 (localSession 3) ∧
      ∃ s', (machine net resolveNumeric).exec
          ((localSession 3).becomeHost net resolveNumeric 1 ⟨0, true⟩) (arrivals _ 8) = some s' ∧
        s'.inFlight = [] ∧ ¬ s'.Agree net 1 := by
  refine ⟨isSession_localSession _ (by decide) (by decide +kernel), ?_⟩
  have heval : ((machine (localNet (n := 3) (by decide)) resolveNumeric).exec
      ((localSession 3).becomeHost (localNet (by decide)) resolveNumeric 1 ⟨0, true⟩)
      (arrivals _ 8)).map
      (fun s' => (s'.inFlight.isEmpty, (s'.node 2).hostEndpoint.port)) = some (true, 5000) := by
    decide +kernel
  obtain ⟨s', hexec, hfacts⟩ := Option.map_eq_some_iff.mp heval
  obtain ⟨hquiet, hport⟩ := Prod.mk.inj hfacts
  refine ⟨s', hexec, List.isEmpty_iff.mp hquiet, fun hagree => ?_⟩
  have hfollows := congrArg Address.port (hagree.clients 2 (by decide)).2
  rw [hport] at hfollows
  exact absurd hfollows (by decide)

/-- Two nodes, where the old host follows. -/
theorem agree_promoted_iff_pair :
    let net := localNet (n := 2) (by decide)
    ∃ s', (machine net resolveNumeric).exec
        ((localSession 2).becomeHost net resolveNumeric 1 ⟨0, true⟩) (arrivals _ 5) = some s' ∧
      (s'.node 0).type = .client ∧ s'.Agree net 1 := by
  have heval : ((machine (localNet (n := 2) (by decide)) resolveNumeric).exec
      ((localSession 2).becomeHost (localNet (by decide)) resolveNumeric 1 ⟨0, true⟩)
      (arrivals _ 5)).map (fun s' => (s'.inFlight.isEmpty, (s'.node 0).type)) =
        some (true, .client) := by
    decide +kernel
  obtain ⟨s', hexec, hfacts⟩ := Option.map_eq_some_iff.mp heval
  obtain ⟨hquiet, hclient⟩ := Prod.mk.inj hfacts
  have hopens : ∀ e ∈ arrivals (Fin 2) 5, e.Opens := by
    intro e he
    rw [List.eq_of_mem_replicate he]
    rfl
  have hsession := isSession_localSession (n := 2) (by decide) (by decide) (by decide +kernel)
  have hannounces : (localSession 2).AnnouncesAddress (localNet (n := 2) (by decide))
      resolveNumeric 0 1 := by
    have hcheck : ((((localSession 2).node 1).ownEndpoint resolveNumeric
        ((localSession 2).node 1).localPort).any fun endpoint =>
          decide (((localSession 2).node 0).isSelfAddress endpoint = false ∧
            resolveNumeric endpoint.text endpoint.port =
              some ((localNet (n := 2) (by decide)).address 0 1))) = true := by decide +kernel
    obtain ⟨endpoint, hown, hrest⟩ := (Option.any_eq_true _ _).mp hcheck
    exact ⟨endpoint, hown, of_decide_eq_true hrest⟩
  have hiff := agree_promoted_iff (fun _ => rfl) (by decide) hsession rfl hopens hexec
    (List.isEmpty_iff.mp hquiet)
  exact ⟨s', hexec, hclient, hiff.mpr ⟨by decide, hannounces⟩⟩

end P2PSession

end ZetaNet
