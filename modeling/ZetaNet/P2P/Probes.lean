import ZetaNet.P2P.Punching

/-!
# How often a run probes

The events that concern an address: packets of its peer about punching, rosters that list it and
changes of role. Between two of them an address gets no more than twelve probes, each an interval
after the one before. Once its peer has acknowledged a probe it gets none until the role changes.
-/

namespace ZetaNet

open Wire Checks

namespace ZP2PNode

section Roles

variable (resolve : Bytes → UInt16 → Option Address)

/-- `PromoteToHost` gets to `InitAsHost`. -/
def promotes (announceTransition : Bool) (node : ZP2PNode) : Bool :=
  ¬ (node.type = .host ∧ node.state = .connected) ∧ node.localPort ≠ 0 ∧
    (announceTransition ∧ node.state = .connected →
      (node.ownEndpoint resolve node.localPort).isSome)

/-- `ReconnectToHost` gets to `InitAsHost` or `InitAsClient`. -/
def reconnects (endpoint : Address) (node : ZP2PNode) : Bool :=
  if node.isSelfAddress endpoint then node.promotes resolve false else true

/-- `ProcessControlPacket` gets there. -/
def transitions (sourcePeerId : UInt32) (data : Bytes) (node : ZP2PNode) : Bool :=
  match readControlHeader data with
  | .ok (.hostTransition, cursor) =>
      if node.type = .client ∧ !node.fromHost (node.peerMapping.getPeer sourcePeerId) then false
      else
        match deserializeAddress data cursor with
        | .error _ => false
        | .ok (nextHost, _) => node.reconnects resolve nextHost
  | _ => false

/-- The event enters a role, or tries to, and the punching states are cleared. -/
def changesRole (node : ZP2PNode) : NodeEvent → Bool
  | .begin port _ => port ≠ 0
  | .connect _ hostPort localPort _ => ¬ (hostPort = 0 ∨ localPort = 0)
  | .becomeHost _ => node.promotes resolve true
  | .ingest _ => false
  | .tick _ => false
  | .process sourcePeerId data _ => node.transitions resolve sourcePeerId data

/-- The control packet may give the address a budget of probes without a change of role. -/
def packetConcerns (address : Address) (sourcePeer : Option (ZPeer Address)) (data : Bytes) :
    Bool :=
  match readControlHeader data with
  | .error _ => false
  | .ok (kind, cursor) =>
      match kind with
      | .peerRoster =>
          (readU16 data cursor).any fun (peerCount, cursor) =>
            address ∈ rosterAddresses data peerCount.toNat cursor
      | .keepAlive => sourcePeer.any (·.address = address)
      | .punchProbe => sourcePeer.any (·.address = address)
      | .punchAck => sourcePeer.any (·.address = address)
      | .joinHello => false
      | .welcome => false
      | .hostTransition => false
      | .invalid => false

/-- The event may give the address a budget of probes. -/
def concerns (address : Address) (node : ZP2PNode) (e : NodeEvent) : Bool :=
  node.changesRole resolve e ||
    match e with
    | .process sourcePeerId data _ =>
        packetConcerns address (node.peerMapping.getPeer sourcePeerId) data
    | _ => false

end Roles

section Steps

variable {resolve : Bytes → UInt16 → Option Address} {node next : ZP2PNode} {e : NodeEvent}
  {address : Address}

theorem punching_initAsHost (resolve : Bytes → UInt16 → Option Address) (port : UInt16)
    (env : NodeEnv) (node : ZP2PNode) : (node.initAsHost resolve port env).2.Punching := by
  have hempty : node.reset.Punching := ⟨List.nodup_nil, fun _ h => absurd h List.not_mem_nil⟩
  unfold ZP2PNode.initAsHost
  dsimp only
  split
  · exact hempty
  · split
    · exact hempty
    · exact ⟨hempty.distinct, hempty.attempts_le⟩

theorem punching_initAsClient (resolve : Bytes → UInt16 → Option Address) (hostIp : Bytes)
    (hostPort : UInt16) (env : NodeEnv) (node : ZP2PNode) :
    (node.initAsClient resolve hostIp hostPort env).2.Punching := by
  have hempty : node.reset.forgetPublicEndpoint.Punching :=
    ⟨List.nodup_nil, fun _ h => absurd h List.not_mem_nil⟩
  unfold ZP2PNode.initAsClient
  dsimp only
  split
  · exact hempty
  · split
    · exact hempty
    · exact ⟨hempty.distinct, hempty.attempts_le⟩

theorem Punching.promoteToHost (h : node.Punching) (announceTransition : Bool) (env : NodeEnv) :
    (node.promoteToHost resolve announceTransition env).2.1.Punching := by
  have hinit := punching_initAsHost resolve node.localPort env node
  unfold ZP2PNode.promoteToHost
  rcases hresult : node.initAsHost resolve node.localPort env with ⟨started, host⟩
  rw [hresult] at hinit
  split
  · exact h
  split
  · exact h
  -- whatever was announced, the states are those that `initAsHost` left, or armed again
  cases started with
  | false =>
      dsimp only
      split
      · split
        · exact h
        · exact hinit
      · exact hinit
  | true =>
      have hstirs : Stirs (fun _ => True) host (host.rearmPeers env.now node.knownPeers) :=
        Stirs.rearmPeers (fun _ => trivial) env.now node.knownPeers host
      have hrearmed := hstirs.punching hinit
      dsimp only
      split
      · split
        · exact h
        · exact hrearmed
      · exact hrearmed

theorem Punching.reconnectToHost (h : node.Punching) (endpoint : Address) (env : NodeEnv) :
    (node.reconnectToHost resolve endpoint env).2.1.Punching := by
  have hinit := punching_initAsClient resolve endpoint.text endpoint.port env node
  unfold ZP2PNode.reconnectToHost
  split
  · exact h.promoteToHost false env
  rcases hresult : node.initAsClient resolve endpoint.text endpoint.port env with ⟨started, client⟩
  rw [hresult] at hinit
  cases started with
  | false => exact hinit
  | true =>
      have hstirs : Stirs (fun _ => True) client (client.rearmPeers env.now node.knownPeers) :=
        Stirs.rearmPeers (fun _ => trivial) env.now node.knownPeers client
      exact hstirs.punching hinit

theorem promoteToHost_of_not_promotes {announceTransition : Bool}
    (h : node.promotes resolve announceTransition = false) (env : NodeEnv) :
    (node.promoteToHost resolve announceTransition env).2.1 = node := by
  have hstays := of_decide_eq_false h
  unfold ZP2PNode.promoteToHost
  split
  · rfl
  · rename_i hhost
    split
    · rfl
    · rename_i hport
      dsimp only
      split
      · split
        · rfl
        · rename_i endpoint hown
          exact absurd ⟨hhost, hport, fun _ => by rw [hown]; rfl⟩ hstays
      · rename_i hquiet
        exact absurd ⟨hhost, hport, fun hannounces => absurd hannounces hquiet⟩ hstays

theorem reconnectToHost_of_not_reconnects {endpoint : Address}
    (h : node.reconnects resolve endpoint = false) (env : NodeEnv) :
    (node.reconnectToHost resolve endpoint env).2.1 = node := by
  unfold reconnects at h
  unfold ZP2PNode.reconnectToHost
  split at h
  · rename_i hself
    rw [if_pos hself]
    exact promoteToHost_of_not_promotes h env
  · cases h

/-- A transition that leads to no role changes nothing. -/
theorem processControlPacket_of_not_transitions {sourcePeerId : UInt32} {data : Bytes}
    {env : NodeEnv} {cursor : Nat}
    (hheader : readControlHeader data = .ok (.hostTransition, cursor))
    (hrole : node.transitions resolve sourcePeerId data = false) :
    (node.processControlPacket resolve sourcePeerId data env).1 = node := by
  unfold transitions at hrole
  unfold ZP2PNode.processControlPacket
  rw [hheader] at hrole ⊢
  dsimp only at hrole ⊢
  split
  · rfl
  · rename_i htaken
    rw [if_neg htaken] at hrole
    split
    · rfl
    · rename_i nextHost _ hnext
      rw [hnext] at hrole
      have hstays := reconnectToHost_of_not_reconnects hrole env
      split
      · rename_i hself
        rwa [reconnectToHost, if_pos hself] at hstays
      · exact hstays

/-- A packet that leads to no role stirs the states of the addresses it concerns. -/
theorem stirs_processControlPacket {touched : Address → Prop} {sourcePeerId : UInt32}
    {data : Bytes} {env : NodeEnv}
    (hrole : node.transitions resolve sourcePeerId data = false)
    (hconcerns : ∀ address, packetConcerns address (node.peerMapping.getPeer sourcePeerId) data =
      true → touched address) :
    Stirs touched node (node.processControlPacket resolve sourcePeerId data env).1 := by
  have hsame : Stirs touched node node := Stirs.same rfl
  unfold packetConcerns at hconcerns
  cases hheader : readControlHeader data with
  | error e =>
      unfold ZP2PNode.processControlPacket
      rw [hheader]
      exact hsame
  | ok found =>
      obtain ⟨kind, cursor⟩ := found
      by_cases htransition : kind = .hostTransition
      · subst htransition
        rw [processControlPacket_of_not_transitions hheader hrole]
        exact hsame
      unfold ZP2PNode.processControlPacket
      rw [hheader] at hconcerns ⊢
      have hpeer {peer : ZPeer Address}
          (hfound : node.peerMapping.getPeer sourcePeerId = some peer) :
          (node.peerMapping.getPeer sourcePeerId).any (fun p => p.address = peer.address) =
            true := by
        rw [hfound]
        exact decide_eq_true rfl
      cases kind with
      | invalid => exact hsame
      | joinHello =>
          dsimp only
          split
          · exact hsame
          · split
            · exact hsame
            · exact Stirs.rememberPeer _ node
      | welcome =>
          dsimp only
          split
          · exact hsame
          · split
            · exact hsame
            · exact Stirs.same rfl
      | peerRoster =>
          dsimp only at hconcerns ⊢
          split
          · exact hsame
          · split
            · exact hsame
            · rename_i peerCount cursor hcount
              refine Stirs.processRoster (fun address hlisted => hconcerns address ?_) env.now node
              rw [hcount]
              exact decide_eq_true hlisted
      | hostTransition => exact absurd rfl htransition
      | keepAlive =>
          dsimp only
          split
          · exact hsame
          · rename_i peer hfound
            split
            · exact hsame
            · exact Stirs.touch env.now node (hconcerns _ (hpeer hfound))
      | punchAck =>
          dsimp only
          split
          · exact hsame
          · rename_i peer hfound
            split
            · exact hsame
            · exact Stirs.acknowledge env.now node (hconcerns _ (hpeer hfound))
      | punchProbe =>
          dsimp only
          split
          · exact hsame
          · rename_i peer hfound
            split
            · exact hsame
            · exact ((Stirs.touch env.now node (hconcerns _ (hpeer hfound))).trans
                (Stirs.armPunchProbe env.now _ (hconcerns _ (hpeer hfound)))).trans
                  (Stirs.pushControlPacketToAddress _ _ _)

theorem exists_header_of_transitions {sourcePeerId : UInt32} {data : Bytes}
    (h : node.transitions resolve sourcePeerId data = true) :
    ∃ cursor, readControlHeader data = .ok (.hostTransition, cursor) := by
  unfold transitions at h
  split at h
  · rename_i cursor hheader
    exact ⟨cursor, hheader⟩
  · cases h

theorem Punching.processControlPacket (h : node.Punching) (sourcePeerId : UInt32) (data : Bytes)
    (env : NodeEnv) : (node.processControlPacket resolve sourcePeerId data env).1.Punching := by
  cases hrole : node.transitions resolve sourcePeerId data with
  | false => exact (stirs_processControlPacket hrole fun _ h => h).punching h
  | true =>
      obtain ⟨cursor, hheader⟩ := exists_header_of_transitions hrole
      unfold ZP2PNode.processControlPacket
      rw [hheader]
      dsimp only
      split
      · exact h
      · split
        · exact h
        · split
          · exact h.promoteToHost false env
          · exact h.reconnectToHost _ env

/-- An event that enters no role and is no tick stirs the states of the addresses it concerns. -/
theorem stirs_step (hrole : node.changesRole resolve e = false) (htick : ∀ now, e ≠ .tick now)
    (hstep : (machine resolve).step node e = some next) :
    Stirs (fun address => node.concerns resolve address e = true) node next := by
  cases e with
  | begin port env =>
      obtain rfl := Option.some.inj hstep
      have hport : port = 0 := not_not.mp (of_decide_eq_false hrole)
      show Stirs _ node (node.begin resolve port env).2
      rw [ZP2PNode.begin, if_pos hport]
      exact Stirs.same rfl
  | connect hostIp hostPort localPort env =>
      obtain rfl := Option.some.inj hstep
      have hports : hostPort = 0 ∨ localPort = 0 := not_not.mp (of_decide_eq_false hrole)
      show Stirs _ node (node.connect resolve hostIp hostPort localPort env).2.1
      rw [ZP2PNode.connect, if_pos hports]
      exact Stirs.same rfl
  | becomeHost env =>
      obtain rfl := Option.some.inj hstep
      exact Stirs.same (congrArg punchPeers (promoteToHost_of_not_promotes hrole env))
  | ingest source =>
      obtain rfl := Option.some.inj hstep
      exact Stirs.rememberPeer source node
  | process sourcePeerId data env =>
      obtain rfl := Option.some.inj hstep
      exact stirs_processControlPacket hrole fun _ h => Bool.or_eq_true_iff.mpr (.inr h)
  | tick now => exact absurd rfl (htick now)

/-- What a change of role concerns is every address. -/
theorem concerns_of_changesRole (h : node.changesRole resolve e = true) (address : Address) :
    node.concerns resolve address e = true := by
  unfold concerns
  rw [h]
  exact Bool.true_or _

/-- What holds of a node in every run. -/
structure Sound (node : ZP2PNode) : Prop where
  grown : node.peerMapping.Grown
  punching : node.Punching

theorem Sound.step (h : node.Sound) (hstep : (machine resolve).step node e = some next) :
    next.Sound := by
  refine ⟨(Grows.step resolve hstep).grown h.grown, ?_⟩
  cases e with
  | begin port env =>
      obtain rfl := Option.some.inj hstep
      show (node.begin resolve port env).2.Punching
      unfold ZP2PNode.begin
      split
      · exact h.punching
      · exact punching_initAsHost resolve port env _
  | connect hostIp hostPort localPort env =>
      obtain rfl := Option.some.inj hstep
      have hinit := punching_initAsClient resolve hostIp hostPort env { node with localPort }
      show (node.connect resolve hostIp hostPort localPort env).2.1.Punching
      unfold ZP2PNode.connect
      split
      · exact h.punching
      · rcases hresult : ({ node with localPort } : ZP2PNode).initAsClient resolve hostIp hostPort
          env with ⟨started, client⟩
        rw [hresult] at hinit
        cases started with
        | false => exact hinit
        | true => exact hinit
  | becomeHost env =>
      obtain rfl := Option.some.inj hstep
      exact h.punching.promoteToHost true env
  | ingest source =>
      obtain rfl := Option.some.inj hstep
      exact ⟨h.punching.distinct, h.punching.attempts_le⟩
  | process sourcePeerId data env =>
      obtain rfl := Option.some.inj hstep
      exact h.punching.processControlPacket sourcePeerId data env
  | tick now =>
      obtain rfl := Option.some.inj hstep
      exact h.punching.tick h.grown now

theorem sound_init : init.Sound where
  grown := ZPeerMapping.grown_empty
  punching := ⟨List.nodup_nil, fun _ h => absurd h List.not_mem_nil⟩

theorem sound_of_exec {events : List NodeEvent}
    (hexec : (machine resolve).exec init events = some node) : node.Sound :=
  Machine.invariant_of_exec (fun _ _ _ h hstep => h.step hstep) sound_init hexec

end Steps

/-! ## Runs -/

section Runs

variable (resolve : Bytes → UInt16 → Option Address)

/-- How many events of a run concern the address. -/
def timesConcerned (address : Address) : ZP2PNode → List NodeEvent → Nat
  | _, [] => 0
  | node, e :: events =>
      (if node.concerns resolve address e then 1 else 0) +
        ((machine resolve).step node e).elim 0 fun next => timesConcerned address next events

variable {resolve} {node next : ZP2PNode} {e : NodeEvent} {events : List NodeEvent}
  {address : Address}

theorem probeTimes_cons (hstep : (machine resolve).step node e = some next) :
    probeTimes resolve address node (e :: events) =
      List.replicate ((node.sends resolve e).count (probe address)) e.now ++
        probeTimes resolve address next events := by
  rw [probeTimes, hstep]
  rfl

theorem timesConcerned_cons (hstep : (machine resolve).step node e = some next) :
    timesConcerned resolve address node (e :: events) =
      (if node.concerns resolve address e then 1 else 0) +
        timesConcerned resolve address next events := by
  rw [timesConcerned, hstep]
  rfl

/-- Every event happens. -/
theorem exists_step (resolve : Bytes → UInt16 → Option Address) (node : ZP2PNode) (e : NodeEvent) :
    ∃ next, (machine resolve).step node e = some next := by
  cases e <;> exact ⟨_, rfl⟩

/-- Within a run without news of the address the probes stay within its budget, do not begin
before they are due and keep their distance. Each piece of news adds a full budget at most. -/
theorem Sound.probes (h : node.Sound) (events : List NodeEvent) (address : Address) :
    (probeTimes resolve address node events).length ≤ node.probeBudget address +
        kMaxPunchProbeAttempts.toNat * timesConcerned resolve address node events ∧
      (timesConcerned resolve address node events = 0 →
        (∀ time ∈ probeTimes resolve address node events,
          ∀ state, node.findPunchPeerState address = some state → state.nextProbeTime ≤ time) ∧
        (probeTimes resolve address node events).Pairwise fun time later =>
          time + kPunchProbeInterval ≤ later) := by
  induction events generalizing node with
  | nil =>
      exact ⟨Nat.zero_le _, fun _ => ⟨fun _ h => absurd h List.not_mem_nil, List.Pairwise.nil⟩⟩
  | cons e events ih =>
      obtain ⟨next, hstep⟩ := exists_step resolve node e
      obtain ⟨hlength, hquiet⟩ := ih (h.step hstep)
      rw [probeTimes_cons hstep, timesConcerned_cons hstep]
      by_cases htick : ∃ now, e = .tick now
      · obtain ⟨now, rfl⟩ := htick
        obtain rfl := Option.some.inj hstep
        have hsends : node.sends resolve (.tick now) = (node.tickNatPunchthrough now).2 := rfl
        rw [hsends, show node.concerns resolve address (.tick now) = false from rfl,
          if_neg Bool.false_ne_true, Nat.zero_add]
        rcases tick_cases h.grown h.punching now address with
          ⟨hcount, htime, hbudget⟩ | ⟨state, hstate, hdue, hnext, hcount, hbudget⟩
        · -- no probe: the rest of the run starts from the same budget
          rw [hcount, List.replicate_zero, List.nil_append]
          refine ⟨hbudget ▸ hlength, fun hzero => ⟨fun time hmem state hstate => ?_,
            (hquiet hzero).2⟩⟩
          rw [hstate, Option.map_some] at htime
          obtain ⟨later, hlater, hsame⟩ := Option.map_eq_some_iff.mp htime
          rw [← hsame]
          exact (hquiet hzero).1 time hmem later hlater
        · -- a probe that is due, and the next one an interval later
          have hlater (hzero : timesConcerned resolve address
              (node.tickNatPunchthrough now).1 events = 0) (time : Nat)
              (hmem : time ∈ probeTimes resolve address (node.tickNatPunchthrough now).1 events) :
              now + kPunchProbeInterval ≤ time := (hquiet hzero).1 time hmem _ hnext
          refine ⟨?_, fun hzero => ⟨fun time hmem found hfound => ?_, ?_⟩⟩
          · rw [List.length_append, List.length_replicate]
            omega
          · obtain rfl := Option.some.inj (hstate.symm.trans hfound)
            rcases List.mem_append.mp hmem with hnow | hrest
            · rw [(List.mem_replicate.mp hnow).2]
              exact hdue
            · exact hdue.trans ((Nat.le_add_right ..).trans (hlater hzero time hrest))
          · refine List.pairwise_append.mpr ⟨?_, (hquiet hzero).2, fun time hnow later hrest => ?_⟩
            · rw [List.pairwise_replicate]
              exact .inl hcount
            · rw [(List.mem_replicate.mp hnow).2]
              exact hlater hzero later hrest
      · -- only the timer probes
        have htick : ∀ now, e ≠ .tick now := fun now heq => htick ⟨now, heq⟩
        rw [(NoProbe.sends resolve htick).count_eq_zero, List.replicate_zero, List.nil_append]
        cases hconcerns : node.concerns resolve address e with
        | true =>
            rw [if_pos rfl]
            refine ⟨?_, fun hzero => absurd hzero (by omega)⟩
            have hfull := probeBudget_le address next
            rw [Nat.mul_add]
            omega
        | false =>
            have hrole : node.changesRole resolve e = false := by
              rw [← Bool.not_eq_true]
              intro hrole
              rw [concerns_of_changesRole hrole address] at hconcerns
              cases hconcerns
            have hfind : next.findPunchPeerState address = node.findPunchPeerState address :=
              (stirs_step hrole htick hstep).findPunchPeerState
                (by rw [hconcerns]; exact Bool.false_ne_true)
            rw [if_neg Bool.false_ne_true, Nat.zero_add]
            rw [probeBudget_congr hfind] at hlength
            rw [hfind] at hquiet
            exact ⟨hlength, hquiet⟩

/-- After any history, a run probes an address no more often than the probes it has left and a
full budget for each event that concerns it; and while nothing concerns it, no two probes come
within the probe interval. -/
theorem probes_bounded {before : List NodeEvent}
    (hexec : (machine resolve).exec init before = some node) (events : List NodeEvent)
    (address : Address) :
    (probeTimes resolve address node events).length ≤ node.probeBudget address +
        kMaxPunchProbeAttempts.toNat * timesConcerned resolve address node events ∧
      (timesConcerned resolve address node events = 0 →
        (probeTimes resolve address node events).Pairwise fun time later =>
          time + kPunchProbeInterval ≤ later) := by
  obtain ⟨hlength, hquiet⟩ := (sound_of_exec hexec).probes events address
  exact ⟨hlength, fun hzero => (hquiet hzero).2⟩

/-! ## After an acknowledgement -/

theorem Sound.findPunchPeerState_acknowledged (h : node.Sound) (hack : node.Acknowledged address) :
    ∃ state, node.findPunchPeerState address = some state ∧ state.acknowledged = true := by
  obtain ⟨state, hmem, haddress, hacked⟩ := hack
  cases hfind : node.findPunchPeerState address with
  | none =>
      exact absurd (decide_eq_true haddress) (List.find?_eq_none.mp hfind state hmem)
  | some found =>
      unfold findPunchPeerState at hfind
      have hfound : found ∈ node.punchPeers := List.mem_of_find?_eq_some hfind
      have hsame : found.address = address := by simpa using List.find?_some hfind
      rw [List.inj_on_of_nodup_map h.punching.distinct hfound hmem (hsame.trans haddress.symm)]
      exact ⟨state, rfl, hacked⟩

/-- An acknowledged address is not probed as long as no role is entered. -/
theorem Sound.not_probed (h : node.Sound) (hack : node.Acknowledged address)
    (hrole : (machine resolve).Along (fun s e => s.changesRole resolve e = false) node events) :
    probeTimes resolve address node events = [] := by
  induction events generalizing node with
  | nil => rfl
  | cons e events ih =>
      obtain ⟨next, hstep⟩ := exists_step resolve node e
      obtain ⟨hhere, hrest⟩ := hrole
      rw [probeTimes_cons hstep]
      by_cases htick : ∃ now, e = .tick now
      · obtain ⟨now, rfl⟩ := htick
        rw [ih (h.step hstep) (by
          obtain rfl := Option.some.inj hstep
          exact hack.tick h.grown h.punching now) (hrest next hstep), List.append_nil]
        obtain ⟨state, hfind, hacked⟩ := h.findPunchPeerState_acknowledged hack
        have hempty : node.probeBudget address = 0 := by
          rw [probeBudget, hfind]
          exact if_pos hacked
        rcases tick_cases h.grown h.punching now address with
          ⟨hcount, -, -⟩ | ⟨-, -, -, -, -, hbudget⟩
        · exact congrArg (List.replicate · now) hcount
        · omega
      · have htick : ∀ now, e ≠ .tick now := fun now heq => htick ⟨now, heq⟩
        rw [(NoProbe.sends resolve htick).count_eq_zero, List.replicate_zero, List.nil_append]
        exact ih (h.step hstep) ((stirs_step hhere htick hstep).acknowledged hack)
          (hrest next hstep)

/-- A `PunchAck` marks the state of its sender. -/
theorem acknowledged_of_punchAck {sourcePeerId : UInt32} {peer : ZPeer Address}
    (hpeer : node.peerMapping.getPeer sourcePeerId = some peer)
    (hother : node.isSelfAddress peer.address = false) (back : Bytes) (env : NodeEnv) :
    (node.processControlPacket resolve sourcePeerId (controlHeader .punchAck ++ back)
      env).1.Acknowledged peer.address := by
  unfold ZP2PNode.processControlPacket
  rw [readControlHeader_controlHeader]
  dsimp only
  rw [hpeer]
  dsimp only
  rw [if_neg (by rw [hother]; exact Bool.false_ne_true)]
  unfold Acknowledged updatePunchPeer
  rcases updatePunchPeer_go_cases env.now peer.address (fun state =>
      { state with acknowledged := true, lastKeepaliveTime := env.now }) node.punchPeers with
    ⟨front, state, back, -, haddress, -, heq⟩ | ⟨-, heq⟩
  · refine ⟨{ state with acknowledged := true, lastKeepaliveTime := env.now }, ?_, haddress, rfl⟩
    rw [heq]
    exact List.mem_append_right _ List.mem_cons_self
  · refine ⟨⟨peer.address, 0, true, env.now, env.now⟩, ?_, rfl, rfl⟩
    rw [heq]
    exact List.mem_append_right _ List.mem_cons_self

/-- After any history, a `PunchAck` of another node ends the probing of its address: no run that
enters no role, nor tries to, sends it another probe, whatever else arrives. -/
theorem not_probed_after_ack {before : List NodeEvent}
    (hexec : (machine resolve).exec init before = some node) {sourcePeerId : UInt32}
    {peer : ZPeer Address} (hpeer : node.peerMapping.getPeer sourcePeerId = some peer)
    (hother : node.isSelfAddress peer.address = false) (back : Bytes) (env : NodeEnv)
    (hrole : (machine resolve).Along (fun s e => s.changesRole resolve e = false)
      (node.processControlPacket resolve sourcePeerId (controlHeader .punchAck ++ back) env).1
      events) :
    probeTimes resolve peer.address
      (node.processControlPacket resolve sourcePeerId (controlHeader .punchAck ++ back) env).1
      events = [] :=
  ((sound_of_exec hexec).step (e := .process sourcePeerId (controlHeader .punchAck ++ back) env)
    rfl).not_probed (acknowledged_of_punchAck hpeer hother back env) hrole

/-! ## Two runs -/

/-- A resolver that takes any name for a numeric one. -/
def resolveText (name : Bytes) (port : UInt16) : Option Address :=
  some (Address.ofText name port AddressFamily.inet.toU8)

/-- A host on port 7000 that another node has probed. -/
def probedHost : List NodeEvent :=
  [.begin 7000 ⟨5, true⟩, .ingest (Address.ofText kLoopbackText 7001 AddressFamily.inet.toU8),
    .process 0 (controlHeader .punchProbe) ⟨5, true⟩]

/-- It probes back at once and once more an interval later. -/
theorem probes_bounded_two :
    ∃ node, (machine resolveText).exec init probedHost = some node ∧
      probeTimes resolveText (Address.ofText kLoopbackText 7001 AddressFamily.inet.toU8) node
        [.tick 5, .tick 6, .tick 125] = [5, 125] ∧
      [5, 125].length ≤ 12 ∧
      [5, 125].Pairwise fun time later => time + kPunchProbeInterval ≤ later := by
  obtain ⟨node, hexec, hrun⟩ : ∃ node, (machine resolveText).exec init probedHost = some node ∧
      (probeTimes resolveText (Address.ofText kLoopbackText 7001 AddressFamily.inet.toU8) node
        [.tick 5, .tick 6, .tick 125] = [5, 125] ∧
      timesConcerned resolveText (Address.ofText kLoopbackText 7001 AddressFamily.inet.toU8) node
        [.tick 5, .tick 6, .tick 125] = 0) := ⟨_, rfl, by decide +kernel⟩
  obtain ⟨hlength, hspaced⟩ := probes_bounded hexec [.tick 5, .tick 6, .tick 125]
    (Address.ofText kLoopbackText 7001 AddressFamily.inet.toU8)
  refine ⟨node, hexec, hrun.1, ?_, ?_⟩
  · rw [← hrun.1]
    refine hlength.trans ?_
    rw [hrun.2, Nat.mul_zero, Nat.add_zero]
    exact probeBudget_le ..
  · rw [← hrun.1]
    exact hspaced hrun.2

/-- Once the other node has acknowledged, the timer is silent, also when a probe comes in and the
host is told to become what it is. -/
theorem not_probed_after_ack_host :
    ∃ node, (machine resolveText).exec init probedHost = some node ∧
      probeTimes resolveText (Address.ofText kLoopbackText 7001 AddressFamily.inet.toU8)
        (node.processControlPacket resolveText 0 (controlHeader .punchAck ++ []) ⟨6, true⟩).1
        [.tick 7, .process 0 (controlHeader .punchProbe) ⟨8, true⟩, .becomeHost ⟨9, true⟩,
          .begin 0 ⟨9, true⟩, .tick 200] = [] := by
  obtain ⟨node, hexec, hpeer, hother, hrole⟩ : ∃ node,
      (machine resolveText).exec init probedHost = some node ∧
      node.peerMapping.getPeer 0 =
        some ⟨0, Address.ofText kLoopbackText 7001 AddressFamily.inet.toU8⟩ ∧
      node.isSelfAddress (Address.ofText kLoopbackText 7001 AddressFamily.inet.toU8) = false ∧
      (machine resolveText).Along (fun s e => s.changesRole resolveText e = false)
        (node.processControlPacket resolveText 0 (controlHeader .punchAck ++ []) ⟨6, true⟩).1
        [.tick 7, .process 0 (controlHeader .punchProbe) ⟨8, true⟩, .becomeHost ⟨9, true⟩,
          .begin 0 ⟨9, true⟩, .tick 200] :=
    ⟨_, rfl, by decide +kernel, by decide +kernel, by decide +kernel⟩
  exact ⟨node, hexec, not_probed_after_ack hexec hpeer hother [] ⟨6, true⟩ hrole⟩

end Runs

end ZP2PNode

end ZetaNet
