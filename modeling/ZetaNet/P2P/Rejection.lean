import ZetaNet.Lib.Machine
import ZetaNet.P2P.Handlers

/-!
# Malformed control packets

A payload that cannot be read to its end leaves the node as it was, but for a roster: its loop
has applied the addresses before the broken one. Nothing the loop does is taken back later, so a
malformed roster changes nothing exactly if each of these addresses has nothing to change.
-/

namespace ZetaNet

open Wire Checks

namespace ZPeerMapping

variable {A : Type} [DecidableEq A]

/-- `GetOrCreatePeer` of the address adds no entry: there is one, or there cannot be one. -/
def HoldsOrFull (address : A) (mapping : ZPeerMapping A) : Prop :=
  (∃ peer ∈ mapping.peerList, peer.address = address) ∨
    kMaxPeers ≤ mapping.peerList.length ∨ ZPeerId.maxId ≤ mapping.nextId

/-- `GetOrCreatePeer` leaves the table alone, or makes it longer. -/
theorem getOrCreatePeer_grows (address : A) (mapping : ZPeerMapping A) :
    (mapping.HoldsOrFull address ∧ (mapping.getOrCreatePeer address).2 = mapping) ∨
      (¬ mapping.HoldsOrFull address ∧
        mapping.peerList.length < (mapping.getOrCreatePeer address).2.peerList.length) := by
  rcases getOrCreatePeer_cases address mapping with
    ⟨peer, heq, hmem, haddress⟩ | ⟨grown, heq, hlist, -, hroom, hids, hfresh⟩ | ⟨heq, hfull, -⟩
  · rw [heq]
    exact .inl ⟨.inl ⟨peer, hmem, haddress⟩, rfl⟩
  · refine .inr ⟨?_, by rw [heq, hlist, List.length_append]; exact Nat.lt_succ_self _⟩
    rintro (⟨peer, hpeer, haddress⟩ | hfull | hused)
    · exact hfresh peer hpeer haddress
    · omega
    · exact absurd hids (UInt32.not_lt.mpr hused)
  · rw [heq]
    exact .inl ⟨.inr hfull, rfl⟩

end ZPeerMapping

/-! ## Probes -/

namespace PunchPeerState

/-- What `ArmPunchProbe` does to the state of a peer. -/
def rearm (now : Nat) (state : PunchPeerState) : PunchPeerState :=
  if state.acknowledged then state
  else
    { state with
      attemptsSent := if state.attemptsSent ≥ kMaxPunchProbeAttempts then 0 else state.attemptsSent
      nextProbeTime := now }

/-- The peer has answered, or its probe is due. -/
def Ready (now : Nat) (state : PunchPeerState) : Prop :=
  state.acknowledged = true ∨
    (state.attemptsSent < kMaxPunchProbeAttempts ∧ state.nextProbeTime = now)

theorem address_rearm (now : Nat) (state : PunchPeerState) :
    (state.rearm now).address = state.address := by
  unfold rearm
  split <;> rfl

theorem ready_rearm (now : Nat) (state : PunchPeerState) : (state.rearm now).Ready now := by
  unfold rearm
  split
  · exact .inl ‹_›
  · refine .inr ⟨?_, rfl⟩
    dsimp only
    split
    · decide
    · exact UInt32.not_le.mp ‹_›

theorem rearm_eq_self_iff {now : Nat} {state : PunchPeerState} :
    state.rearm now = state ↔ state.Ready now := by
  constructor
  · intro h
    rw [← h]
    exact ready_rearm now state
  · rintro (hacknowledged | ⟨hattempts, hdue⟩)
    · exact if_pos hacknowledged
    · unfold rearm
      split
      · rfl
      · rw [if_neg (UInt32.not_le.mpr hattempts), ← hdue]

end PunchPeerState

namespace ZP2PNode

/-- The entry of an address in `punch_peers_`. -/
def punchPeer? (address : Address) (states : List PunchPeerState) : Option PunchPeerState :=
  states.find? (·.address = address)

/-- The node has nothing more to arm for the address. -/
def Armed (now : Nat) (address : Address) (node : ZP2PNode) : Prop :=
  ∃ state, punchPeer? address node.punchPeers = some state ∧ state.Ready now

section Update

variable {now : Nat} {endpoint : Address} {change : PunchPeerState → PunchPeerState}

theorem punchPeer?_updatePunchPeer (hkeeps : ∀ state, (change state).address = state.address)
    (states : List PunchPeerState) :
    punchPeer? endpoint (updatePunchPeer.go now endpoint change states) =
      some (change ((punchPeer? endpoint states).getD ⟨endpoint, 0, false, now, now⟩)) := by
  induction states with
  | nil => simp [updatePunchPeer.go, punchPeer?, hkeeps]
  | cons state states ih =>
      rw [updatePunchPeer.go]
      split
      · rename_i haddress
        simp [punchPeer?, hkeeps, haddress]
      · rename_i haddress
        simpa [punchPeer?, haddress] using ih

theorem punchPeer?_updatePunchPeer_of_ne
    (hkeeps : ∀ state, (change state).address = state.address) {other : Address}
    (hother : other ≠ endpoint) (states : List PunchPeerState) :
    punchPeer? other (updatePunchPeer.go now endpoint change states) =
      punchPeer? other states := by
  induction states with
  | nil => simp [updatePunchPeer.go, punchPeer?, hkeeps, hother.symm]
  | cons state states ih =>
      rw [updatePunchPeer.go]
      split
      · rename_i haddress
        simp [punchPeer?, hkeeps, haddress, hother.symm]
      · unfold punchPeer? at ih ⊢
        rw [List.find?_cons, List.find?_cons, ih]

/-- The list stays as it is if the entry is there and stays as it is. -/
theorem updatePunchPeer_eq_self {states : List PunchPeerState} {state : PunchPeerState}
    (hfound : punchPeer? endpoint states = some state) (hsame : change state = state) :
    updatePunchPeer.go now endpoint change states = states := by
  induction states with
  | nil => cases hfound
  | cons first states ih =>
      rw [updatePunchPeer.go]
      split
      · rename_i haddress
        have hfirst : first = state := by simpa [punchPeer?, haddress] using hfound
        rw [hfirst, hsame]
      · rename_i haddress
        rw [ih (by simpa [punchPeer?, haddress] using hfound)]

end Update

/-! ## Addresses with nothing to change -/

/-- The loop body changes nothing for the address: it is the node's own, or it is in the table
if it can be and its punch is armed if it has one. -/
def Settled (now : Nat) (node : ZP2PNode) (address : Address) : Prop :=
  node.isSelfAddress address = true ∨
    (node.peerMapping.HoldsOrFull address ∧
      (node.type = .host ∨ address = node.hostEndpoint ∨ node.Armed now address))

/-- No way back: the table does not shrink, and what is armed stays armed. -/
structure Leads (now : Nat) (before after : ZP2PNode) : Prop where
  peers : before.peerMapping.peerList.length ≤ after.peerMapping.peerList.length
  armed : ∀ address, before.Armed now address → after.Armed now address

theorem Leads.refl (now : Nat) (node : ZP2PNode) : Leads now node node :=
  ⟨Nat.le_refl _, fun _ harmed => harmed⟩

theorem Leads.trans {now : Nat} {before mid after : ZP2PNode} (h : Leads now before mid)
    (h' : Leads now mid after) : Leads now before after :=
  ⟨h.peers.trans h'.peers, fun address harmed => h'.armed address (h.armed address harmed)⟩

/-- `ArmPunchProbe` of an address that is neither the node's own nor that of its host. -/
def armed (now : Nat) (address : Address) (node : ZP2PNode) : ZP2PNode :=
  node.updatePunchPeer now address (PunchPeerState.rearm now)

theorem armed_armed (now : Nat) (address : Address) (node : ZP2PNode) :
    (node.armed now address).Armed now address :=
  ⟨_, punchPeer?_updatePunchPeer (PunchPeerState.address_rearm now) node.punchPeers,
    PunchPeerState.ready_rearm ..⟩

theorem armed_eq_self {now : Nat} {address : Address} {node : ZP2PNode}
    (h : node.Armed now address) : node.armed now address = node := by
  obtain ⟨state, hfound, hready⟩ := h
  unfold armed updatePunchPeer
  rw [updatePunchPeer_eq_self hfound (PunchPeerState.rearm_eq_self_iff.mpr hready)]

theorem Armed.armed {now : Nat} {address : Address} {node : ZP2PNode}
    (h : node.Armed now address) (other : Address) :
    (node.armed now other).Armed now address := by
  by_cases hother : address = other
  · rw [hother]
    exact armed_armed ..
  · obtain ⟨state, hfound, hready⟩ := h
    exact ⟨state, (punchPeer?_updatePunchPeer_of_ne (PunchPeerState.address_rearm now) hother
      node.punchPeers).trans hfound, hready⟩

/-- The loop body with its tests resolved. -/
theorem learnAddress_eq (now : Nat) (node : ZP2PNode) (address : Address) :
    node.learnAddress now address =
      if node.isSelfAddress address then node
      else if node.type = .host ∨ address = node.hostEndpoint then node.rememberPeer address
      else (node.rememberPeer address).armed now address := by
  unfold learnAddress
  split
  · rfl
  · rename_i hself
    by_cases hplain : node.type = .host ∨ address = node.hostEndpoint
    · rw [if_pos hplain]
      refine if_neg fun ⟨hclient, hforeign⟩ => ?_
      rcases hplain with hhost | hhost
      · exact NodeType.noConfusion (hhost.symm.trans hclient)
      · exact hforeign hhost
    · obtain ⟨hhost, hforeign⟩ := not_or.mp hplain
      have hclient : node.type = .client := by
        cases htype : node.type with
        | host => exact absurd htype hhost
        | client => rfl
      have hforeignKnown : ¬ (node.rememberPeer address).isSelfAddress address = true := hself
      rw [if_neg hplain]
      dsimp only
      rw [if_pos ⟨hclient, hforeign⟩, armPunchProbe, if_neg hforeignKnown,
        if_neg fun h => hforeign h.2]
      rfl

theorem leads_learnAddress (now : Nat) (node : ZP2PNode) (address : Address) :
    Leads now node (node.learnAddress now address) := by
  have hpeers : node.peerMapping.peerList.length ≤
      (node.rememberPeer address).peerMapping.peerList.length :=
    (ZPeerMapping.prefix_getOrCreatePeer address node.peerMapping).length_le
  rw [learnAddress_eq]
  split
  · exact .refl ..
  · split
    · exact ⟨hpeers, fun _ harmed => harmed⟩
    · refine ⟨hpeers, fun other harmed => ?_⟩
      have hknown : (node.rememberPeer address).Armed now other := harmed
      exact hknown.armed address

theorem learnAddress_eq_self {now : Nat} {node : ZP2PNode} {address : Address}
    (h : node.Settled now address) : node.learnAddress now address = node := by
  rw [learnAddress_eq]
  rcases h with hself | ⟨hheld, hpunch⟩
  · exact if_pos hself
  · have hknown : node.rememberPeer address = node := by
      rcases ZPeerMapping.getOrCreatePeer_grows address node.peerMapping with
        ⟨-, hsame⟩ | ⟨hnew, -⟩
      · unfold rememberPeer
        rw [hsame]
      · exact absurd hheld hnew
    split
    · rfl
    · split
      · exact hknown
      · rename_i hplain
        have harmed : node.Armed now address := by
          rcases hpunch with hhost | hhost | harmed
          · exact absurd (.inl hhost) hplain
          · exact absurd (.inr hhost) hplain
          · exact harmed
        rw [hknown, armed_eq_self harmed]

/-- If there is a way back, there was nothing to change. -/
theorem settled_of_leads {now : Nat} {node : ZP2PNode} {address : Address}
    (h : Leads now (node.learnAddress now address) node) : node.Settled now address := by
  by_cases hself : node.isSelfAddress address
  · exact .inl hself
  · have hheld : node.peerMapping.HoldsOrFull address := by
      by_contra hnew
      have hpeers := h.peers
      rcases ZPeerMapping.getOrCreatePeer_grows address node.peerMapping with
        ⟨hheld, -⟩ | ⟨-, hgrows⟩
      · exact hnew hheld
      · have hlearned : (node.learnAddress now address).peerMapping =
            (node.peerMapping.getOrCreatePeer address).2 := by
          rw [learnAddress_eq, if_neg hself]
          split <;> rfl
        rw [hlearned] at hpeers
        omega
    refine .inr ⟨hheld, ?_⟩
    by_cases hplain : node.type = .host ∨ address = node.hostEndpoint
    · exact hplain.imp_right .inl
    · refine .inr (.inr (h.armed address ?_))
      rw [learnAddress_eq, if_neg hself, if_neg hplain]
      exact armed_armed ..

/-- The loop changes nothing exactly if none of its addresses has anything to change. -/
theorem learnAddresses_eq_self_iff (now : Nat) (node : ZP2PNode) (addresses : List Address) :
    addresses.foldl (learnAddress now) node = node ↔
      ∀ address ∈ addresses, node.Settled now address := by
  rw [@List.foldl_eq_self_iff _ _ (learnAddress now) (Leads now) (.refl now)
    (fun _ _ _ => Leads.trans) (leads_learnAddress now)
    (fun _ _ hback => learnAddress_eq_self (settled_of_leads hback))]
  refine forall₂_congr fun address _ => ⟨fun hsame => settled_of_leads ?_, learnAddress_eq_self⟩
  rw [hsame]
  exact .refl ..

/-! ## Packets that cannot be read to their end -/

section Handlers

variable (resolve : Bytes → UInt16 → Option Address)

/-- But for a roster, everything is read before the node changes. -/
theorem keepsOnExit_handleControlPacket {data : Bytes}
    (hkind : ∀ cursor, readControlHeader data ≠ .ok (.peerRoster, cursor))
    (sourcePeerId : UInt32) (env : NodeEnv) :
    (handleControlPacket resolve sourcePeerId data env).KeepsOnExit := by
  refine Handler.keepsOnExit_check_bind fun (kind, cursor) hheader =>
    Handler.keepsOnExit_get_bind fun (node, sent) => ?_
  have hpure : (pure () : ControlHandler Unit).KeepsOnExit :=
    (Handler.neverExits_pure ()).keepsOnExit
  have hperform : ∀ call, (perform call).KeepsOnExit :=
    fun call => (Handler.neverExits_modify _).keepsOnExit
  rw [scanControlHeader_eq] at hheader
  dsimp only
  cases kind with
  | peerRoster => exact absurd (safely_eq_ok hheader) (hkind cursor)
  | invalid => exact hpure
  | joinHello =>
      dsimp only
      split
      · exact hpure
      · split
        · exact hpure
        · exact Handler.keepsOnExit_check_bind fun _ _ => hperform _
  | welcome | hostTransition =>
      dsimp only
      split
      · exact hpure
      · exact Handler.keepsOnExit_check_bind fun _ _ => hperform _
  | keepAlive | punchProbe | punchAck =>
      dsimp only
      split
      · exact hpure
      · split
        · exact hpure
        · exact hperform _

/-- None of the addresses a roster lists before the first that cannot be read has anything to
change. -/
def RosterSettled (now : Nat) (data : Bytes) (node : ZP2PNode) : Prop :=
  ∀ cursor peerCount next, readControlHeader data = .ok (.peerRoster, cursor) →
    readU16 data cursor = some (peerCount, next) →
    ∀ address ∈ rosterEntries data peerCount.toNat next, node.Settled now address

/-- A control packet that cannot be read to its end leaves the node and its queue as they were
exactly if it is no roster, or one with nothing to change before its broken entry. -/
theorem malformed_control_iff {sourcePeerId : UInt32} {data : Bytes} {env : NodeEnv}
    {node : ZP2PNode} {sent : List ControlSend} {error : ControlError}
    {after : ZP2PNode × List ControlSend}
    (hstop : (handleControlPacket resolve sourcePeerId data env).outcome (node, sent) =
      (.error (.exit error), after)) :
    after = (node, sent) ↔ node.RosterSettled env.now data := by
  -- every other kind exits before its first change
  by_cases hroster : ∃ cursor, readControlHeader data = .ok (.peerRoster, cursor)
  · obtain ⟨cursor, hheader⟩ := hroster
    have hread {cursor' : Nat} (h : readControlHeader data = .ok (.peerRoster, cursor')) :
        cursor' = cursor :=
      (Prod.mk.inj (Except.ok.inj (h.symm.trans hheader))).2
    rw [handleControlPacket, scanControlHeader_eq, hheader, safely_ok,
      Handler.outcome_check_ok_bind] at hstop
    dsimp only at hstop
    rw [Handler.outcome_get_bind] at hstop
    dsimp only at hstop
    split at hstop
    · -- a roster of somebody else is not read
      cases hstop
    · rw [readU16OrExit_eq] at hstop
      cases hcount : readU16 data cursor with
      | none =>
          rw [hcount, succeed_none, safely_error, Handler.outcome_check_error_bind] at hstop
          refine iff_of_true (Prod.mk.inj hstop).2.symm fun cursor' peerCount next h hcount' => ?_
          rw [hread h, hcount] at hcount'
          cases hcount'
      | some found =>
          obtain ⟨peerCount, next⟩ := found
          -- the loop leaves what its readable addresses have changed
          obtain ⟨result, -, hloop⟩ := leaves_handleRoster env.now data peerCount.toNat next node
            sent
          rw [hcount, succeed_some, safely_ok, Handler.outcome_check_ok_bind] at hstop
          have hafter := (Prod.mk.inj (hloop.symm.trans hstop)).2
          rw [← hafter, Prod.mk.injEq, and_iff_left rfl, learnAddresses_eq_self_iff]
          constructor
          · intro hsettled cursor' peerCount' next' h hcount'
            rw [hread h, hcount] at hcount'
            obtain ⟨rfl, rfl⟩ := Prod.mk.inj (Option.some.inj hcount')
            exact hsettled
          · exact fun hsettled => hsettled cursor peerCount next hheader hcount
  · have hkind : ∀ cursor, readControlHeader data ≠ .ok (.peerRoster, cursor) :=
      fun cursor hheader => hroster ⟨cursor, hheader⟩
    have hkept := keepsOnExit_handleControlPacket resolve hkind sourcePeerId env _ _ _ hstop
    exact iff_of_true hkept fun cursor _ _ hheader => absurd hheader (hkind cursor)

end Handlers

/-- A resolver that takes every name for an address. -/
def literal (name : Bytes) (port : UInt16) : Option Address :=
  some (Address.ofText name port AddressFamily.inet.toU8)

/-- A client that has heard from its host. -/
def guest : ZP2PNode :=
  (init.connect literal kLoopbackText 7000 7001 ⟨1, true⟩).2.1.rememberPeer (loopback 7000)

/-- A roster of two addresses that ends behind the family of the second. -/
def cutRoster (first : Address) : Bytes :=
  controlHeader .peerRoster ++ leU16 2 ++ addressRecord first ++ [AddressFamily.inet.toU8]

/-- The host is all the client can read of such a roster, and it knows its host. -/
theorem malformed_control_iff_cutRoster :
    ((handleControlPacket literal 0 (cutRoster (loopback 7000)) ⟨2, true⟩).outcome
      (guest, [])).2 = (guest, []) := by
  have hstop : (handleControlPacket literal 0 (cutRoster (loopback 7000)) ⟨2, true⟩).outcome
      (guest, []) = (.error (.exit .truncated), _) := rfl
  rw [hstop]
  refine (malformed_control_iff literal hstop).mpr ?_
  intro cursor peerCount next hheader hcount address haddress
  have hheaderRead : readControlHeader (cutRoster (loopback 7000)) = .ok (.peerRoster, 6) := rfl
  obtain ⟨-, rfl⟩ := Prod.mk.inj (Except.ok.inj (hheaderRead.symm.trans hheader))
  have hcountRead : readU16 (cutRoster (loopback 7000)) 6 = some (2, 8) := rfl
  obtain ⟨rfl, rfl⟩ := Prod.mk.inj (Option.some.inj (hcountRead.symm.trans hcount))
  have hentries : rosterEntries (cutRoster (loopback 7000)) 2 8 = [loopback 7000] := rfl
  obtain rfl := List.mem_singleton.mp (hentries ▸ haddress)
  exact .inr ⟨.inl ⟨⟨0, loopback 7000⟩, by decide, rfl⟩, .inr (.inl rfl)⟩

/-- The first address is remembered before the second is found broken. -/
theorem malformed_control_fails_cutRoster :
    ¬ ∀ (resolve : Bytes → UInt16 → Option Address) (sourcePeerId : UInt32) (data : Bytes)
      (env : NodeEnv) (node : ZP2PNode) (sent : List ControlSend) (error : ControlError)
      (after : ZP2PNode × List ControlSend),
      (handleControlPacket resolve sourcePeerId data env).outcome (node, sent) =
        (.error (.exit error), after) →
      after = (node, sent) := by
  intro h
  have hkept := h literal 0 (cutRoster (loopback 7002)) ⟨2, true⟩ guest [] .truncated _ rfl
  have hlength := congrArg (fun state => state.1.peerMapping.peerList.length) hkept
  exact absurd hlength (by decide)

end ZP2PNode

end ZetaNet
