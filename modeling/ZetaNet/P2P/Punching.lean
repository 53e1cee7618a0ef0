import ZetaNet.P2P.Reachable

/-!
# Punching over whole runs

How often a node probes an address, whatever packets arrive and whenever its timer runs. The
punching state of the address has a budget of probes. Only a tick spends it, one probe at a
time, and only a packet that concerns the address or a change of role fills it up again.
-/

namespace ZetaNet

open Wire Checks

/-- The clock an event reads. -/
def NodeEvent.now : NodeEvent → Nat
  | .begin _ env => env.now
  | .connect _ _ _ env => env.now
  | .becomeHost env => env.now
  | .ingest _ => 0
  | .process _ _ env => env.now
  | .tick now => now

namespace ZP2PNode

/-! ## What a run sends -/

section Sends

variable (resolve : Bytes → UInt16 → Option Address)

/-- The control packets that an event sends. -/
def sends (node : ZP2PNode) : NodeEvent → List ControlSend
  | .begin _ _ => []
  | .connect hostIp hostPort localPort env =>
      (node.connect resolve hostIp hostPort localPort env).2.2
  | .becomeHost env => (node.becomeHost resolve env).2
  | .ingest _ => []
  | .process sourcePeerId data env =>
      (node.processControlPacket resolve sourcePeerId data env).2
  | .tick now => (node.tickNatPunchthrough now).2

/-- A probe of the address. -/
def probe (address : Address) : ControlSend := ⟨address, controlHeader .punchProbe⟩

/-- The times at which a run sends a probe to the address. -/
def probeTimes (address : Address) : ZP2PNode → List NodeEvent → List Nat
  | _, [] => []
  | node, e :: events =>
      List.replicate ((node.sends resolve e).count (probe address)) e.now ++
        ((machine resolve).step node e).elim [] fun next => probeTimes address next events

end Sends

/-- None of the packets is a probe. -/
def NoProbe (sends : List ControlSend) : Prop :=
  ∀ send ∈ sends, ∃ kind back, kind ≠ ControlKind.punchProbe ∧
    send.payload = controlHeader kind ++ back

namespace NoProbe

theorem nil : NoProbe [] := fun _ h => absurd h List.not_mem_nil

theorem append {sends sends' : List ControlSend} (h : NoProbe sends) (h' : NoProbe sends') :
    NoProbe (sends ++ sends') := by
  intro send hsend
  rcases List.mem_append.mp hsend with hsend | hsend
  · exact h send hsend
  · exact h' send hsend

theorem count_eq_zero {sends : List ControlSend} (h : NoProbe sends) (address : Address) :
    sends.count (probe address) = 0 := by
  refine List.count_eq_zero.mpr fun hmem => ?_
  obtain ⟨kind, back, hkind, hpayload⟩ := h _ hmem
  have hheader := readControlHeader_controlHeader kind back
  have hprobe := readControlHeader_controlHeader .punchProbe []
  rw [List.append_nil, show controlHeader .punchProbe = controlHeader kind ++ back from hpayload,
    hheader] at hprobe
  exact hkind (Prod.mk.inj (Except.ok.inj hprobe)).1

theorem push {kind : ControlKind} (hkind : kind ≠ .punchProbe) (back : Bytes) (id : UInt32)
    (node : ZP2PNode) : NoProbe (node.pushControlPacket id (controlHeader kind ++ back)) :=
  fun _ hsend => ⟨kind, back, hkind, payload_of_mem_push hsend⟩

theorem pushToAddress {kind : ControlKind} (hkind : kind ≠ .punchProbe) (destination : Address)
    (node : ZP2PNode) :
    NoProbe (node.pushControlPacketToAddress destination (controlHeader kind)).2 := by
  have hpush := push hkind []
  rw [List.append_nil] at hpush
  unfold pushControlPacketToAddress
  split
  · exact nil
  · exact hpush _ _

theorem broadcastPeerRoster (node : ZP2PNode) : NoProbe node.broadcastPeerRoster := by
  unfold ZP2PNode.broadcastPeerRoster
  split
  · exact nil
  split
  · exact nil
  · rename_i payload hpayload
    unfold rosterPayload at hpayload
    dsimp only at hpayload
    split at hpayload
    · cases hpayload
    · obtain ⟨back, rfl⟩ := serializeAddresses_extends hpayload
      rw [appendU16, List.append_assoc]
      exact push (by decide) _ _ node

/-- An address record behind a header, or nothing. -/
theorem pushRecord {kind : ControlKind} (hkind : kind ≠ .punchProbe) (id : UInt32)
    (address : Address) (node : ZP2PNode) :
    NoProbe (match serializeAddress (controlHeader kind) address with
      | none => []
      | some payload => node.pushControlPacket id payload) := by
  split
  · exact nil
  · rename_i payload hpayload
    obtain ⟨back, rfl⟩ := serializeAddress_extends hpayload
    exact push hkind _ _ node

section Roles

variable (resolve : Bytes → UInt16 → Option Address)

theorem promoteToHost (announceTransition : Bool) (env : NodeEnv) (node : ZP2PNode) :
    NoProbe (node.promoteToHost resolve announceTransition env).2.2 := by
  have hannounced (endpoint : Address) : NoProbe (node.broadcastHostTransition endpoint) :=
    pushRecord (by decide) _ endpoint node
  unfold ZP2PNode.promoteToHost
  rcases node.initAsHost resolve node.localPort env with ⟨started, host⟩
  split
  · exact nil
  split
  · exact nil
  cases started with
  | false =>
      dsimp only
      split
      · split
        · exact nil
        · exact hannounced _
      · exact nil
  | true =>
      dsimp only
      split
      · split
        · exact nil
        · exact (hannounced _).append (broadcastPeerRoster _)
      · exact nil.append (broadcastPeerRoster _)

theorem reconnectToHost (endpoint : Address) (env : NodeEnv) (node : ZP2PNode) :
    NoProbe (node.reconnectToHost resolve endpoint env).2.2 := by
  unfold ZP2PNode.reconnectToHost
  split
  · exact promoteToHost resolve false env node
  rcases node.initAsClient resolve endpoint.text endpoint.port env with ⟨started, client⟩
  cases started with
  | false => exact nil
  | true => exact push (by decide) _ _ _

theorem processControlPacket (sourcePeerId : UInt32) (data : Bytes) (env : NodeEnv)
    (node : ZP2PNode) : NoProbe (node.processControlPacket resolve sourcePeerId data env).2 := by
  unfold ZP2PNode.processControlPacket
  cases hheader : readControlHeader data with
  | error e => exact nil
  | ok found =>
      obtain ⟨kind, cursor⟩ := found
      -- every kind but two sends nothing or refuses
      cases kind with
      | invalid => exact nil
      | joinHello =>
          dsimp only
          split
          · exact nil
          · split
            · exact nil
            · exact (pushRecord (by decide) _ _ _).append (broadcastPeerRoster _)
      | welcome | peerRoster =>
          dsimp only
          split
          · exact nil
          · split <;> exact nil
      | keepAlive | punchAck =>
          dsimp only
          split
          · exact nil
          · split <;> exact nil
      | hostTransition =>
          dsimp only
          split
          · exact nil
          · split
            · exact nil
            · split
              · exact promoteToHost resolve false env node
              · exact reconnectToHost resolve _ env node
      | punchProbe =>
          dsimp only
          split
          · exact nil
          · split
            · exact nil
            · exact pushToAddress (by decide) _ _

/-- Only the timer probes. -/
theorem sends {node : ZP2PNode} {e : NodeEvent} (htick : ∀ now, e ≠ .tick now) :
    NoProbe (node.sends resolve e) := by
  cases e with
  | begin | ingest => exact nil
  | connect hostIp hostPort localPort env =>
      show NoProbe (node.connect resolve hostIp hostPort localPort env).2.2
      unfold ZP2PNode.connect
      split
      · exact nil
      · rcases ({ node with localPort } : ZP2PNode).initAsClient resolve hostIp hostPort env with
          ⟨started, client⟩
        cases started with
        | false => exact nil
        | true => exact @push .joinHello (by decide) _ _ _
  | becomeHost env => exact promoteToHost resolve true env node
  | process sourcePeerId data env => exact processControlPacket resolve sourcePeerId data env node
  | tick now => exact absurd rfl (htick now)

end Roles

end NoProbe

/-! ## Punching states -/

/-- `FindPunchPeerState`. -/
def findPunchPeerState (endpoint : Address) (node : ZP2PNode) : Option PunchPeerState :=
  node.punchPeers.find? (·.address = endpoint)

/-- One state for each address, with no more probes counted than there may be. -/
structure Punching (node : ZP2PNode) : Prop where
  distinct : (node.punchPeers.map PunchPeerState.address).Nodup
  attempts_le : ∀ state ∈ node.punchPeers, state.attemptsSent ≤ kMaxPunchProbeAttempts

/-- The change keeps the address, takes no acknowledgement back and counts no probe. -/
structure Gentle (change : PunchPeerState → PunchPeerState) : Prop where
  address : ∀ state, (change state).address = state.address
  acknowledged : ∀ state, state.acknowledged = true → (change state).acknowledged = true
  attempts_le : ∀ state, (change state).attemptsSent ≤ state.attemptsSent

/-- What `GetOrCreatePunchPeerState` finds or makes, and `change` in its place. -/
theorem updatePunchPeer_go_cases (now : Nat) (endpoint : Address)
    (change : PunchPeerState → PunchPeerState) (states : List PunchPeerState) :
    (∃ front state back, states = front ++ state :: back ∧ state.address = endpoint ∧
      (∀ other ∈ front, other.address ≠ endpoint) ∧
      updatePunchPeer.go now endpoint change states = front ++ change state :: back) ∨
    ((∀ other ∈ states, other.address ≠ endpoint) ∧
      updatePunchPeer.go now endpoint change states =
        states ++ [change ⟨endpoint, 0, false, now, now⟩]) := by
  induction states with
  | nil => exact .inr ⟨fun _ h => absurd h List.not_mem_nil, rfl⟩
  | cons state states ih =>
      by_cases hstate : state.address = endpoint
      · refine .inl ⟨[], state, states, rfl, hstate, fun _ h => absurd h List.not_mem_nil, ?_⟩
        rw [updatePunchPeer.go, if_pos hstate, List.nil_append]
      · rw [updatePunchPeer.go, if_neg hstate]
        rcases ih with ⟨front, found, back, rfl, haddress, hfront, heq⟩ | ⟨hnone, heq⟩
        · refine .inl ⟨state :: front, found, back, rfl, haddress, ?_, by rw [heq]; rfl⟩
          exact List.forall_mem_cons.mpr ⟨hstate, hfront⟩
        · exact .inr ⟨List.forall_mem_cons.mpr ⟨hstate, hnone⟩, by rw [heq]; rfl⟩

section Updates

variable {now : Nat} {endpoint address : Address} {change : PunchPeerState → PunchPeerState}
  {node : ZP2PNode}

theorem findPunchPeerState_updatePunchPeer_of_ne (hchange : Gentle change)
    (hne : address ≠ endpoint) :
    (node.updatePunchPeer now endpoint change).findPunchPeerState address =
      node.findPunchPeerState address := by
  have hskip {state : PunchPeerState} (hstate : state.address = endpoint)
      (back : List PunchPeerState) :
      (state :: back).find? (·.address = address) = back.find? (·.address = address) :=
    List.find?_cons_of_neg fun h => hne ((of_decide_eq_true h).symm.trans hstate)
  unfold findPunchPeerState updatePunchPeer
  rcases updatePunchPeer_go_cases now endpoint change node.punchPeers with
    ⟨front, state, back, hstates, haddress, -, heq⟩ | ⟨-, heq⟩
  · rw [heq, hstates, List.find?_append, List.find?_append,
      hskip ((hchange.address state).trans haddress), hskip haddress]
  · rw [heq, List.find?_append, hskip (hchange.address _), List.find?_nil, Option.or_none]

theorem Punching.updatePunchPeer (h : node.Punching) (hchange : Gentle change) :
    (node.updatePunchPeer now endpoint change).Punching := by
  have hfresh : (change ⟨endpoint, 0, false, now, now⟩).attemptsSent ≤ kMaxPunchProbeAttempts :=
    UInt32.le_trans (hchange.attempts_le _) UInt32.zero_le
  unfold ZP2PNode.updatePunchPeer
  rcases updatePunchPeer_go_cases now endpoint change node.punchPeers with
    ⟨front, state, back, hstates, -, -, heq⟩ | ⟨hnone, heq⟩
  · have hdistinct := h.distinct
    have hattempts := h.attempts_le
    rw [hstates] at hdistinct hattempts
    refine ⟨?_, ?_⟩
    · simp only [heq, List.map_append, List.map_cons, hchange.address] at hdistinct ⊢
      exact hdistinct
    · simp only [heq, List.forall_mem_append, List.forall_mem_cons] at hattempts ⊢
      exact ⟨hattempts.1, UInt32.le_trans (hchange.attempts_le _) hattempts.2.1, hattempts.2.2⟩
  · refine ⟨?_, ?_⟩
    · simp only [heq, List.map_append, List.map_cons, List.map_nil, hchange.address]
      refine h.distinct.append (List.nodup_singleton _) fun other hother hsingle => ?_
      obtain ⟨state, hstate, rfl⟩ := List.mem_map.mp hother
      exact hnone state hstate (List.mem_singleton.mp hsingle)
    · simp only [heq, List.forall_mem_append, List.forall_mem_singleton]
      exact ⟨h.attempts_le, hfresh⟩

theorem punchPeers_pushControlPacketToAddress (destination : Address) (payload : Bytes)
    (node : ZP2PNode) :
    (node.pushControlPacketToAddress destination payload).1.punchPeers = node.punchPeers := by
  unfold pushControlPacketToAddress
  split <;> rfl

/-- The state of the address is acknowledged. -/
def Acknowledged (address : Address) (node : ZP2PNode) : Prop :=
  ∃ state ∈ node.punchPeers, state.address = address ∧ state.acknowledged = true

theorem Acknowledged.updatePunchPeer (h : node.Acknowledged address) (hchange : Gentle change) :
    (node.updatePunchPeer now endpoint change).Acknowledged address := by
  obtain ⟨state, hmem, haddress, hack⟩ := h
  unfold ZP2PNode.updatePunchPeer
  rcases updatePunchPeer_go_cases now endpoint change node.punchPeers with
    ⟨front, found, back, hstates, -, -, heq⟩ | ⟨-, heq⟩
  · rw [hstates, List.mem_append, List.mem_cons] at hmem
    rcases hmem with hmem | rfl | hmem
    · exact ⟨state, by rw [heq]; exact List.mem_append_left _ hmem, haddress, hack⟩
    · exact ⟨change state, by rw [heq]; exact List.mem_append_right _ List.mem_cons_self,
        (hchange.address state).trans haddress, hchange.acknowledged state hack⟩
    · exact ⟨state, by
        rw [heq]
        exact List.mem_append_right _ (List.mem_cons_of_mem _ hmem), haddress, hack⟩
  · exact ⟨state, by rw [heq]; exact List.mem_append_left _ hmem, haddress, hack⟩

end Updates

/-- The addresses that a `PeerRoster` lists, up to the first that cannot be read. -/
def rosterAddresses (data : Bytes) : Nat → Nat → List Address
  | 0, _ => []
  | count + 1, cursor =>
      match deserializeAddress data cursor with
      | .error _ => []
      | .ok (address, cursor) => address :: rosterAddresses data count cursor

/-- Peers are found or made, and the states of `touched` addresses change gently. -/
inductive Stirs (touched : Address → Prop) : ZP2PNode → ZP2PNode → Prop
  | trans {a b c : ZP2PNode} (h : Stirs touched a b) (h' : Stirs touched b c) :
      Stirs touched a c
  | same {before after : ZP2PNode} (h : after.punchPeers = before.punchPeers) :
      Stirs touched before after
  | update (now : Nat) (endpoint : Address) {change : PunchPeerState → PunchPeerState}
      (node : ZP2PNode) (htouched : touched endpoint) (hchange : Gentle change) :
      Stirs touched node (node.updatePunchPeer now endpoint change)

namespace Stirs

variable {touched : Address → Prop} {before after node : ZP2PNode} {address : Address}

theorem findPunchPeerState (h : Stirs touched before after) (haddress : ¬ touched address) :
    after.findPunchPeerState address = before.findPunchPeerState address := by
  induction h with
  | trans _ _ ih ih' => exact ih'.trans ih
  | same h => rw [ZP2PNode.findPunchPeerState, h, ZP2PNode.findPunchPeerState]
  | update now endpoint node htouched hchange =>
      refine findPunchPeerState_updatePunchPeer_of_ne hchange ?_
      rintro rfl
      exact haddress htouched

theorem punching (h : Stirs touched before after) (hp : before.Punching) : after.Punching := by
  induction h with
  | trans _ _ ih ih' => exact ih' (ih hp)
  | same h => exact ⟨h ▸ hp.distinct, h ▸ hp.attempts_le⟩
  | update now endpoint node htouched hchange => exact hp.updatePunchPeer hchange

theorem acknowledged (h : Stirs touched before after) (ha : before.Acknowledged address) :
    after.Acknowledged address := by
  induction h with
  | trans _ _ ih ih' => exact ih' (ih ha)
  | same h =>
      obtain ⟨state, hmem, hstate⟩ := ha
      exact ⟨state, h ▸ hmem, hstate⟩
  | update now endpoint node htouched hchange => exact ha.updatePunchPeer hchange

theorem armPunchProbe (now : Nat) {endpoint : Address} (node : ZP2PNode)
    (htouched : touched endpoint) : Stirs touched node (node.armPunchProbe now endpoint) := by
  unfold ZP2PNode.armPunchProbe
  split
  · exact same rfl
  split
  · exact same rfl
  · refine update now endpoint node htouched
      ⟨fun state => ?_, fun state hack => ?_, fun state => ?_⟩
    · split <;> rfl
    · rw [if_pos hack]
      exact hack
    · split
      · exact UInt32.le_refl _
      · show (if state.attemptsSent ≥ kMaxPunchProbeAttempts then 0 else state.attemptsSent) ≤ _
        split
        · exact UInt32.zero_le
        · exact UInt32.le_refl _

theorem rememberPeer (address : Address) (node : ZP2PNode) :
    Stirs touched node (node.rememberPeer address) := same rfl

theorem pushControlPacketToAddress (destination : Address) (payload : Bytes) (node : ZP2PNode) :
    Stirs touched node (node.pushControlPacketToAddress destination payload).1 :=
  same (punchPeers_pushControlPacketToAddress destination payload node)

theorem touch (now : Nat) {endpoint : Address} (node : ZP2PNode) (htouched : touched endpoint) :
    Stirs touched node (node.updatePunchPeer now endpoint fun state =>
      { state with lastKeepaliveTime := now }) :=
  update now endpoint node htouched ⟨fun _ => rfl, fun _ h => h, fun _ => UInt32.le_refl _⟩

theorem acknowledge (now : Nat) {endpoint : Address} (node : ZP2PNode)
    (htouched : touched endpoint) :
    Stirs touched node (node.updatePunchPeer now endpoint fun state =>
      { state with acknowledged := true, lastKeepaliveTime := now }) :=
  update now endpoint node htouched ⟨fun _ => rfl, fun _ _ => rfl, fun _ => UInt32.le_refl _⟩

theorem rearmPeers (htouched : ∀ address, touched address) (now : Nat) (peers : List Address)
    (node : ZP2PNode) : Stirs touched node (node.rearmPeers now peers) := by
  induction peers generalizing node with
  | nil => exact same rfl
  | cons address peers ih =>
      refine trans ?_ (ih _)
      unfold ZP2PNode.rearmPeer
      split
      · exact same rfl
      · exact (rememberPeer address node).trans (armPunchProbe now _ (htouched address))

theorem processRoster {data : Bytes} {count cursor : Nat}
    (htouched : ∀ address ∈ rosterAddresses data count cursor, touched address) (now : Nat)
    (node : ZP2PNode) : Stirs touched node (node.processRoster now data count cursor) := by
  induction count generalizing cursor node with
  | zero => exact same rfl
  | succ count ih =>
      unfold rosterAddresses at htouched
      unfold ZP2PNode.processRoster
      cases hread : deserializeAddress data cursor with
      | error e => exact same rfl
      | ok read =>
          rw [hread] at htouched
          obtain ⟨hfirst, hrest⟩ := List.forall_mem_cons.mp htouched
          dsimp only
          split
          · exact ih hrest node
          · refine trans ?_ (ih hrest _)
            split
            · exact (rememberPeer _ node).trans (armPunchProbe now _ hfirst)
            · exact rememberPeer _ node

end Stirs

/-! ## The timer -/

section Timer

variable {now : Nat} {state : PunchPeerState} {states : List PunchPeerState} {node : ZP2PNode}

/-- The timer sends the next probe of the state now. -/
def due (now : Nat) (node : ZP2PNode) (state : PunchPeerState) : Bool :=
  !node.isSelfAddress state.address ∧
    ¬ (node.type = .client ∧ state.address = node.hostEndpoint) ∧
    !state.acknowledged ∧ state.attemptsSent < kMaxPunchProbeAttempts ∧
    now ≥ state.nextProbeTime

/-- The state after a probe. -/
def probed (now : Nat) (state : PunchPeerState) : PunchPeerState :=
  { state with
    attemptsSent := state.attemptsSent + 1
    nextProbeTime := now + kPunchProbeInterval
    lastKeepaliveTime := now }

/-- A packet to an address goes there and nowhere else. -/
theorem sends_pushControlPacketToAddress (hgrown : node.peerMapping.Grown)
    (destination : Address) (payload : Bytes) :
    (node.pushControlPacketToAddress destination payload).2 = [] ∨
      (node.pushControlPacketToAddress destination payload).2 = [⟨destination, payload⟩] := by
  unfold pushControlPacketToAddress
  rcases hfound : node.peerMapping.getOrCreatePeer destination with ⟨found, peerMapping⟩
  cases found with
  | none => exact .inl rfl
  | some peer =>
      have hgrown' : peerMapping.Grown := by
        have h := hgrown.getOrCreatePeer destination
        rwa [hfound] at h
      obtain ⟨hmem, haddress⟩ := ZPeerMapping.getOrCreatePeer_mem hfound
      obtain ⟨hserver, hall⟩ := hgrown'.not_reserved hmem
      dsimp only
      unfold pushControlPacket
      split
      · exact .inl rfl
      · have hpeer : peerMapping.getPeer peer.identifier = some peer :=
          ZPeerMapping.getPeer_eq_some.mpr ⟨hmem, rfl⟩
        refine .inr ?_
        simp only [destinations, if_neg hserver, if_neg hall, hpeer, Option.map_some,
          Option.toList_some, List.map_cons, List.map_nil, haddress]

/-- A state that is due is probed; any other one at most has its keep-alive. -/
theorem tickPunchPeer_cases (hgrown : node.peerMapping.Grown) (now : Nat)
    (state : PunchPeerState) :
    let ticked := tickPunchPeer now state node
    (node.due now state = true ∧ ticked.1 = probed now state ∧
      (ticked.2.2 = [] ∨ ticked.2.2 = [probe state.address])) ∨
    (node.due now state = false ∧ (∃ t, ticked.1 = { state with lastKeepaliveTime := t }) ∧
      NoProbe ticked.2.2) := by
  have hsame : ∃ t, state = { state with lastKeepaliveTime := t } := ⟨_, rfl⟩
  unfold tickPunchPeer
  dsimp only
  split
  · rename_i hself
    exact .inr ⟨decide_eq_false fun h => by simp [hself] at h, hsame, NoProbe.nil⟩
  rename_i hother
  split
  · rename_i hhost
    exact .inr ⟨decide_eq_false fun h => h.2.1 hhost, hsame, NoProbe.nil⟩
  rename_i hhost
  split
  · rename_i hwaiting
    split
    · rename_i hready
      refine .inl ⟨decide_eq_true ⟨by simpa using hother, hhost, hwaiting, hready⟩, rfl, ?_⟩
      exact sends_pushControlPacketToAddress hgrown state.address (controlHeader .punchProbe)
    · rename_i hready
      exact .inr ⟨decide_eq_false fun h => hready h.2.2.2, hsame, NoProbe.nil⟩
  · rename_i hack
    have hnot : node.due now state = false := decide_eq_false fun h => hack h.2.2.1
    split
    · exact .inr ⟨hnot, ⟨now, rfl⟩, NoProbe.pushToAddress (by decide) _ node⟩
    · exact .inr ⟨hnot, hsame, NoProbe.nil⟩

/-- Learning about peers decides nothing about a state. -/
theorem Kept.tickPunchPeer {before after : ZP2PNode} (h : Kept before after) (now : Nat)
    (state : PunchPeerState) :
    (ZP2PNode.tickPunchPeer now state after).1 = (ZP2PNode.tickPunchPeer now state before).1 := by
  unfold ZP2PNode.tickPunchPeer
  rw [h.isSelfAddress, h.type, h.hostEndpoint]
  split
  · rfl
  split
  · rfl
  split
  · split <;> rfl
  · split <;> rfl

theorem Kept.due {before after : ZP2PNode} (h : Kept before after) (now : Nat)
    (state : PunchPeerState) : after.due now state = before.due now state := by
  unfold ZP2PNode.due
  rw [h.isSelfAddress, h.type, h.hostEndpoint]

/-- Each state ticks by itself. -/
theorem states_tickPunchPeers (now : Nat) (states : List PunchPeerState) (node : ZP2PNode) :
    (tickPunchPeers now states node).1 =
      states.map fun state => (tickPunchPeer now state node).1 := by
  induction states generalizing node with
  | nil => rfl
  | cons state states ih =>
      have hkept := (Learns.tickPunchPeer now state node).kept
      show (tickPunchPeer now state node).1 :: (tickPunchPeers now states _).1 = _
      rw [ih, List.map_cons]
      exact congrArg _ (List.map_congr_left fun other _ => hkept.tickPunchPeer now other)

theorem address_tickPunchPeer (now : Nat) (state : PunchPeerState) (node : ZP2PNode) :
    (tickPunchPeer now state node).1.address = state.address := by
  unfold tickPunchPeer
  split
  · rfl
  split
  · rfl
  split
  · split <;> rfl
  · split <;> rfl

/-- One state of an address, one probe at most, and only when it is due. -/
theorem count_probe_tickPunchPeers (hgrown : node.peerMapping.Grown)
    (hdistinct : (states.map PunchPeerState.address).Nodup) (now : Nat) (address : Address) :
    (tickPunchPeers now states node).2.2.count (probe address) ≤
      if (states.find? (·.address = address)).any (node.due now) then 1 else 0 := by
  induction states generalizing node with
  | nil => exact Nat.le_of_eq rfl
  | cons state states ih =>
      obtain ⟨hnew, hrest⟩ := List.nodup_cons.mp hdistinct
      have hlearns := Learns.tickPunchPeer now state node
      have htail := ih ((Grows.of_learns hlearns).grown hgrown) hrest
      rw [show node.due now = (tickPunchPeer now state node).2.1.due now from
        funext fun other => (hlearns.kept.due now other).symm]
      have hsplit : (tickPunchPeers now (state :: states) node).2.2.count (probe address) =
          (tickPunchPeer now state node).2.2.count (probe address) +
            (tickPunchPeers now states (tickPunchPeer now state node).2.1).2.2.count
              (probe address) := List.count_append ..
      rw [hsplit]
      by_cases haddress : state.address = address
      · -- the other states have other addresses
        have hnone : states.find? (·.address = address) = none := by
          refine List.find?_eq_none.mpr fun other hother h => hnew ?_
          rw [haddress, ← of_decide_eq_true h]
          exact List.mem_map_of_mem hother
        rw [hnone, Option.any_none, if_neg Bool.false_ne_true] at htail
        have hfind : (state :: states).find? (·.address = address) = some state :=
          List.find?_cons_of_pos (decide_eq_true haddress)
        rw [hfind, Option.any_some, hlearns.kept.due now state]
        rcases tickPunchPeer_cases hgrown now state with ⟨hdue, -, hsent⟩ | ⟨hdue, -, hsent⟩
        · rw [if_pos hdue]
          have hone : (tickPunchPeer now state node).2.2.count (probe address) ≤ 1 := by
            rcases hsent with hsent | hsent
            · rw [hsent]
              exact Nat.zero_le _
            · rw [hsent]
              exact List.count_le_length
          omega
        · have hzero := hsent.count_eq_zero address
          omega
      · have hzero : (tickPunchPeer now state node).2.2.count (probe address) = 0 := by
          rcases tickPunchPeer_cases hgrown now state with ⟨-, -, hsent | hsent⟩ | ⟨-, -, hsent⟩
          · rw [hsent]
            rfl
          · rw [hsent]
            refine List.count_eq_zero.mpr fun hmem => haddress ?_
            exact (ControlSend.mk.inj (List.mem_singleton.mp hmem)).1.symm
          · exact hsent.count_eq_zero address
        have hskip : (state :: states).find? (·.address = address) =
            states.find? (·.address = address) :=
          List.find?_cons_of_neg fun h => haddress (of_decide_eq_true h)
        rw [hskip, hzero, Nat.zero_add]
        exact htail

/-- The states after the timer, and what it has sent to an address. -/
theorem tickNatPunchthrough_cases (hgrown : node.peerMapping.Grown) (hp : node.Punching)
    (now : Nat) :
    (node.tickNatPunchthrough now = (node, [])) ∨
    ∃ ticking : ZP2PNode, ticking.peerMapping.Grown ∧
      (node.tickNatPunchthrough now).1.punchPeers =
        node.punchPeers.map (fun state => (tickPunchPeer now state ticking).1) ∧
      ∀ address, (node.tickNatPunchthrough now).2.count (probe address) ≤
        if (node.findPunchPeerState address).any (ticking.due now) then 1 else 0 := by
  unfold tickNatPunchthrough
  split
  · exact .inl rfl
  · have hlearns := Learns.tickHostKeepAlive now node
    have hsame : (node.tickHostKeepAlive now).1.punchPeers = node.punchPeers := by
      unfold tickHostKeepAlive
      split
      · exact punchPeers_pushControlPacketToAddress node.hostEndpoint _ node
      · rfl
    have hhost : NoProbe (node.tickHostKeepAlive now).2 := by
      unfold tickHostKeepAlive
      split
      · exact NoProbe.pushToAddress (by decide) _ node
      · exact NoProbe.nil
    have hgrown' := (Grows.of_learns hlearns).grown hgrown
    refine .inr ⟨(node.tickHostKeepAlive now).1, hgrown', ?_, fun address => ?_⟩
    · show (tickPunchPeers now (node.tickHostKeepAlive now).1.punchPeers _).1 = _
      rw [states_tickPunchPeers, hsame]
    · show ((node.tickHostKeepAlive now).2 ++
        (tickPunchPeers now (node.tickHostKeepAlive now).1.punchPeers _).2.2).count _ ≤ _
      rw [List.count_append, hhost.count_eq_zero, Nat.zero_add, hsame]
      exact count_probe_tickPunchPeers hgrown' hp.distinct now address

theorem find?_map_tickPunchPeer (now : Nat) (address : Address) (states : List PunchPeerState)
    (node : ZP2PNode) :
    (states.map fun state => (tickPunchPeer now state node).1).find? (·.address = address) =
      (states.find? (·.address = address)).map fun state => (tickPunchPeer now state node).1 := by
  rw [List.find?_map]
  congr 2
  funext state
  simp only [Function.comp_apply, address_tickPunchPeer]

/-- The probes that a run without news of the address has left. -/
def probeBudget (address : Address) (node : ZP2PNode) : Nat :=
  match node.findPunchPeerState address with
  | none => 0
  | some state =>
      if state.acknowledged then 0
      else kMaxPunchProbeAttempts.toNat - state.attemptsSent.toNat

theorem probeBudget_le (address : Address) (node : ZP2PNode) :
    node.probeBudget address ≤ kMaxPunchProbeAttempts.toNat := by
  unfold probeBudget
  split
  · exact Nat.zero_le _
  · split
    · exact Nat.zero_le _
    · exact Nat.sub_le ..

theorem probeBudget_congr {address : Address} {before after : ZP2PNode}
    (h : after.findPunchPeerState address = before.findPunchPeerState address) :
    after.probeBudget address = before.probeBudget address := by
  unfold probeBudget
  rw [h]

/-- What a tick does to an address: nothing, or it spends a probe that is due. -/
theorem tick_cases (hgrown : node.peerMapping.Grown) (hp : node.Punching) (now : Nat)
    (address : Address) :
    let next := (node.tickNatPunchthrough now).1
    let count := (node.tickNatPunchthrough now).2.count (probe address)
    (count = 0 ∧ (next.findPunchPeerState address).map (fun s => s.nextProbeTime) =
        (node.findPunchPeerState address).map (fun s => s.nextProbeTime) ∧
      next.probeBudget address = node.probeBudget address) ∨
    ∃ state, node.findPunchPeerState address = some state ∧ state.nextProbeTime ≤ now ∧
      next.findPunchPeerState address = some (probed now state) ∧ count ≤ 1 ∧
      next.probeBudget address + 1 = node.probeBudget address := by
  rcases tickNatPunchthrough_cases hgrown hp now with
    heq | ⟨ticking, hticking, hstates, hcount⟩
  · rw [heq]
    exact .inl ⟨rfl, rfl, rfl⟩
  have hcount := hcount address
  have hfind : (node.tickNatPunchthrough now).1.findPunchPeerState address =
      (node.findPunchPeerState address).map fun state => (tickPunchPeer now state ticking).1 := by
    rw [findPunchPeerState, hstates, find?_map_tickPunchPeer]
    rfl
  dsimp only
  cases hstate : node.findPunchPeerState address with
  | none =>
      rw [hstate] at hcount hfind
      refine .inl ⟨Nat.le_zero.mp hcount, by rw [hfind]; rfl, ?_⟩
      rw [probeBudget, hfind, probeBudget, hstate]
      rfl
  | some state =>
      rw [hstate, Option.any_some] at hcount
      rw [hstate, Option.map_some] at hfind
      rcases tickPunchPeer_cases hticking now state with
        ⟨hdue, hticked, -⟩ | ⟨hdue, ⟨t, hticked⟩, -⟩
      · rw [if_pos hdue] at hcount
        rw [hticked] at hfind
        obtain ⟨-, -, hwaiting, hless, htime⟩ := of_decide_eq_true hdue
        have hwaiting : state.acknowledged = false := by simpa using hwaiting
        have hless := UInt32.lt_iff_toNat_lt.mp hless
        refine .inr ⟨state, rfl, htime, hfind, hcount, ?_⟩
        have hnext : (state.attemptsSent + 1).toNat = state.attemptsSent.toNat + 1 := by
          have hmax : kMaxPunchProbeAttempts.toNat = 12 := rfl
          rw [UInt32.toNat_add, UInt32.toNat_one, Nat.mod_eq_of_lt (by omega)]
        simp only [probeBudget, hfind, hstate, probed, hwaiting, if_neg Bool.false_ne_true, hnext]
        omega
      · rw [if_neg (by rw [hdue]; exact Bool.false_ne_true)] at hcount
        rw [hticked] at hfind
        refine .inl ⟨Nat.le_zero.mp hcount, by rw [hfind]; rfl, ?_⟩
        simp only [probeBudget, hfind, hstate]

theorem Punching.tick (hgrown : node.peerMapping.Grown) (hp : node.Punching) (now : Nat) :
    (node.tickNatPunchthrough now).1.Punching := by
  rcases tickNatPunchthrough_cases hgrown hp now with heq | ⟨ticking, hticking, hstates, -⟩
  · rw [heq]
    exact hp
  · refine ⟨?_, fun state hstate => ?_⟩
    · rw [hstates, List.map_map, show PunchPeerState.address ∘ (fun state =>
        (tickPunchPeer now state ticking).1) = PunchPeerState.address from
          funext fun state => address_tickPunchPeer now state ticking]
      exact hp.distinct
    · rw [hstates] at hstate
      obtain ⟨old, hold, rfl⟩ := List.mem_map.mp hstate
      rcases tickPunchPeer_cases hticking now old with ⟨hdue, hticked, -⟩ | ⟨-, ⟨t, hticked⟩, -⟩
      · obtain ⟨-, -, -, hless, -⟩ := of_decide_eq_true hdue
        rw [hticked]
        have hless := UInt32.lt_iff_toNat_lt.mp hless
        have hmax : kMaxPunchProbeAttempts.toNat = 12 := rfl
        rw [UInt32.le_iff_toNat_le, probed, UInt32.toNat_add, UInt32.toNat_one,
          Nat.mod_eq_of_lt (by omega)]
        omega
      · rw [hticked]
        exact hp.attempts_le old hold

theorem Acknowledged.tick (hgrown : node.peerMapping.Grown) (hp : node.Punching) (now : Nat)
    {address : Address} (ha : node.Acknowledged address) :
    (node.tickNatPunchthrough now).1.Acknowledged address := by
  rcases tickNatPunchthrough_cases hgrown hp now with heq | ⟨ticking, hticking, hstates, -⟩
  · rw [heq]
    exact ha
  · obtain ⟨state, hmem, haddress, hack⟩ := ha
    refine ⟨(tickPunchPeer now state ticking).1, ?_, ?_, ?_⟩
    · rw [hstates]
      exact List.mem_map_of_mem hmem
    · rw [address_tickPunchPeer, haddress]
    · rcases tickPunchPeer_cases hticking now state with ⟨-, hticked, -⟩ | ⟨-, ⟨t, hticked⟩, -⟩
      · rw [hticked]
        exact hack
      · rw [hticked]
        exact hack

end Timer

end ZP2PNode

end ZetaNet
