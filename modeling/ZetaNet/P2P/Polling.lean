import ZetaNet.P2P.Probes
import ZetaNet.Transport.CountedQueue

/-!
# What a node's application polls

`Update` takes the packets that the transport has received, keeps the control packets to itself
and queues the others for `Poll`, on the queue of their channel. A role that is entered clears
these queues. Packets may arrive between any two turns of `Update`.

The logs `arrived`, `popped`, `polled` and `cleared` are there for the theorems only.
-/

namespace ZetaNet

open Wire Checks

/-- A node with the incoming queues of its transport and those it queues packets on itself. -/
structure PollingNode where
  node : ZP2PNode
  channelIncomingQueues : PacketChannelType → PriorityMPSCQueue IncomingPacket
  /-- `incoming_control_` and `incoming_data_` -/
  incoming : PacketChannelType → List IncomingPacket
  /-- the packets put on the transport's queues -/
  arrived : List IncomingPacket
  /-- the packets `Update` has taken from them -/
  popped : List IncomingPacket
  /-- the packets `Poll` has returned for each channel -/
  polled : PacketChannelType → List IncomingPacket
  /-- the packets that waited for `Poll` when a role was entered -/
  cleared : PacketChannelType → List IncomingPacket

inductive PollEvent
  /-- the receiving thread queues a packet -/
  | arrive (pack : IncomingPacket)
  | begin (port : UInt16) (env : NodeEnv)
  | connect (hostIp : Bytes) (hostPort localPort : UInt16) (env : NodeEnv)
  | becomeHost (env : NodeEnv)
  /-- one turn of a loop of `Update` -/
  | update (channel : PacketChannelType) (env : NodeEnv)
  | tick (now : Nat)
  | poll (channel : PacketChannelType)

namespace PollingNode

def start (node : ZP2PNode) : PollingNode where
  node
  channelIncomingQueues _ := .init
  incoming _ := []
  arrived := []
  popped := []
  polled _ := []
  cleared _ := []

/-- The two queues cleared, if a role was entered. -/
def clearIncoming (entered : Bool) (s : PollingNode) : PollingNode :=
  if entered then
    { s with
      incoming := fun _ => []
      cleared := fun channel => s.cleared channel ++ s.incoming channel }
  else s

/-- `QueueIncoming`. -/
def queueIncoming (pack : IncomingPacket) (s : PollingNode) : PollingNode :=
  { s with
    incoming := Function.update s.incoming pack.channel (s.incoming pack.channel ++ [pack]) }

/-- The packet is one that the node keeps to itself. -/
def isControl (pack : IncomingPacket) : Bool :=
  pack.channel = .control ∧ pack.type = PacketType.networkControl

section Calls

variable (resolve : Bytes → UInt16 → Option Address)

/-- `ProcessIncomingPacket`. -/
def processIncomingPacket (pack : IncomingPacket) (env : NodeEnv) (s : PollingNode) :
    PollingNode :=
  if isControl pack then
    { s.clearIncoming (s.node.transitions resolve pack.sourcePeerId pack.data) with
      node := (s.node.processControlPacket resolve pack.sourcePeerId pack.data env).1 }
  else s.queueIncoming pack

/-- `packet_queue_.Pop`. -/
def pop (channel : PacketChannelType) (s : PollingNode) : Option (IncomingPacket × PollingNode) :=
  (s.channelIncomingQueues channel).dequeue.map fun (pack, rest) =>
    (pack,
      { s with
        channelIncomingQueues := Function.update s.channelIncomingQueues channel rest
        popped := s.popped ++ [pack] })

/-- `Poll`. -/
def poll (channel : PacketChannelType) (s : PollingNode) : Option (IncomingPacket × PollingNode) :=
  match s.incoming channel with
  | [] => none
  | pack :: rest =>
      some (pack,
        { s with
          incoming := Function.update s.incoming channel rest
          polled := Function.update s.polled channel (s.polled channel ++ [pack]) })

def machine : Machine PollingNode PollEvent where
  step s
    | .arrive pack =>
        some
          { s with
            channelIncomingQueues :=
              Function.update s.channelIncomingQueues pack.channel
                ((s.channelIncomingQueues pack.channel).enqueue pack pack.flags.priority)
            arrived := s.arrived ++ [pack] }
    | .begin port env =>
        some
          { s.clearIncoming (port ≠ 0) with node := (s.node.begin resolve port env).2 }
    | .connect hostIp hostPort localPort env =>
        some
          { s.clearIncoming (¬ (hostPort = 0 ∨ localPort = 0)) with
            node := (s.node.connect resolve hostIp hostPort localPort env).2.1 }
    | .becomeHost env =>
        some
          { s.clearIncoming (s.node.promotes resolve true) with
            node := (s.node.becomeHost resolve env).1 }
    | .update channel env =>
        (s.pop channel).map fun (pack, s) => s.processIncomingPacket resolve pack env
    | .tick now => some { s with node := (s.node.tickNatPunchthrough now).1 }
    | .poll channel => (s.poll channel).map Prod.snd

/-- A loop of `Update` while nothing arrives, of at most `fuel` turns. -/
def drain (channel : PacketChannelType) (env : Nat → NodeEnv) : Nat → PollingNode → PollingNode
  | 0, s => s
  | fuel + 1, s =>
      match s.pop channel with
      | none => s
      | some (pack, s) =>
          drain channel env fuel (s.processIncomingPacket resolve pack (env fuel))

/-- `Update` while nothing arrives. -/
def update (env : PacketChannelType → Nat → NodeEnv) (now : Nat) (s : PollingNode) :
    Bool × PollingNode :=
  let size (channel : PacketChannelType) := (s.channelIncomingQueues channel).toList.length
  let s := s.drain resolve .control (env .control) (size .control)
  let s := s.drain resolve .data (env .data) (size .data)
  let s := { s with node := (s.node.tickNatPunchthrough now).1 }
  (s.node.state ≠ .disconnected, s)

/-- The event enters a role, or tries to. -/
def enters (s : PollingNode) : PollEvent → Bool
  | .arrive _ => false
  | .begin port _ => port ≠ 0
  | .connect _ hostPort localPort _ => ¬ (hostPort = 0 ∨ localPort = 0)
  | .becomeHost _ => s.node.promotes resolve true
  | .update channel _ =>
      (s.pop channel).any fun (pack, s) =>
        isControl pack ∧ s.node.transitions resolve pack.sourcePeerId pack.data
  | .tick _ => false
  | .poll _ => false

end Calls

/-! ## Every packet has its place -/

/-- The packets that the node does not keep to itself. -/
def forApplication (packs : List IncomingPacket) : List IncomingPacket :=
  packs.filter fun pack => isControl pack = false

/-- The packets of a channel that are for the application. -/
def forPoll (channel : PacketChannelType) (packs : List IncomingPacket) : List IncomingPacket :=
  packs.filter fun pack => pack.channel = channel ∧ isControl pack = false

/-- The packets of a channel and a priority. -/
def ofLane (channel : PacketChannelType) (priority : PacketPriority)
    (packs : List IncomingPacket) : List IncomingPacket :=
  packs.filter fun pack => pack.channel = channel ∧ pack.flags.priority = priority

/-- The packets of a channel and a priority are taken in the order of their arrival. Those taken
and for the application were polled, wait to be polled, or were cleared; what was polled and
what waits stand in the order in which they were taken. -/
structure Accounted (s : PollingNode) : Prop where
  arrived : ∀ channel priority,
    ofLane channel priority s.popped ++ (s.channelIncomingQueues channel).bucket priority =
      ofLane channel priority s.arrived
  ordered : ∀ channel,
    (s.polled channel ++ s.incoming channel).Sublist (forPoll channel s.popped)
  placed : ∀ channel,
    (s.polled channel ++ s.incoming channel ++ s.cleared channel).Perm
      (forPoll channel s.popped)

section Accounting

variable {resolve : Bytes → UInt16 → Option Address} {s s' : PollingNode} {e : PollEvent}

theorem accounted_start (node : ZP2PNode) : (start node).Accounted where
  arrived channel priority := by cases priority <;> rfl
  ordered _ := .refl _
  placed _ := .refl _

/-- The logs and queues are all that counts. -/
theorem Accounted.withNode (h : s.Accounted) (node : ZP2PNode) :
    ({ s with node } : PollingNode).Accounted :=
  ⟨h.arrived, h.ordered, h.placed⟩

theorem Accounted.clearIncoming (h : s.Accounted) (entered : Bool) :
    (s.clearIncoming entered).Accounted := by
  unfold PollingNode.clearIncoming
  split
  · refine ⟨h.arrived, fun channel => ?_, fun channel => ?_⟩
    · rw [List.append_nil]
      exact (List.sublist_append_left ..).trans (h.ordered channel)
    · refine List.Perm.trans ?_ (h.placed channel)
      simp only [List.perm_iff_count, List.count_append, List.count_nil]
      omega
  · exact h

theorem ofLane_append (channel : PacketChannelType) (priority : PacketPriority)
    (first second : List IncomingPacket) :
    ofLane channel priority (first ++ second) =
      ofLane channel priority first ++ ofLane channel priority second :=
  List.filter_append ..

theorem ofLane_singleton (channel : PacketChannelType) (priority : PacketPriority)
    (pack : IncomingPacket) :
    ofLane channel priority [pack] =
      if pack.channel = channel ∧ pack.flags.priority = priority then [pack] else [] := by
  unfold ofLane
  rw [List.filter_singleton, cond_eq_ite]
  simp only [decide_eq_true_eq]

theorem forPoll_append (channel : PacketChannelType) (first second : List IncomingPacket) :
    forPoll channel (first ++ second) = forPoll channel first ++ forPoll channel second :=
  List.filter_append ..

theorem pop_eq_some {channel : PacketChannelType} {pack : IncomingPacket}
    (h : s.pop channel = some (pack, s')) :
    ∃ rest, (s.channelIncomingQueues channel).toList = pack :: rest.toList ∧
      s' = { s with
        channelIncomingQueues := Function.update s.channelIncomingQueues channel rest
        popped := s.popped ++ [pack] } := by
  obtain ⟨⟨taken, rest⟩, hdequeue, hresult⟩ := Option.map_eq_some_iff.mp h
  obtain ⟨rfl, rfl⟩ := Prod.mk.inj hresult
  exact ⟨rest, PriorityMPSCQueue.dequeue_eq_some hdequeue, rfl⟩

/-- A packet goes from a lane of the transport's queues to what was taken. -/
theorem Accounted.arrived_pop (h : s.Accounted) {channel : PacketChannelType}
    {pack : IncomingPacket} (hpop : s.pop channel = some (pack, s')) :
    (∀ other priority,
      ofLane other priority s'.popped ++ (s'.channelIncomingQueues other).bucket priority =
        ofLane other priority s'.arrived) ∧
      pack.channel = channel ∧ ∃ queues, s' = { s with
        channelIncomingQueues := queues, popped := s.popped ++ [pack] } := by
  obtain ⟨⟨taken, queue⟩, hdequeue, hresult⟩ := Option.map_eq_some_iff.mp hpop
  obtain ⟨rfl, rfl⟩ := Prod.mk.inj hresult
  obtain ⟨hnone, -⟩ | ⟨lane, item, rest, hsome, hbucket, -⟩ :=
    (s.channelIncomingQueues channel).dequeue_cases
  · rw [hnone] at hdequeue
    cases hdequeue
  · rw [hsome] at hdequeue
    obtain ⟨rfl, rfl⟩ := Prod.mk.inj (Option.some.inj hdequeue)
    have hlane := h.arrived channel lane
    -- what stands in a lane has the channel and the priority of the lane
    have hitem : item ∈ ofLane channel lane s.arrived := by
      rw [← hlane, hbucket]
      exact List.mem_append_right _ List.mem_cons_self
    obtain ⟨hchannel, hpriority⟩ := of_decide_eq_true (List.mem_filter.mp hitem).2
    refine ⟨fun other priority => ?_, hchannel, _, rfl⟩
    rw [ofLane_append, ofLane_singleton, List.append_assoc]
    by_cases hother : other = channel
    · subst hother
      dsimp only
      rw [Function.update_self, PriorityMPSCQueue.bucket_setBucket]
      by_cases hsame : priority = lane
      · subst hsame
        rw [if_pos ⟨hchannel, hpriority⟩, Function.update_self, ← hlane, hbucket]
        rfl
      · rw [if_neg fun hboth => hsame (hboth.2.symm.trans hpriority),
          Function.update_of_ne hsame]
        exact h.arrived other priority
    · dsimp only
      rw [Function.update_of_ne hother,
        if_neg fun hboth => hother (hboth.1.symm.trans hchannel)]
      exact h.arrived other priority

/-- A turn of `Update` places the packet it takes. -/
theorem Accounted.processIncomingPacket (h : s.Accounted) {channel : PacketChannelType}
    {pack : IncomingPacket} (hpop : s.pop channel = some (pack, s')) (env : NodeEnv) :
    (s'.processIncomingPacket resolve pack env).Accounted := by
  obtain ⟨harrived, -, queues, rfl⟩ := h.arrived_pop hpop
  unfold PollingNode.processIncomingPacket
  split
  · -- the node keeps it, and what is for the application stays what it was
    rename_i hcontrol
    have hkept (channel : PacketChannelType) :
        forPoll channel (s.popped ++ [pack]) = forPoll channel s.popped := by
      rw [forPoll_append, show forPoll channel [pack] = [] from
        List.filter_cons_of_neg (by simp [hcontrol]), List.append_nil]
    refine Accounted.withNode (Accounted.clearIncoming
      ⟨harrived, fun channel => ?_, fun channel => ?_⟩ _) _
    · exact (hkept channel).symm ▸ h.ordered channel
    · exact (hkept channel).symm ▸ h.placed channel
  · rename_i hcontrol
    have hqueued (other : PacketChannelType) : forPoll other (s.popped ++ [pack]) =
        forPoll other s.popped ++ if other = pack.channel then [pack] else [] := by
      rw [forPoll_append]
      congr 1
      by_cases hother : other = pack.channel
      · rw [if_pos hother]
        exact List.filter_cons_of_pos (by simp [hother, hcontrol])
      · rw [if_neg hother]
        exact List.filter_cons_of_neg (by simp [Ne.symm hother])
    have hincoming (other : PacketChannelType) :
        (Function.update s.incoming pack.channel (s.incoming pack.channel ++ [pack])) other =
          s.incoming other ++ if other = pack.channel then [pack] else [] := by
      by_cases hother : other = pack.channel
      · rw [hother, Function.update_self, if_pos rfl]
      · rw [Function.update_of_ne hother, if_neg hother, List.append_nil]
    refine ⟨harrived, fun other => ?_, fun other => ?_⟩
    · show List.Sublist (s.polled other ++ (Function.update s.incoming pack.channel
        (s.incoming pack.channel ++ [pack])) other) (forPoll other (s.popped ++ [pack]))
      rw [hqueued, hincoming, ← List.append_assoc]
      exact (h.ordered other).append (.refl _)
    · show List.Perm (s.polled other ++ (Function.update s.incoming pack.channel
        (s.incoming pack.channel ++ [pack])) other ++ s.cleared other)
          (forPoll other (s.popped ++ [pack]))
      rw [hqueued, hincoming]
      refine List.Perm.trans ?_ ((h.placed other).append_right _)
      simp only [List.perm_iff_count, List.count_append]
      omega

/-- `Poll` takes the packet that has waited longest. -/
theorem Accounted.poll (h : s.Accounted) {channel : PacketChannelType} {pack : IncomingPacket}
    (hpoll : s.poll channel = some (pack, s')) : s'.Accounted := by
  unfold PollingNode.poll at hpoll
  split at hpoll
  · cases hpoll
  · rename_i first rest hwaiting
    obtain ⟨rfl, rfl⟩ := Prod.mk.inj (Option.some.inj hpoll)
    have hsame (other : PacketChannelType) :
        Function.update s.polled channel (s.polled channel ++ [first]) other ++
          Function.update s.incoming channel rest other = s.polled other ++ s.incoming other := by
      by_cases hother : other = channel
      · subst hother
        rw [Function.update_self, Function.update_self, hwaiting, ← List.append_cons]
      · rw [Function.update_of_ne hother, Function.update_of_ne hother]
    refine ⟨h.arrived, fun other => ?_, fun other => ?_⟩
    · exact (hsame other).symm ▸ h.ordered other
    · exact (hsame other).symm ▸ h.placed other

theorem Accounted.step (h : s.Accounted) (hstep : (machine resolve).step s e = some s') :
    s'.Accounted := by
  cases e with
  | arrive pack =>
      obtain rfl := Option.some.inj hstep
      refine ⟨fun other priority => ?_, h.ordered, h.placed⟩
      rw [ofLane_append, ofLane_singleton, ← h.arrived other priority, List.append_assoc]
      congr 1
      by_cases hother : other = pack.channel
      · subst hother
        dsimp only
        rw [Function.update_self, PriorityMPSCQueue.enqueue_eq,
          PriorityMPSCQueue.bucket_setBucket]
        by_cases hsame : priority = pack.flags.priority
        · rw [hsame, Function.update_self, if_pos ⟨rfl, rfl⟩]
        · rw [Function.update_of_ne hsame, if_neg fun hboth => hsame hboth.2.symm,
            List.append_nil]
      · dsimp only
        rw [Function.update_of_ne hother, if_neg fun hboth => hother hboth.1.symm,
          List.append_nil]
  | begin | connect | becomeHost =>
      obtain rfl := Option.some.inj hstep
      exact (h.clearIncoming _).withNode _
  | update channel env =>
      obtain ⟨⟨pack, mid⟩, hpop, rfl⟩ := Option.map_eq_some_iff.mp hstep
      exact h.processIncomingPacket hpop env
  | tick now =>
      obtain rfl := Option.some.inj hstep
      exact h.withNode _
  | poll channel =>
      obtain ⟨⟨pack, mid⟩, hpoll, rfl⟩ := Option.map_eq_some_iff.mp hstep
      exact h.poll hpoll

theorem accounted_of_exec {node : ZP2PNode} {events : List PollEvent}
    (hexec : (machine resolve).exec (start node) events = some s) : s.Accounted :=
  (machine resolve).invariant_of_exec (fun _ _ _ hs hstep => hs.step hstep)
    (accounted_start node) hexec

theorem cleared_clearIncoming {entered : Bool} (h : entered = false) :
    (s.clearIncoming entered).cleared = s.cleared := by
  rw [PollingNode.clearIncoming, h, if_neg Bool.false_ne_true]

theorem cleared_step (hstep : (machine resolve).step s e = some s')
    (henters : s.enters resolve e = false) : s'.cleared = s.cleared := by
  cases e with
  | begin | connect | becomeHost =>
      obtain rfl := Option.some.inj hstep
      exact cleared_clearIncoming henters
  | update channel env =>
      obtain ⟨⟨pack, mid⟩, hpop, rfl⟩ := Option.map_eq_some_iff.mp hstep
      have hmid : mid.cleared = s.cleared := by
        obtain ⟨-, -, rfl⟩ := pop_eq_some hpop
        rfl
      simp only [enters, hpop, Option.any_some, Bool.decide_and, Bool.decide_eq_true,
        Bool.and_eq_false_iff] at henters
      dsimp only
      unfold PollingNode.processIncomingPacket
      split
      · rename_i hcontrol
        exact (cleared_clearIncoming (henters.resolve_left (by simp [hcontrol]))).trans hmid
      · exact hmid
  | poll channel =>
      obtain ⟨⟨pack, mid⟩, hpoll, rfl⟩ := Option.map_eq_some_iff.mp hstep
      unfold PollingNode.poll at hpoll
      split at hpoll
      · cases hpoll
      · obtain ⟨-, rfl⟩ := Prod.mk.inj (Option.some.inj hpoll)
        rfl
  | arrive | tick =>
      obtain rfl := Option.some.inj hstep
      rfl

/-- Without a role entered, nothing that was queued for `Poll` is lost. -/
theorem cleared_of_along {node : ZP2PNode} {events : List PollEvent}
    (halong : (machine resolve).Along (fun s e => s.enters resolve e = false) (start node) events)
    (hexec : (machine resolve).exec (start node) events = some s) :
    s.cleared = fun _ => [] :=
  (machine resolve).invariant_of_along
    (fun _ _ _ hs henters hstep => (cleared_step hstep henters).trans hs) rfl halong hexec

theorem Accounted.eq_of_cleared (h : s.Accounted) (hcleared : s.cleared = fun _ => [])
    (channel : PacketChannelType) :
    s.polled channel ++ s.incoming channel = forPoll channel s.popped := by
  have hplaced := (h.placed channel).length_eq
  rw [hcleared, List.append_nil] at hplaced
  exact (h.ordered channel).eq_of_length hplaced

theorem ofLane_forPoll (channel : PacketChannelType) (priority : PacketPriority)
    (packs : List IncomingPacket) :
    ofLane channel priority (forPoll channel packs) =
      forApplication (ofLane channel priority packs) := by
  unfold forApplication ofLane forPoll
  rw [List.filter_filter, List.filter_filter]
  refine List.filter_congr fun pack _ => ?_
  simp only [Bool.decide_and]
  ac_rfl

/-- In every run, whatever arrives between the turns of `Update`, `Poll` returns the packets of a
priority in the order in which they came in. A packet for the application was polled once, waits
for `Poll`, is still on the transport's queue, or waited when a role was entered, and where none
was entered the first three make up what came in. -/
theorem polled_in_order (node : ZP2PNode) (events : List PollEvent)
    (hexec : (machine resolve).exec (start node) events = some s) (channel : PacketChannelType)
    (priority : PacketPriority) :
    let queued := (s.channelIncomingQueues channel).bucket priority
    let came := forApplication (ofLane channel priority s.arrived)
    (ofLane channel priority (s.polled channel)).Sublist came ∧
      (ofLane channel priority (s.polled channel ++ s.incoming channel ++ s.cleared channel) ++
        forApplication queued).Perm came ∧
      ((machine resolve).Along (fun s e => s.enters resolve e = false) (start node) events →
        ofLane channel priority (s.polled channel ++ s.incoming channel) ++
          forApplication queued = came) := by
  have h := accounted_of_exec hexec
  have hcame : ofLane channel priority (forPoll channel s.popped) ++
      forApplication ((s.channelIncomingQueues channel).bucket priority) =
        forApplication (ofLane channel priority s.arrived) := by
    rw [ofLane_forPoll, ← h.arrived]
    exact (List.filter_append ..).symm
  dsimp only
  refine ⟨?_, ?_, fun halong => ?_⟩
  · rw [← hcame]
    exact (((List.sublist_append_left ..).trans (h.ordered channel)).filter _).trans
      (List.sublist_append_left ..)
  · rw [← hcame]
    exact ((h.placed channel).filter _).append_right _
  · rw [← hcame, ← h.eq_of_cleared (cleared_of_along halong hexec)]

/-! ## What a call of `Update` leaves -/

theorem channelIncomingQueues_processIncomingPacket (pack : IncomingPacket) (env : NodeEnv) :
    (s.processIncomingPacket resolve pack env).channelIncomingQueues =
      s.channelIncomingQueues := by
  unfold PollingNode.processIncomingPacket PollingNode.clearIncoming
  split_ifs <;> rfl

theorem arrived_processIncomingPacket (pack : IncomingPacket) (env : NodeEnv) :
    (s.processIncomingPacket resolve pack env).arrived = s.arrived := by
  unfold PollingNode.processIncomingPacket PollingNode.clearIncoming
  split_ifs <;> rfl

/-- The loop is a run, and with enough turns it ends with the queue empty and the other one as it
was. -/
theorem drain_spec (channel : PacketChannelType) (env : Nat → NodeEnv) (fuel : Nat)
    (s : PollingNode) (hfuel : (s.channelIncomingQueues channel).toList.length ≤ fuel) :
    (∃ events, (machine resolve).exec s events = some (s.drain resolve channel env fuel)) ∧
      (∀ priority,
        ((s.drain resolve channel env fuel).channelIncomingQueues channel).bucket priority = []) ∧
      (∀ other, other ≠ channel → (s.drain resolve channel env fuel).channelIncomingQueues other =
        s.channelIncomingQueues other) ∧
      (s.drain resolve channel env fuel).arrived = s.arrived := by
  induction fuel generalizing s with
  | zero =>
      refine ⟨⟨[], rfl⟩, fun priority => ?_, fun _ _ => rfl, rfl⟩
      exact PriorityMPSCQueue.bucket_eq_nil
        (List.eq_nil_of_length_eq_zero (Nat.le_zero.mp hfuel)) priority
  | succ fuel ih =>
      unfold drain
      cases hpop : s.pop channel with
      | none =>
          refine ⟨⟨[], rfl⟩, ?_, fun _ _ => rfl, rfl⟩
          obtain ⟨-, hempty⟩ | ⟨_, _, _, hsome, -⟩ :=
            (s.channelIncomingQueues channel).dequeue_cases
          · exact hempty
          · rw [Option.map_eq_none_iff.mp hpop] at hsome
            cases hsome
      | some taken =>
          obtain ⟨pack, mid⟩ := taken
          obtain ⟨rest, htaken, hmid⟩ := pop_eq_some hpop
          have hqueues : (mid.processIncomingPacket resolve pack (env fuel)).channelIncomingQueues =
              Function.update s.channelIncomingQueues channel rest := by
            rw [channelIncomingQueues_processIncomingPacket, hmid]
          obtain ⟨⟨events, hexec⟩, hempty, hother, harrived⟩ :=
            ih (mid.processIncomingPacket resolve pack (env fuel)) (by
              rw [hqueues, Function.update_self]
              rw [htaken, List.length_cons] at hfuel
              exact Nat.le_of_succ_le_succ hfuel)
          refine ⟨⟨.update channel (env fuel) :: events, ?_⟩, hempty, fun other hne => ?_, ?_⟩
          · refine (Machine.exec_cons_eq_some _).mpr ⟨_, ?_, hexec⟩
            exact Option.map_eq_some_iff.mpr ⟨_, hpop, rfl⟩
          · rw [hother other hne, hqueues, Function.update_of_ne hne]
          · rw [harrived, arrived_processIncomingPacket, hmid]

/-- A packet stands in its lane as often as anywhere. -/
theorem count_forPoll (channel : PacketChannelType) (pack : IncomingPacket)
    (packs : List IncomingPacket) :
    (forPoll channel packs).count pack =
      if pack.channel = channel ∧ isControl pack = false then
        (ofLane channel pack.flags.priority packs).count pack
      else 0 := by
  unfold forPoll ofLane
  split
  · rename_i hpack
    rw [List.count_filter (by simpa using hpack), List.count_filter (by simpa using hpack.1)]
  · rename_i hpack
    refine List.count_eq_zero.mpr fun hmem => hpack ?_
    exact of_decide_eq_true (List.mem_filter.mp hmem).2

/-- After a call of `Update` in which nothing arrives, every packet for the application that ever
arrived was polled, waits for `Poll`, or waited when a role was entered, and once each. -/
theorem update_takes_all {node : ZP2PNode} {events : List PollEvent}
    (hexec : (machine resolve).exec (start node) events = some s)
    (env : PacketChannelType → Nat → NodeEnv) (now : Nat) (channel : PacketChannelType) :
    let s' := (s.update resolve env now).2
    (∃ calls, (machine resolve).exec (start node) (events ++ calls) = some s') ∧
      (s'.polled channel ++ s'.incoming channel ++ s'.cleared channel).Perm
        (forPoll channel s.arrived) := by
  intro s'
  let fuel (channel : PacketChannelType) := (s.channelIncomingQueues channel).toList.length
  let mid := s.drain resolve .control (env .control) (fuel .control)
  obtain ⟨⟨first, hfirst⟩, hcontrol, hkept, harrived⟩ :
      (∃ events, (machine resolve).exec s events = some mid) ∧ _ :=
    drain_spec .control (env .control) (fuel .control) s le_rfl
  obtain ⟨⟨second, hsecond⟩, hdata, hkept', harrived'⟩ :
      (∃ events, (machine resolve).exec mid events =
        some (mid.drain resolve .data (env .data) (fuel .data))) ∧ _ :=
    drain_spec .data (env .data) (fuel .data) mid (by rw [hkept .data (by decide)])
  have hcalls : (machine resolve).exec (start node) (events ++ (first ++ (second ++ [.tick now]))) =
      some s' := by
    rw [Machine.exec_append, hexec, Option.bind_some, Machine.exec_append, hfirst,
      Option.bind_some, Machine.exec_append, hsecond, Option.bind_some]
    rfl
  have hempty (priority : PacketPriority) :
      (s'.channelIncomingQueues channel).bucket priority = [] := by
    cases channel with
    | control =>
        have hsame : s'.channelIncomingQueues .control = mid.channelIncomingQueues .control :=
          hkept' .control (by decide)
        rw [hsame]
        exact hcontrol priority
    | data => exact hdata priority
  have h := accounted_of_exec hcalls
  refine ⟨⟨_, hcalls⟩, (h.placed channel).trans (List.perm_iff_count.mpr fun pack => ?_)⟩
  have hlane := h.arrived channel pack.flags.priority
  rw [hempty, List.append_nil] at hlane
  rw [count_forPoll, count_forPoll, hlane, show s'.arrived = s.arrived from
    harrived'.trans harrived]

end Accounting

/-! ## A run -/

def messageOf (sequenceNumber : UInt32) (priority : PacketPriority) : IncomingPacket where
  channel := .data
  flags := ⟨true, false, false, priority, false, false, false⟩
  type := PacketType.message
  sourcePeerId := 0
  acknowledgementNumber := 0
  sequenceNumber
  data := [1]

/-- Three messages come in, and the application polls twice. -/
def threeMessages : List PollEvent :=
  [.arrive (messageOf 1 .low), .arrive (messageOf 2 .critical), .update .data ⟨5, true⟩,
    .arrive (messageOf 3 .low), .update .data ⟨5, true⟩, .update .data ⟨5, true⟩,
    .poll .data, .poll .data]

/-- The critical message is polled first, then the first of the other two. -/
theorem polled_in_order_messages : ∃ s,
    (machine ZP2PNode.resolveText).exec (start .init) threeMessages = some s ∧
      s.polled .data = [messageOf 2 .critical, messageOf 1 .low] ∧
      (ofLane .data .low (s.polled .data)).Sublist [messageOf 1 .low, messageOf 3 .low] ∧
      ofLane .data .low (s.polled .data ++ s.incoming .data) ++ [] =
        [messageOf 1 .low, messageOf 3 .low] := by
  obtain ⟨s, hexec, hpolled, hbucket, harrived, halong⟩ : ∃ s,
      (machine ZP2PNode.resolveText).exec (start .init) threeMessages = some s ∧
      s.polled .data = [messageOf 2 .critical, messageOf 1 .low] ∧
      forApplication ((s.channelIncomingQueues .data).bucket .low) = [] ∧
      forApplication (ofLane .data .low s.arrived) = [messageOf 1 .low, messageOf 3 .low] ∧
      (machine ZP2PNode.resolveText).Along (fun s e => s.enters ZP2PNode.resolveText e = false)
        (start .init) threeMessages :=
    ⟨_, rfl, by decide +kernel, by decide +kernel, by decide +kernel, by decide +kernel⟩
  obtain ⟨hordered, -, hkept⟩ := polled_in_order .init threeMessages hexec .data .low
  rw [harrived] at hordered hkept
  rw [hbucket] at hkept
  exact ⟨s, hexec, hpolled, hordered, hkept halong⟩

/-- A message that arrived before the call waits for `Poll` after it. -/
theorem update_takes_all_message : ∃ s,
    (machine ZP2PNode.resolveText).exec (start .init) [.arrive (messageOf 1 .low)] = some s ∧
      ((s.update ZP2PNode.resolveText (fun _ _ => ⟨5, true⟩) 5).2.polled .data ++
        (s.update ZP2PNode.resolveText (fun _ _ => ⟨5, true⟩) 5).2.incoming .data ++
        (s.update ZP2PNode.resolveText (fun _ _ => ⟨5, true⟩) 5).2.cleared .data).Perm
          [messageOf 1 .low] := by
  obtain ⟨s, hexec, harrived⟩ : ∃ s, (machine ZP2PNode.resolveText).exec (start .init)
      [.arrive (messageOf 1 .low)] = some s ∧ forPoll .data s.arrived = [messageOf 1 .low] :=
    ⟨_, rfl, by decide +kernel⟩
  have htaken := (update_takes_all hexec (fun _ _ => ⟨5, true⟩) 5 .data).2
  rw [harrived] at htaken
  exact ⟨s, hexec, htaken⟩

end PollingNode

end ZetaNet
