import ZetaNet.P2P.Reading

/-!
# Control packets as programs

`ProcessControlPacket` statement by statement, as a handler over the node and the packets it has
sent. All kinds but one read their whole payload before they change anything; the roster loop
applies each address before it reads the next.
-/

namespace ZetaNet

open Wire Checks

namespace ZP2PNode

/-- A handler of control packets: it works on the node and on the packets sent so far. -/
abbrev ControlHandler := Handler (ZP2PNode × List ControlSend) ControlError

/-- A call of the node, with the packets it sends. -/
def perform (call : ZP2PNode → ZP2PNode × List ControlSend) : ControlHandler Unit :=
  modify fun (node, sent) => ((call node).1, sent ++ (call node).2)

/-- The address loop of a `PeerRoster`. -/
def handleRoster (now : Nat) (data : Bytes) : Nat → Nat → ControlHandler Unit
  | 0, _ => pure ()
  | count + 1, cursor => do
      let (address, cursor) ← Handler.check (scanAddress data cursor)
      perform fun node => (node.learnAddress now address, [])
      handleRoster now data count cursor

/-- The optional port behind the kind of a `JoinHello`. -/
def scanAnnouncedPort (data : Bytes) (cursor : Nat) : Except (Stop ControlError) Unit :=
  if cursor + 2 ≤ data.length then do
    let _ ← readU16OrExit data cursor .truncated
    return ()
  else return ()

theorem scanAnnouncedPort_eq (data : Bytes) (cursor : Nat) :
    scanAnnouncedPort data cursor = .ok () := by
  unfold scanAnnouncedPort
  split
  · rename_i hroom
    obtain ⟨value, hvalue⟩ := Option.isSome_iff_exists.mp (isSome_loadU16 hroom)
    rw [readU16OrExit, require_true (decide_eq_true hroom), ok_bind, hvalue, fetch_some]
    rfl
  · rfl

section Handlers

variable (resolve : Bytes → UInt16 → Option Address)

/-- `ProcessControlPacket`. -/
def handleControlPacket (sourcePeerId : UInt32) (data : Bytes) (env : NodeEnv) :
    ControlHandler Unit := do
  let (kind, cursor) ← Handler.check (scanControlHeader data)
  let (node, _) ← get
  let sourcePeer := node.peerMapping.getPeer sourcePeerId
  match kind with
  | .joinHello =>
      match sourcePeer with
      | none => pure ()
      | some peer =>
          if node.type ≠ .host then pure ()
          else
            -- the announced port is read where there is room for it, and not used
            Handler.check (scanAnnouncedPort data cursor)
            perform fun node =>
              let known := node.rememberPeer peer.address
              (known, known.sendWelcome peer ++ known.broadcastPeerRoster)
  | .welcome =>
      if node.type ≠ .client ∨ !node.fromHost sourcePeer then pure ()
      else
        let (observedEndpoint, _) ← Handler.check (scanAddress data cursor)
        perform fun node =>
          ({ node with publicEndpoint := observedEndpoint, hasPublicEndpoint := true }, [])
  | .peerRoster =>
      if node.type = .client ∧ !node.fromHost sourcePeer then pure ()
      else
        let (peerCount, cursor) ← Handler.check (readU16OrExit data cursor .truncated)
        handleRoster env.now data peerCount.toNat cursor
  | .hostTransition =>
      if node.type = .client ∧ !node.fromHost sourcePeer then pure ()
      else
        let (nextHost, _) ← Handler.check (scanAddress data cursor)
        perform fun node =>
          if node.isSelfAddress nextHost then (node.promoteToHost resolve false env).2
          else (node.reconnectToHost resolve nextHost env).2
  | .keepAlive =>
      match sourcePeer with
      | none => pure ()
      | some peer =>
          if node.isSelfAddress peer.address then pure ()
          else
            perform fun node =>
              (node.updatePunchPeer env.now peer.address
                fun state => { state with lastKeepaliveTime := env.now }, [])
  | .punchProbe =>
      match sourcePeer with
      | none => pure ()
      | some peer =>
          if node.isSelfAddress peer.address then pure ()
          else
            perform fun node =>
              ((node.updatePunchPeer env.now peer.address
                fun state => { state with lastKeepaliveTime := env.now }).armPunchProbe env.now
                  peer.address).sendPunchAck peer.address
  | .punchAck =>
      match sourcePeer with
      | none => pure ()
      | some peer =>
          if node.isSelfAddress peer.address then pure ()
          else
            perform fun node =>
              (node.updatePunchPeer env.now peer.address
                fun state =>
                  { state with acknowledged := true, lastKeepaliveTime := env.now }, [])
  | .invalid => pure ()

end Handlers

/-- The loop applies the addresses it can read, and then stops where it cannot. -/
theorem leaves_handleRoster (now : Nat) (data : Bytes) (count cursor : Nat) (node : ZP2PNode)
    (sent : List ControlSend) :
    (handleRoster now data count cursor).Leaves (node, sent)
      ((rosterEntries data count cursor).foldl (learnAddress now) node, sent) := by
  induction count generalizing cursor node with
  | zero => exact Handler.leaves_pure ..
  | succ count ih =>
      rw [handleRoster, rosterEntries, scanAddress_eq]
      cases haddress : deserializeAddress data cursor with
      | error error => exact Handler.leaves_check_error ..
      | ok found =>
          obtain ⟨address, next⟩ := found
          have hrest := ih next (node.learnAddress now address)
          refine .check_ok (.modify_bind ?_)
          dsimp only
          rwa [List.append_nil]

/-! ## The whole handler -/

section Handlers

variable (resolve : Bytes → UInt16 → Option Address)

/-- The handler leaves the node and the packets that `processControlPacket` computes, and has no
faults. -/
theorem leaves_handleControlPacket (sourcePeerId : UInt32) (data : Bytes) (env : NodeEnv)
    (node : ZP2PNode) (sent : List ControlSend) :
    (handleControlPacket resolve sourcePeerId data env).Leaves (node, sent)
      ((node.processControlPacket resolve sourcePeerId data env).1,
        sent ++ (node.processControlPacket resolve sourcePeerId data env).2) := by
  -- a packet the node ignores and one it cannot read send nothing
  have hpure : (pure () : ControlHandler Unit).Leaves (node, sent) (node, sent ++ []) := by
    rw [List.append_nil]
    exact Handler.leaves_pure ..
  have herror : ∀ {α : Type} (error : ControlError) (next : α → ControlHandler Unit),
      (Handler.check (safely (.error error)) >>= next).Leaves (node, sent) (node, sent ++ []) := by
    intro α error next
    rw [List.append_nil]
    exact Handler.leaves_check_error ..
  rw [handleControlPacket, scanControlHeader_eq]
  unfold processControlPacket
  cases hheader : readControlHeader data with
  | error error => exact herror ..
  | ok read =>
      obtain ⟨kind, cursor⟩ := read
      refine .check_ok (.get_bind ?_)
      dsimp only
      cases kind with
      | invalid => exact hpure
      | joinHello =>
          dsimp only
          cases node.peerMapping.getPeer sourcePeerId with
          | none => exact hpure
          | some peer =>
              dsimp only
              split
              · exact hpure
              · rw [scanAnnouncedPort_eq]
                exact .check_ok (Handler.leaves_modify ..)
      | peerRoster =>
          dsimp only
          split
          · exact hpure
          · rw [readU16OrExit_eq]
            cases readU16 data cursor with
            | none => exact herror ..
            | some found =>
                obtain ⟨peerCount, next⟩ := found
                -- the one kind that reads on after its first change
                dsimp only
                rw [List.append_nil, processRoster_entries]
                exact .check_ok (leaves_handleRoster ..)
      | hostTransition | welcome =>
          dsimp only
          split
          · exact hpure
          · rw [scanAddress_eq]
            cases deserializeAddress data cursor with
            | error error => exact herror ..
            | ok found => exact .check_ok (Handler.leaves_modify ..)
      | keepAlive | punchProbe | punchAck =>
          dsimp only
          cases node.peerMapping.getPeer sourcePeerId with
          | none => exact hpure
          | some peer =>
              dsimp only
              split
              · exact hpure
              · exact Handler.leaves_modify ..

/-! ## Bounds -/

/-- Where the reads of a control payload leave their cursor, and what they leave behind. -/
structure ReadsWithin (data : Bytes) : Prop where
  header : ∀ {kind cursor}, scanControlHeader data = .ok (kind, cursor) → cursor ≤ data.length
  byte : ∀ {cursor byte next}, scanControlByte data cursor = .ok (byte, next) →
    next ≤ data.length
  word : ∀ {cursor value next} {error : ControlError},
    readU16OrExit data cursor error = .ok (value, next) → next ≤ data.length
  dword : ∀ {cursor value next} {error : ControlError},
    readU32OrExit data cursor error = .ok (value, next) → next ≤ data.length
  address : ∀ {cursor address next}, scanAddress data cursor = .ok (address, next) →
    AddressRead data cursor address next

theorem readsWithin (data : Bytes) : ReadsWithin data where
  header := by
    intro kind cursor h
    rw [scanControlHeader_eq] at h
    exact (readControlHeader_cursor (safely_eq_ok h)).2
  byte := by
    intro cursor byte next h
    rw [scanControlByte_eq] at h
    exact (readControlByte_cursor (safely_eq_ok h)).2
  word := by
    intro cursor value next error h
    rw [readU16OrExit_eq] at h
    exact (readU16_cursor (succeed_eq_ok (safely_eq_ok h))).2
  dword := by
    intro cursor value next error h
    rw [readU32OrExit_eq] at h
    exact (readU32_cursor (succeed_eq_ok (safely_eq_ok h))).2
  address := by
    intro cursor address next h
    rw [scanAddress_eq] at h
    exact addressRead (safely_eq_ok h)

/-- Whatever the payload, its handler makes no access outside the payload or an address; every
read leaves the cursor in the payload, and the roster loop applies as many addresses as the
count allows and as there are five bytes for. -/
theorem control_decoding_bounded (sourcePeerId : UInt32) (data : Bytes) (env : NodeEnv)
    (node : ZP2PNode) (sent : List ControlSend) :
    (∃ result, result ≠ .error .fault ∧
      (handleControlPacket resolve sourcePeerId data env).outcome (node, sent) =
        (result, (node.processControlPacket resolve sourcePeerId data env).1,
          sent ++ (node.processControlPacket resolve sourcePeerId data env).2)) ∧
    ReadsWithin data ∧
    ∀ (peerCount : UInt16) (cursor : Nat), cursor ≤ data.length →
      (∃ result, result ≠ .error .fault ∧
        (handleRoster env.now data peerCount.toNat cursor).outcome (node, sent) =
          (result, (rosterEntries data peerCount.toNat cursor).foldl (learnAddress env.now) node,
            sent)) ∧
      (rosterEntries data peerCount.toNat cursor).length ≤
        min peerCount.toNat (data.length / 5) := by
  refine ⟨leaves_handleControlPacket .., readsWithin data, fun peerCount cursor hcursor =>
    ⟨leaves_handleRoster .., ?_⟩⟩
  obtain ⟨hcount, hbytes⟩ := length_rosterEntries_le data peerCount.toNat hcursor
  exact Nat.le_min.mpr ⟨hcount, by omega⟩

end Handlers

end ZP2PNode

end ZetaNet
