import ZetaNet.P2P.Reachable
import ZetaNet.P2P.Roles

/-!
# The roster of a host

A host writes the addresses of its peers one record after the other behind their count, and a
client reads them with a cursor and remembers each.
-/

namespace ZetaNet

open Wire Checks

/-! ## Records in a row -/

/-- What `SerializeAddress` writes of a clean address. -/
def addressRecord (address : Address) : Bytes :=
  address.addressFamily :: UInt8.ofNat address.text.length :: (address.text ++ leU16 address.port)

/-- The addresses the roster loop reads before it ends or stops. -/
def rosterEntries (data : Bytes) : Nat → Nat → List Address
  | 0, _ => []
  | count + 1, cursor =>
      match deserializeAddress data cursor with
      | .error _ => []
      | .ok (address, cursor) => address :: rosterEntries data count cursor

namespace ZP2PNode

/-! ## What a client makes of them -/

/-- The body of the address loop, with an address read. -/
def learnAddress (now : Nat) (node : ZP2PNode) (address : Address) : ZP2PNode :=
  if node.isSelfAddress address then node
  else
    let known := node.rememberPeer address
    if known.type = .client ∧ address ≠ known.hostEndpoint then known.armPunchProbe now address
    else known

/-- The loop applies the addresses it can read, whether or not it comes to the last. -/
theorem processRoster_entries (now : Nat) (data : Bytes) (count cursor : Nat)
    (node : ZP2PNode) :
    node.processRoster now data count cursor =
      (rosterEntries data count cursor).foldl (learnAddress now) node := by
  induction count generalizing cursor node with
  | zero => rfl
  | succ count ih =>
      rw [processRoster, rosterEntries]
      cases haddress : deserializeAddress data cursor with
      | error error => rfl
      | ok found =>
          obtain ⟨address, next⟩ := found
          dsimp only
          rw [List.foldl_cons, learnAddress]
          split
          · exact ih next node
          · exact ih next _

/-- An address of the loopback interface. -/
def loopback (port : UInt16) : Address := Address.ofText kLoopbackText port AddressFamily.inet.toU8

end ZP2PNode

end ZetaNet
