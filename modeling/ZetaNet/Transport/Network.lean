import ZetaNet.Lib.Machine
import ZetaNet.Transport.Queue

/-!
# Transports on a network

Any number of hosts, each running the packet queue, over a network that keeps every
datagram ever sent and may deliver it any number of times, in any order, or never. A host is
its own address, and addresses map to peers through the hosts' own peer tables. Handlers run
one at a time; the tasks of the dispatch executor run in any order.

The logs `pushed`, `enqueued` and `settled` are there for the theorems only.
-/

namespace ZetaNet

/-- A process: its queue, its peer table and `crypto_context_`. -/
structure Host (K H : Type) where
  queue : ZPacketQueue
  peerList : ZPeerMapping H
  crypto : Option K

/-- A datagram on the wire; the last three fields are those of `Sent`. -/
structure Datagram (H : Type) where
  source : H
  target : H
  bytes : Bytes
  origin : Queued
  sequenceNumber : UInt32
  resent : Bool

/-- The datagram is what `source` dispatched under the number `k`, for its `n`-th push. -/
structure Datagram.Dispatched {H : Type} (d : Datagram H) (source : H) (k : UInt32) (n : Nat) :
    Prop where
  source : d.source = source
  sequenceNumber : d.sequenceNumber = k
  first : d.resent = false
  serial : d.origin.serial = some n

/-- Where a send goes to from a socket with this server address. -/
def Target.resolve {H : Type} (server : H) : Target H → H
  | .server => server
  | .peer address => address

/-- An entry of the log of incoming packets: the packet that went on the incoming queue, and
which push of which host it comes from. -/
structure Enqueued (H : Type) where
  source : H
  serial : Option Nat
  pack : IncomingPacket

/-- The entry is a copy of the `n`-th push of `source`. -/
def Enqueued.isCopyOf {H : Type} [DecidableEq H] (source : H) (n : Nat) (e : Enqueued H) : Bool :=
  e.source = source ∧ e.serial = some n

structure Network (K H : Type) where
  host : H → Host K H
  wire : List (Datagram H)
  /-- the packets each application has pushed -/
  pushed : H → List OutgoingPacket
  /-- the packets put on each host's incoming queues -/
  enqueued : H → List (Enqueued H)
  /-- the entries removed from each host's `awaiting_ack_packets_` as acknowledged -/
  settled : H → List (UInt32 × Queued)

inductive NetworkEvent (K H : Type)
  | setCryptoProvider (h : H) (crypto : Option K)
  | setRateLimitConfig (h : H) (config : RateLimitConfig)
  | addPeer (h : H) (address : H)
  | push (h : H) (now : Nat) (packet : OutgoingPacket)
  | processChannel (h : H) (channel : PacketChannelType)
  | runTask (h : H) (index : Nat) (env : UInt32 → SendEnv)
  | retry (h : H) (now seqNum : UInt32) (env : UInt32 → SendEnv)
  | deliver (index : Nat)
  | pop (h : H) (channel : PacketChannelType)

/-- `IncomingPacket pack;` of `ProcessReceiving`. -/
def initialPack : IncomingPacket where
  channel := .control
  flags := { reliable := false, encrypted := false, compressed := false, priority := .low }
  type := PacketType.invalid
  sourcePeerId := 0
  acknowledgementNumber := 0
  sequenceNumber := 0
  data := []

namespace Network

variable {K H : Type} [DecidableEq H] (lz4 : Lz4) (gcm : AesGcm K)
  /- the host behind the server address a host's socket was set up with -/
  (serverOf : H → H)

/-- Every host with a fresh queue, set up at its own time. -/
def start (now : H → Nat) : Network K H where
  host h := ⟨ZPacketQueue.init (now h), ZPeerMapping.empty, none⟩
  wire := []
  pushed _ := []
  enqueued _ := []
  settled _ := []

variable {lz4 gcm}

def setHost (h : H) (host : Host K H) (s : Network K H) : Network K H :=
  { s with host := Function.update s.host h host }

def setQueue (h : H) (queue : ZPacketQueue) (s : Network K H) : Network K H :=
  s.setHost h { s.host h with queue }

/-- A datagram the socket of `h` took, on the wire. -/
def datagramOf (h : H) (sent : Sent H) : Datagram H where
  source := h
  target := sent.target.resolve (serverOf h)
  bytes := sent.bytes
  origin := sent.origin
  sequenceNumber := sent.sequenceNumber
  resent := sent.resent

/-- The queue of `h` after a send, and its datagrams on the wire. -/
def afterSend (h : H) (result : ZPacketQueue × List (Sent H)) (s : Network K H) :
    Network K H :=
  { s.setQueue h result.1 with wire := s.wire ++ result.2.map (datagramOf serverOf h) }

/-- The same for a send that only concerns the dispatcher. -/
def afterDispatch (h : H) (result : PacketDispatcher × List (Sent H)) (s : Network K H) :
    Network K H :=
  s.afterSend serverOf h ({ (s.host h).queue with dispatcher := result.1 }, result.2)

variable (lz4 gcm)

/-- `ReceivePackets` for a datagram from `source`. -/
def receivePackets (host : Host K H) (source : H) (bytes : Bytes) :
    ReceiveResult × ZPeerMapping H :=
  let received := bytes.take kMaxBufferSize
  if received = [] then (.goodbye, host.peerList)
  else receiveDatagram lz4 gcm host.crypto initialPack source received host.peerList

/-- The host `h` after a turn of `ProcessReceiving`, with what it added to the logs. -/
def afterReceive (h : H) (host : Host K H) (enqueued : List (Enqueued H))
    (settled : List (UInt32 × Queued)) (s : Network K H) : Network K H :=
  { s.setHost h host with
    enqueued := Function.update s.enqueued h (s.enqueued h ++ enqueued)
    settled := Function.update s.settled h (s.settled h ++ settled) }

/-- One turn of `ProcessReceiving` at the target of a datagram. -/
def receive (d : Datagram H) (s : Network K H) : Network K H :=
  let host := s.host d.target
  let (result, peerList) := receivePackets lz4 gcm host d.source d.bytes
  let received := host.queue.processReceived host.crypto.isSome result
  s.afterReceive d.target { host with queue := received.queue, peerList }
    (received.enqueued.toList.map (⟨d.source, d.origin.serial, ·⟩)) received.settled.toList

def machine : Machine (Network K H) (NetworkEvent K H) where
  step s
    | .setCryptoProvider h crypto => some (s.setHost h { s.host h with crypto })
    | .setRateLimitConfig h config =>
        let queue := (s.host h).queue
        some (s.setQueue h { queue with rateLimiter := { queue.rateLimiter with config } })
    | .addPeer h address =>
        some (s.setHost h
          { s.host h with peerList := ((s.host h).peerList.getOrCreatePeer address).2 })
    | .push h now packet =>
        let queued : Queued := ⟨packet, some (s.pushed h).length⟩
        some
          { s.setQueue h ((s.host h).queue.push now queued) with
            pushed := Function.update s.pushed h (s.pushed h ++ [packet]) }
    | .processChannel h channel =>
        ((s.host h).queue.processChannel channel).map fun queue => s.setQueue h queue
    | .runTask h index env =>
        let host := s.host h
        (host.queue.runTask lz4 gcm host.crypto host.peerList index env).map fun result =>
          s.afterSend serverOf h result
    | .retry h now seqNum env =>
        let host := s.host h
        some (s.afterSend serverOf h
          (host.queue.retryEntry lz4 gcm host.crypto host.peerList now seqNum env))
    | .deliver index => s.wire[index]?.map fun d => s.receive lz4 gcm d
    | .pop h channel => ((s.host h).queue.pop channel).map fun result => s.setQueue h result.2

/-! ## How sends compose -/

section Sends

variable {serverOf : H → H} {h : H} {s : Network K H}

@[simp] theorem host_setHost_self (host : Host K H) : (s.setHost h host).host h = host := by
  simp [setHost]

theorem host_setHost_of_ne {h' : H} (hne : h' ≠ h) (host : Host K H) :
    (s.setHost h host).host h' = s.host h' := by
  simp [setHost, hne]

@[simp] theorem host_afterSend_self (result : ZPacketQueue × List (Sent H)) :
    (s.afterSend serverOf h result).host h = { s.host h with queue := result.1 } :=
  host_setHost_self _

theorem host_afterSend_of_ne {h' : H} (hne : h' ≠ h) (result : ZPacketQueue × List (Sent H)) :
    (s.afterSend serverOf h result).host h' = s.host h' :=
  host_setHost_of_ne hne _

theorem afterSend_afterSend (first second : ZPacketQueue × List (Sent H)) :
    (s.afterSend serverOf h first).afterSend serverOf h second =
      s.afterSend serverOf h (second.1, first.2 ++ second.2) := by
  simp only [afterSend, setQueue, setHost, Function.update_self, Function.update_idem,
    List.map_append, List.append_assoc]

theorem afterDispatch_nil :
    s.afterDispatch serverOf h ((s.host h).queue.dispatcher, []) = s := by
  simp only [afterDispatch, afterSend, setQueue, setHost, Function.update_eq_self, List.map_nil,
    List.append_nil]

theorem afterDispatch_afterDispatch (first second : PacketDispatcher × List (Sent H)) :
    (s.afterDispatch serverOf h first).afterDispatch serverOf h second =
      s.afterDispatch serverOf h (second.1, first.2 ++ second.2) := by
  rw [afterDispatch, afterDispatch, afterSend_afterSend]
  simp only [afterDispatch, host_afterSend_self]

end Sends

/-- The retry scan is one run of the retries of its entries. -/
theorem exec_retryScan {serverOf : H → H} (h : H) (now : UInt32)
    (env : UInt32 → UInt32 → SendEnv) (seqNums : List UInt32) (s : Network K H) :
    (machine lz4 gcm serverOf).exec s
        (seqNums.map fun seqNum => .retry h now seqNum (env seqNum)) =
      some (s.afterSend serverOf h
        ((s.host h).queue.retryScan lz4 gcm (s.host h).crypto (s.host h).peerList now env
          seqNums)) := by
  induction seqNums generalizing s with
  | nil =>
      show some s = some (s.afterSend serverOf h ((s.host h).queue, []))
      simp only [afterSend, setQueue, setHost, Function.update_eq_self, List.map_nil,
        List.append_nil]
  | cons seqNum seqNums ih =>
      rw [List.map_cons]
      refine (ih _).trans ?_
      rw [afterSend_afterSend]
      simp only [host_afterSend_self]
      rfl

end Network

end ZetaNet
