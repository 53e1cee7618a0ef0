import ZetaNet.Peer.Receiver
import ZetaNet.Transport.Dispatcher
import ZetaNet.Transport.PriorityQueue
import ZetaNet.Transport.RateLimit

/-!
# `ZPacketQueue`

The handlers of `z_packet_queues.cc`: `Push`, one turn of the loops in `ProcessChannel`,
`ProcessReceiving` and the retry scan, one task of the dispatch executor, and `Pop`.
`received_reliable_seqs` is a local of `ProcessReceiving` and lives as long as the loop.
Counts and byte totals of what is in memory are natural numbers.
-/

namespace ZetaNet

open Wire

/-- `kResendIntervalSeconds` and `kDropAfterSeconds`. -/
def kResendIntervalSeconds : UInt32 := 1
def kDropAfterSeconds : UInt32 := 5

structure ZPacketQueue where
  channelOutgoingQueues : PacketChannelType → PriorityMPSCQueue Queued
  channelIncomingQueues : PacketChannelType → PriorityMPSCQueue IncomingPacket
  channelOutgoingBytes : PacketChannelType → Nat
  dispatcher : PacketDispatcher
  /-- tasks submitted to the executor and not yet run -/
  pendingTasks : List Queued
  rateLimiter : RateLimiter
  receivedReliableSeqs : UInt32 → Finset UInt32
  stopThreads : Bool

namespace ZPacketQueue

def init (now : Nat) : ZPacketQueue where
  channelOutgoingQueues _ := PriorityMPSCQueue.init
  channelIncomingQueues _ := PriorityMPSCQueue.init
  channelOutgoingBytes _ := 0
  dispatcher := ⟨0, ∅, 0, 0⟩
  pendingTasks := []
  rateLimiter := RateLimiter.init now
  receivedReliableSeqs _ := ∅
  stopThreads := false

/-- `queue.enqueue` on one of the outgoing channel queues. -/
def enqueueOutgoing (channel : PacketChannelType) (queued : Queued) (priority : PacketPriority)
    (queue : ZPacketQueue) : ZPacketQueue :=
  { queue with
    channelOutgoingQueues :=
      Function.update queue.channelOutgoingQueues channel
        ((queue.channelOutgoingQueues channel).enqueue queued priority) }

/-- `Push`. -/
def push (now : Nat) (queued : Queued) (queue : ZPacketQueue) : ZPacketQueue :=
  let packet := queued.packet
  let (admitted, rateLimiter) :=
    queue.rateLimiter.checkRateLimit now packet.heapDataSize.toUInt64
  let queue := { queue with rateLimiter }
  if admitted = false then queue
  else
    let queue := queue.enqueueOutgoing packet.channel queued packet.flags.priority
    { queue with
      channelOutgoingBytes :=
        Function.update queue.channelOutgoingBytes packet.channel
          (queue.channelOutgoingBytes packet.channel + packet.heapData.length) }

/-- One turn of `ProcessChannel`: the next packet of the channel becomes a task. -/
def processChannel (channel : PacketChannelType) (queue : ZPacketQueue) : Option ZPacketQueue :=
  (queue.channelOutgoingQueues channel).dequeue.map fun (queued, rest) =>
    { queue with
      channelOutgoingQueues := Function.update queue.channelOutgoingQueues channel rest
      channelOutgoingBytes :=
        Function.update queue.channelOutgoingBytes channel
          (queue.channelOutgoingBytes channel - queued.packet.heapData.length)
      pendingTasks := queue.pendingTasks ++ [queued] }

section Sends

variable {K A : Type} [DecidableEq A] (lz4 : Lz4) (gcm : AesGcm K) (crypto : Option K)
  (peerList : ZPeerMapping A)

/-- The executor runs its `index`-th task. -/
def runTask (index : Nat) (env : UInt32 → SendEnv) (queue : ZPacketQueue) :
    Option (ZPacketQueue × List (Sent A)) :=
  queue.pendingTasks[index]?.map fun queued =>
    let (dispatcher, sent) :=
      queue.dispatcher.dispatchPacket lz4 gcm crypto peerList env queued
    ({ queue with dispatcher, pendingTasks := queue.pendingTasks.eraseIdx index }, sent)

/-- The body of the retry scan for the entry of one sequence number. -/
def retryEntry (now seqNum : UInt32) (env : UInt32 → SendEnv) (queue : ZPacketQueue) :
    ZPacketQueue × List (Sent A) :=
  let dispatcher := queue.dispatcher
  match dispatcher.awaitingAckPackets.lookup seqNum with
  | none => (queue, [])
  | some queued =>
      let packetAge := now - queued.packet.lastSendTime
      if packetAge > kDropAfterSeconds then
        ({ queue with
            dispatcher :=
              { dispatcher with
                awaitingAckPackets := dispatcher.awaitingAckPackets.erase seqNum
                awaitingAckPacketCount := dispatcher.awaitingAckPacketCount - 1
                awaitingAckBytes :=
                  dispatcher.awaitingAckBytes - queued.packet.heapData.length } }, [])
      else if packetAge > kResendIntervalSeconds then
        let (queued, sent) :=
          PacketDispatcher.retransmitPacket lz4 gcm crypto peerList env seqNum queued
        let queued := { queued with packet := { queued.packet with lastSendTime := now } }
        ({ queue with
            dispatcher :=
              { dispatcher with
                awaitingAckPackets := dispatcher.awaitingAckPackets.insert seqNum queued } },
          sent)
      else (queue, [])

/-- The retry scan: the loop over the entries in the order of the hash buckets, which is
passed as the list of their sequence numbers. -/
def retryScan (now : UInt32) (env : UInt32 → UInt32 → SendEnv) :
    List UInt32 → ZPacketQueue → ZPacketQueue × List (Sent A)
  | [], queue => (queue, [])
  | seqNum :: seqNums, queue =>
      let (queue, sent) := queue.retryEntry lz4 gcm crypto peerList now seqNum (env seqNum)
      let (queue, rest) := retryScan now env seqNums queue
      (queue, sent ++ rest)

end Sends

/-- `destination_matches`: the acknowledged packet went to `source`, as far as its destination
tells. -/
def destinationMatches (packet : OutgoingPacket) (source : UInt32) : Bool :=
  packet.destinationPeerId = source ∨ packet.destinationPeerId = ZPeerId.toServer ∨
    packet.destinationPeerId = ZPeerId.toAll

/-- The removal of an acknowledged entry, which the acknowledgement branch and
`AddAwaitingAckPacket` share: the entry, if there is a matching one, is returned. -/
def settleReceipt (source seqNum : UInt32) (queue : ZPacketQueue) :
    ZPacketQueue × Option (UInt32 × Queued) :=
  let dispatcher := queue.dispatcher
  match dispatcher.awaitingAckPackets.lookup seqNum with
  | none => (queue, none)
  | some queued =>
      if destinationMatches queued.packet source then
        ({ queue with
            dispatcher :=
              { dispatcher with
                awaitingAckPackets := dispatcher.awaitingAckPackets.erase seqNum
                awaitingAckPacketCount := dispatcher.awaitingAckPacketCount - 1
                awaitingAckBytes :=
                  dispatcher.awaitingAckBytes - queued.packet.heapData.length } },
          some (seqNum, queued))
      else (queue, none)

/-- The acknowledgement `AddAwaitingAckPacket` builds: its payload is the sequence number. -/
def ackPacket (encrypted : Bool) (returnAddress sequenceNumber : UInt32) : OutgoingPacket :=
  OutgoingPacket.ofData returnAddress PacketType.acknowledgement .control
    { reliable := false, encrypted, compressed := false, priority := .high, acknowledged := true }
    (leU32 sequenceNumber)

/-- `AddAwaitingAckPacket`. -/
def addAwaitingAckPacket (encrypted : Bool) (returnAddress sequenceNumber ackNumber : UInt32)
    (queue : ZPacketQueue) : ZPacketQueue × Option (UInt32 × Queued) :=
  let queue := queue.enqueueOutgoing .control
    ⟨ackPacket encrypted returnAddress sequenceNumber, none⟩ .high
  if ackNumber = 0 then (queue, none) else queue.settleReceipt returnAddress ackNumber

/-- The sequence number an acknowledgement carries. -/
def ackedSeq (data : Bytes) : Option UInt32 :=
  if data.length ≥ 4 then loadU32 data 0 else none

/-- What one turn of `ProcessReceiving` did: the packet it put on an incoming queue and the
entry it removed as acknowledged. -/
structure Received where
  queue : ZPacketQueue
  enqueued : Option IncomingPacket
  settled : Option (UInt32 × Queued)

/-- `channel_incoming_queues_[pack.channel].enqueue`. -/
def enqueueIncoming (pack : IncomingPacket) (queue : ZPacketQueue) : ZPacketQueue :=
  { queue with
    channelIncomingQueues :=
      Function.update queue.channelIncomingQueues pack.channel
        ((queue.channelIncomingQueues pack.channel).enqueue pack pack.flags.priority) }

/-- The branch for a packet that is no acknowledgement. -/
def receivePacket (encrypted : Bool) (pack : IncomingPacket) (queue : ZPacketQueue) : Received :=
  if pack.flags.reliable then
    let (queue, settled) := queue.addAwaitingAckPacket encrypted pack.sourcePeerId
      pack.sequenceNumber pack.acknowledgementNumber
    let seqs := queue.receivedReliableSeqs pack.sourcePeerId
    if pack.sequenceNumber ∈ seqs then ⟨queue, none, settled⟩
    else
      let queue := { queue with
        receivedReliableSeqs := Function.update queue.receivedReliableSeqs pack.sourcePeerId
          (insert pack.sequenceNumber seqs) }
      ⟨queue.enqueueIncoming pack, some pack, settled⟩
  else ⟨queue.enqueueIncoming pack, some pack, none⟩

/-- The acknowledgement branch. -/
def receiveAcknowledgement (pack : IncomingPacket) (queue : ZPacketQueue) : Received :=
  match ackedSeq pack.data with
  | none => ⟨queue, none, none⟩
  | some seqNum =>
      let (queue, settled) := queue.settleReceipt pack.sourcePeerId seqNum
      ⟨queue, none, settled⟩

/-- One turn of `ProcessReceiving` after `ReceivePackets`; `encrypted` is whether there is a
crypto context. -/
def processReceived (encrypted : Bool) (result : ReceiveResult) (queue : ZPacketQueue) :
    Received :=
  match result with
  | .success pack => queue.receivePacket encrypted pack
  | .acknowledgement pack => queue.receiveAcknowledgement pack
  | .goodbye => ⟨{ queue with stopThreads := true }, none, none⟩
  | .error => ⟨queue, none, none⟩
  | .timeout => ⟨queue, none, none⟩

/-- `Pop`. -/
def pop (channel : PacketChannelType) (queue : ZPacketQueue) :
    Option (IncomingPacket × ZPacketQueue) :=
  (queue.channelIncomingQueues channel).dequeue.map fun (pack, rest) =>
    (pack,
      { queue with
        channelIncomingQueues := Function.update queue.channelIncomingQueues channel rest })

end ZPacketQueue

end ZetaNet
