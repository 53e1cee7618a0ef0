import ZetaNet.Transport.Queue

/-!
# `ZAsyncTransportLayer`

The state of a transport and `EnqueuePacket` of `z_transport.cc`.
-/

namespace ZetaNet

/-- `ZAsyncTransportLayer::State`. -/
inductive State
  | disconnected
  | connecting
  | connected
  | disconnecting
  deriving DecidableEq, Repr

/-- The members `EnqueuePacket` works on. -/
structure ZAsyncTransportLayer where
  state : State
  packetQueue : ZPacketQueue

namespace ZAsyncTransportLayer

/-- `EnqueuePacket`. -/
def enqueuePacket (now : Nat) (queued : Queued) (layer : ZAsyncTransportLayer) :
    Bool × ZAsyncTransportLayer :=
  if layer.state ≠ .connected then (false, layer)
  else (true, { layer with packetQueue := layer.packetQueue.push now queued })

theorem enqueuePacket_of_connected {layer : ZAsyncTransportLayer} (h : layer.state = .connected)
    (now : Nat) (queued : Queued) :
    layer.enqueuePacket now queued =
      (true, { layer with packetQueue := layer.packetQueue.push now queued }) :=
  if_neg (not_not.mpr h)

theorem connected_of_enqueuePacket {layer layer' : ZAsyncTransportLayer} {now : Nat}
    {queued : Queued} (h : layer.enqueuePacket now queued = (true, layer')) :
    layer.state = .connected := by
  unfold enqueuePacket at h
  split at h
  · cases h
  · rename_i hconnected
    exact not_not.mp hconnected

end ZAsyncTransportLayer

end ZetaNet
