import ZetaNet.Crypto.Context
import ZetaNet.Handshake.Messages
import ZetaNet.Transport.Layer
import Mathlib.Data.Finset.Insert

/-!
# `ZClient` and `ZServer`

The two `ProcessSystemMessage` of `z_client.cc` and `z_server.cc` with the hello and proof
messages they push. `outgoing` collects the packets in the order they are handed to the
packet queue.
-/

namespace ZetaNet

open ZCryptoContext

/-- The flags of every handshake packet. -/
def handshakeFlags : PackageFlags where
  reliable := false
  encrypted := false
  compressed := false
  priority := .critical

/-- A handshake packet: control channel, `handshakeFlags`, the writer's bytes. -/
def handshakePacket (peerId : UInt32) (type : PacketType) (data : Bytes) : OutgoingPacket :=
  OutgoingPacket.ofData peerId type .control handshakeFlags data

/-- The packet as the receiving queue hands it over. -/
def OutgoingPacket.received (packet : OutgoingPacket) (sourcePeerId : UInt32) :
    IncomingPacket where
  channel := packet.channel
  flags := packet.flags
  type := packet.type
  sourcePeerId
  acknowledgementNumber := 0
  sequenceNumber := 0
  data := packet.heapData

/-- `crypto_context_`, and an empty string from it when there is none. -/
def publicKeyOf (cryptoContext : Option ZCryptoContext) : Bytes :=
  (cryptoContext.map getPublicKey).getD []

def challengeOf (cryptoContext : Option ZCryptoContext) : Bytes :=
  (cryptoContext.map getChallenge).getD []

/-! ## The server -/

/-- The part of `class ZServer` the handshake works on. -/
structure ZServer where
  state : State
  cryptoContext : Option ZCryptoContext
  handshakedPeers : Finset UInt32
  outgoing : List OutgoingPacket
  deriving DecidableEq

namespace ZServer

/-- `Push`. -/
def push (server : ZServer) (packet : OutgoingPacket) : ZServer :=
  if server.state ≠ .connected then server
  else { server with outgoing := server.outgoing ++ [packet] }

variable (backend : CryptoBackend) (env : Environment)

/-- `server_proof`, which is left empty without a pre-shared key in the environment. -/
def serverProof (cryptoContext : Option ZCryptoContext) : Bytes :=
  match cryptoContext with
  | none => []
  | some context =>
      match env.psk with
      | none => []
      | some psk => if psk = [] then [] else generateServerProof backend context

/-- `SendServerHello`. -/
def sendServerHello (dest : UInt32) (server : ZServer) : ZServer :=
  server.push (handshakePacket dest PacketType.serverHello
    (serverHelloData (publicKeyOf server.cryptoContext) (challengeOf server.cryptoContext)
      (serverProof backend env server.cryptoContext)))

/-- `ProcessSystemMessage`. -/
def processSystemMessage (p : IncomingPacket) (server : ZServer) : ZServer :=
  if p.type = PacketType.clientHello then
    if p.sourcePeerId ∈ server.handshakedPeers then server
    else
      let handshakedPeers := insert p.sourcePeerId server.handshakedPeers
      match server.cryptoContext with
      | none => sendServerHello backend env p.sourcePeerId { server with handshakedPeers }
      | some context =>
          match parseClientHello p.data with
          | .error _ => server
          | .ok (clientNonce, clientChallenge) =>
              let context := processServerKey backend clientNonce clientChallenge context
              sendServerHello backend env p.sourcePeerId
                { server with cryptoContext := some context, handshakedPeers }
  else if p.type = PacketType.clientAuthProof then
    match server.cryptoContext with
    | none => server
    | some context =>
        match parseClientAuthProof p.data with
        | .error _ => server
        | .ok proof =>
            { server with cryptoContext := some (verifyClientProof backend proof context).2 }
  else server

variable {backend env}

theorem processSystemMessage_duplicate {p : IncomingPacket} {server : ZServer}
    (htype : p.type = PacketType.clientHello) (hmem : p.sourcePeerId ∈ server.handshakedPeers) :
    server.processSystemMessage backend env p = server := by
  unfold processSystemMessage
  rw [if_pos htype, if_pos hmem]

variable (backend env) in
/-- Everything a server with a crypto context can do with a packet: nothing, the key exchange
of a fresh and well-formed hello, or the verification of a well-formed proof. -/
theorem processSystemMessage_cases {p : IncomingPacket} {server : ZServer}
    {context : ZCryptoContext} (hcontext : server.cryptoContext = some context) :
    server.processSystemMessage backend env p = server ∨
    (p.type = PacketType.clientHello ∧ p.sourcePeerId ∉ server.handshakedPeers ∧
      ∃ clientNonce clientChallenge,
        parseClientHello p.data = .ok (clientNonce, clientChallenge) ∧
        server.processSystemMessage backend env p =
          sendServerHello backend env p.sourcePeerId
            { server with
              cryptoContext :=
                some (processServerKey backend clientNonce clientChallenge context)
              handshakedPeers := insert p.sourcePeerId server.handshakedPeers }) ∨
    (p.type = PacketType.clientAuthProof ∧
      ∃ proof, parseClientAuthProof p.data = .ok proof ∧
        server.processSystemMessage backend env p =
          { server with cryptoContext := some (verifyClientProof backend proof context).2 }) := by
  unfold processSystemMessage
  split
  · rename_i htype
    split
    · exact .inl rfl
    · rename_i hfresh
      simp only [hcontext]
      split
      · exact .inl rfl
      · rename_i clientNonce clientChallenge hparse
        exact .inr (.inl ⟨htype, hfresh, clientNonce, clientChallenge, hparse, rfl⟩)
  · split
    · rename_i htype
      simp only [hcontext]
      split
      · exact .inl rfl
      · rename_i proof hparse
        exact .inr (.inr ⟨htype, proof, hparse, rfl⟩)
    · exact .inl rfl

end ZServer

/-! ## The client -/

/-- The part of `class ZClient` the handshake works on. -/
structure ZClient where
  state : State
  cryptoContext : Option ZCryptoContext
  outgoing : List OutgoingPacket
  deriving DecidableEq

namespace ZClient

/-- `Push`, which does not look at the state. -/
def push (client : ZClient) (packet : OutgoingPacket) : ZClient :=
  { client with outgoing := client.outgoing ++ [packet] }

/-- `SendClientHello`. -/
def sendClientHello (client : ZClient) : ZClient :=
  client.push (handshakePacket ZPeerId.toServer PacketType.clientHello
    (clientHelloData (publicKeyOf client.cryptoContext) (challengeOf client.cryptoContext)))

/-- `SendClientAuthProof`. -/
def sendClientAuthProof (proof : Bytes) (client : ZClient) : ZClient :=
  client.push (handshakePacket ZPeerId.toServer PacketType.clientAuthProof
    (clientAuthProofData proof))

/-- `Connect` once the transport is initialized. -/
def connect (client : ZClient) : ZClient :=
  { client.sendClientHello with state := .connecting }

/-- `Disconnect`. -/
def disconnect (client : ZClient) : ZClient := { client with state := .disconnected }

variable (backend : CryptoBackend)

/-- The end of the `ServerHello` case: answer with the client's proof, if there is one. -/
def finishServerHello (context : ZCryptoContext) (client : ZClient) : ZClient :=
  let client := { client with cryptoContext := some context }
  let clientProof := generateClientProof backend context
  let client := if clientProof = [] then client else client.sendClientAuthProof clientProof
  { client with state := .connected }

/-- `ProcessSystemMessage`. -/
def processSystemMessage (p : IncomingPacket) (client : ZClient) : ZClient :=
  if p.type = PacketType.serverHello then
    if client.state ≠ .connecting then client
    else
      match parseServerHello p.data with
      | .error _ => client
      | .ok (key, serverChallenge, serverProof) =>
          match client.cryptoContext with
          | none => { client with state := .connected }
          | some context =>
              let context := processServerKey backend key serverChallenge context
              if serverProof = [] then finishServerHello backend context client
              else
                match verifyServerResponse backend serverProof context with
                | (false, context) =>
                    disconnect { client with cryptoContext := some context }
                | (true, context) => finishServerHello backend context client
  else client

variable {backend}

/-- What a key exchange leaves of a client: it has stopped connecting, holds the new context,
and has sent at most a proof. -/
structure Exchanged (client result : ZClient) (context' : ZCryptoContext) : Prop where
  state : result.state ≠ .connecting
  cryptoContext : result.cryptoContext = some context'
  outgoing : ∀ sent ∈ result.outgoing,
    sent ∈ client.outgoing ∨ sent.type = PacketType.clientAuthProof

theorem exchanged_finishServerHello (context : ZCryptoContext) (client : ZClient) :
    Exchanged client (finishServerHello backend context client) context := by
  by_cases hempty : generateClientProof backend context = []
  · constructor <;> simp [finishServerHello, hempty]
    exact fun sent hsent => .inl hsent
  · constructor <;> simp [finishServerHello, hempty, sendClientAuthProof, push]
    rintro sent (hold | rfl)
    · exact .inl hold
    · exact .inr rfl

theorem exchanged_disconnect (context : ZCryptoContext) (client : ZClient) :
    Exchanged client (disconnect { client with cryptoContext := some context }) context := by
  constructor <;> simp [disconnect]
  exact fun sent hsent => .inl hsent

theorem processSystemMessage_ignored {client : ZClient} (hstate : client.state ≠ .connecting)
    (p : IncomingPacket) : client.processSystemMessage backend p = client := by
  unfold processSystemMessage
  rw [if_pos hstate, ite_self]

variable (backend) in
/-- Everything a client with a crypto context can do with a packet: nothing, or, while it is
connecting, one key exchange. -/
theorem processSystemMessage_cases {p : IncomingPacket} {client : ZClient}
    {context : ZCryptoContext} (hcontext : client.cryptoContext = some context) :
    client.processSystemMessage backend p = client ∨
    (p.type = PacketType.serverHello ∧ client.state = .connecting ∧
      ∃ key challenge proof context',
        parseServerHello p.data = .ok (key, challenge, proof) ∧
        (context' = processServerKey backend key challenge context ∨
          context' = { processServerKey backend key challenge context with
            authenticated := true }) ∧
        Exchanged client (client.processSystemMessage backend p) context') := by
  unfold processSystemMessage
  by_cases htype : p.type = PacketType.serverHello
  swap
  · exact .inl (if_neg htype)
  by_cases hstate : client.state = .connecting
  swap
  · rw [if_pos htype, if_pos hstate]
    exact .inl rfl
  rw [if_pos htype, if_neg (by simp [hstate])]
  rcases hparse : parseServerHello p.data with e | ⟨key, challenge, proof⟩
  · exact .inl rfl
  simp only [hcontext]
  right
  refine ⟨htype, hstate, key, challenge, proof, ?_⟩
  split
  · exact ⟨_, rfl, .inl rfl, exchanged_finishServerHello ..⟩
  · -- a proof came with the hello: it is accepted, or the client disconnects
    have hkeep := verifyServerResponse_snd backend proof
      (processServerKey backend key challenge context)
    split
    · rename_i context' hverify
      rw [hverify] at hkeep
      exact ⟨context', rfl, hkeep, exchanged_disconnect ..⟩
    · rename_i context' hverify
      rw [hverify] at hkeep
      exact ⟨context', rfl, hkeep, exchanged_finishServerHello ..⟩

end ZClient
end ZetaNet
