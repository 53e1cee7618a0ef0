import ZetaNet.Handshake.Endpoints

/-!
# One client, one server

A client and a server that share the pre-shared key finish the handshake: the three
messages, byte for byte as sent, leave both sides authenticated under the same keys.
-/

namespace ZetaNet

open ZCryptoContext

namespace ZCryptoContext

variable {backend : CryptoBackend}

/-- A context right after `InitializeKeyExchange` under a usable pre-shared key. -/
def initialized (backend : CryptoBackend) (psk nonce challenge : Bytes) : ZCryptoContext where
  encryptionKey := backend.sha256 (kEnc ++ backend.sha256 psk)
  authenticationKey := backend.sha256 (kAuth ++ backend.sha256 psk)
  keysInitialized := true
  authenticated := false
  localNonce := nonce
  localChallenge := challenge
  serverNonce := []
  serverChallenge := []

theorem initializeKeyExchange_fresh {psk : Bytes} (hpsk : 16 ≤ psk.length)
    (nonce : List.Vector UInt8 32) (challenge : List.Vector UInt8 16) :
    initializeKeyExchange backend ⟨some psk⟩ (some nonce) (some challenge) fresh =
      (true, initialized backend psk (bytesToHex nonce.toList) (bytesToHex challenge.toList)) := by
  have hne : psk ≠ [] := by
    intro h
    rw [h] at hpsk
    exact absurd hpsk (by decide)
  have hready : ensureKeyMaterialReady backend ⟨some psk⟩ fresh =
      (true, { deriveKeyMaterial backend psk fresh with keysInitialized := true }) := by
    simp [ensureKeyMaterialReady, fresh, hne, Nat.not_lt.mpr hpsk]
  unfold initializeKeyExchange
  rw [if_neg (by simp [fresh]), hready]
  rfl

/-- Two contexts seen from opposite ends: same keys, each one's local strings the other's
server strings. -/
structure Mirror (a b : ZCryptoContext) : Prop where
  encryptionKey : a.encryptionKey = b.encryptionKey
  authenticationKey : a.authenticationKey = b.authenticationKey
  nonce : a.localNonce = b.serverNonce
  nonce' : b.localNonce = a.serverNonce
  challenge : a.localChallenge = b.serverChallenge
  challenge' : b.localChallenge = a.serverChallenge

theorem Mirror.symm {a b : ZCryptoContext} (h : Mirror a b) : Mirror b a :=
  ⟨h.encryptionKey.symm, h.authenticationKey.symm, h.nonce', h.nonce, h.challenge', h.challenge⟩

/-- What one side calls its own first, the other side calls the server's first. -/
theorem Mirror.localFirst_eq {a b : ZCryptoContext} (h : Mirror a b) :
    a.localFirst = b.serverFirst := by
  rw [localFirst, serverFirst, h.nonce, h.nonce', h.challenge, h.challenge']

theorem Mirror.proofOf_eq {a b : ZCryptoContext} (h : Mirror a b) :
    proofOf backend a a.localFirst = proofOf backend b b.serverFirst := by
  rw [proofOf, proofOf, h.encryptionKey, h.localFirst_eq]

/-- From the same keys, exchanging nonces and challenges leads to mirrored contexts. -/
theorem mirror_processServerKey {a b : ZCryptoContext}
    (hencryption : a.encryptionKey = b.encryptionKey)
    (hauthentication : a.authenticationKey = b.authenticationKey) :
    Mirror (processServerKey backend b.localNonce b.localChallenge a)
      (processServerKey backend a.localNonce a.localChallenge b) := by
  have hkeys : (processServerKey backend b.localNonce b.localChallenge a).encryptionKey =
        (processServerKey backend a.localNonce a.localChallenge b).encryptionKey ∧
      (processServerKey backend b.localNonce b.localChallenge a).authenticationKey =
        (processServerKey backend a.localNonce a.localChallenge b).authenticationKey := by
    simp only [processServerKey, deriveSessionKeys, hencryption, hauthentication,
      or_comm (a := b.localNonce = []), sortedNonces_comm b.localNonce]
    split <;> exact ⟨rfl, rfl⟩
  exact ⟨hkeys.1, hkeys.2, by simp, by simp, by simp, by simp⟩

/-- `VerifyServerResponse` and `VerifyClientProof` accept the proof of the mirrored side. -/
theorem Mirror.verifyServerResponse {a b : ZCryptoContext} (h : Mirror a b)
    (hcomplete : ¬ a.incomplete) :
    verifyServerResponse backend (proofOf backend b b.serverFirst) a =
      (true, { a with authenticated := true }) := by
  rw [ZCryptoContext.verifyServerResponse, if_neg hcomplete, h.proofOf_eq, if_neg (by simp)]

theorem Mirror.verifyClientProof {a b : ZCryptoContext} (h : Mirror a b)
    (hcomplete : ¬ a.incomplete) :
    verifyClientProof backend (proofOf backend b b.serverFirst) a =
      (true, { a with authenticated := true }) := by
  have hnonces : ¬ (a.serverNonce = [] ∨ a.localNonce = []) := by
    simp only [incomplete, not_or] at hcomplete ⊢
    exact ⟨hcomplete.1, hcomplete.2.2.1⟩
  rw [ZCryptoContext.verifyClientProof, if_neg hnonces, h.proofOf_eq, if_neg (by simp)]

end ZCryptoContext

/-! ## The three messages -/

/-- The received packet has the type and the payload of the sent one. -/
def Carries (received : IncomingPacket) (sent : OutgoingPacket) : Prop :=
  received.type = sent.type ∧ received.data = sent.heapData

theorem length_proofOf {backend : CryptoBackend} (sized : backend.Sized)
    (context : ZCryptoContext) (data : Bytes) : (proofOf backend context data).length = 64 := by
  rw [proofOf, length_bytesToHex, sized.2]

theorem heapData_handshakePacket (peerId : UInt32) (type : PacketType) {data : Bytes}
    (h : data.length < 2 ^ 32) : (handshakePacket peerId type data).heapData = data :=
  OutgoingPacket.heapData_ofData h

/-- The server on a fresh hello: the key exchange, then its own hello. -/
theorem ZServer.processSystemMessage_clientHello (backend : CryptoBackend) (env : Environment)
    {server : ZServer} {p : IncomingPacket} {context : ZCryptoContext} {nonce challenge : Bytes}
    (htype : p.type = PacketType.clientHello) (hfresh : p.sourcePeerId ∉ server.handshakedPeers)
    (hcontext : server.cryptoContext = some context)
    (hparse : parseClientHello p.data = .ok (nonce, challenge)) :
    server.processSystemMessage backend env p =
      sendServerHello backend env p.sourcePeerId
        { server with
          cryptoContext := some (processServerKey backend nonce challenge context)
          handshakedPeers := insert p.sourcePeerId server.handshakedPeers } := by
  unfold ZServer.processSystemMessage
  rw [if_pos htype, if_neg hfresh, hcontext]
  simp only [hparse]

/-- The server on a proof: verification under the current context. -/
theorem ZServer.processSystemMessage_clientAuthProof {backend : CryptoBackend}
    {env : Environment} {server : ZServer} {p : IncomingPacket} {context : ZCryptoContext}
    {proof : Bytes} (htype : p.type = PacketType.clientAuthProof)
    (hcontext : server.cryptoContext = some context)
    (hparse : parseClientAuthProof p.data = .ok proof) :
    server.processSystemMessage backend env p =
      { server with
        cryptoContext := some (ZCryptoContext.verifyClientProof backend proof context).2 } := by
  unfold ZServer.processSystemMessage
  rw [if_neg (by rw [htype]; decide), if_pos htype, hcontext]
  simp only [hparse]

/-- The client on a hello whose proof it can verify. -/
theorem ZClient.processSystemMessage_serverHello {backend : CryptoBackend} {client : ZClient}
    {p : IncomingPacket} {context verified : ZCryptoContext} {key challenge proof : Bytes}
    (htype : p.type = PacketType.serverHello) (hstate : client.state = .connecting)
    (hcontext : client.cryptoContext = some context)
    (hparse : parseServerHello p.data = .ok (key, challenge, proof)) (hproof : proof ≠ [])
    (hverify : ZCryptoContext.verifyServerResponse backend proof
      (processServerKey backend key challenge context) = (true, verified)) :
    client.processSystemMessage backend p = finishServerHello backend verified client := by
  unfold ZClient.processSystemMessage
  rw [if_pos htype, if_neg (by simp [hstate])]
  simp only [hparse, hcontext, if_neg hproof, hverify]

namespace ZCryptoContext

/-- What `InitializeKeyExchange` leaves behind: nonce and challenge are hexadecimal strings of
32 and 16 bytes, nothing is known of the other side, and nobody is authenticated. -/
structure Prepared (context : ZCryptoContext) : Prop where
  nonce : context.localNonce.length = 64
  challenge : context.localChallenge.length = 32
  serverNonce : context.serverNonce = []
  authenticated : context.authenticated = false

theorem prepared_initialized (backend : CryptoBackend) (psk : Bytes)
    (nonce : List.Vector UInt8 32) (challenge : List.Vector UInt8 16) :
    (initialized backend psk (bytesToHex nonce.toList) (bytesToHex challenge.toList)).Prepared :=
  ⟨by simp [initialized], by simp [initialized], rfl, rfl⟩

theorem Prepared.localNonce_ne_nil {context : ZCryptoContext} (h : context.Prepared) :
    context.localNonce ≠ [] := by
  rw [← List.length_pos_iff, h.nonce]
  decide

/-- After an exchange with a prepared peer no string is missing. -/
theorem Prepared.not_incomplete {backend : CryptoBackend} {a b : ZCryptoContext}
    (ha : a.Prepared) (hb : b.Prepared) :
    ¬ (processServerKey backend b.localNonce b.localChallenge a).incomplete := by
  simp only [incomplete, processServerKey_serverNonce, processServerKey_serverChallenge,
    processServerKey_localNonce, processServerKey_localChallenge, ← List.length_eq_zero_iff,
    ha.nonce, ha.challenge, hb.nonce, hb.challenge]
  decide

end ZCryptoContext

/-- The run of the handshake: the client in `kConnecting` and a fresh server exchange hello,
server hello and proof, each received as it was sent; at its end the client is connected and
both contexts are authenticated under the same keys. -/
def HandshakeCompletes (backend : CryptoBackend) (env : Environment)
    (clientContext serverContext : ZCryptoContext) : Prop :=
  let client₀ := ZClient.connect ⟨.connecting, some clientContext, []⟩
  let server₀ : ZServer := ⟨.connected, some serverContext, ∅, []⟩
  ∃ hello, client₀.outgoing = [hello] ∧ ∀ p₁, Carries p₁ hello →
    let server₁ := server₀.processSystemMessage backend env p₁
    ∃ serverHello, server₁.outgoing = [serverHello] ∧ ∀ p₂, Carries p₂ serverHello →
      let client₁ := client₀.processSystemMessage backend p₂
      ∃ proof, client₁.outgoing = [hello, proof] ∧ ∀ p₃, Carries p₃ proof →
        let server₂ := server₁.processSystemMessage backend env p₃
        client₁.state = .connected ∧
        ∃ c s, client₁.cryptoContext = some c ∧ server₂.cryptoContext = some s ∧
          c.isAuthenticated = true ∧ s.isAuthenticated = true ∧
          c.encryptionKey = s.encryptionKey ∧ c.authenticationKey = s.authenticationKey

/-- The client's hello, the server's answer and the client's proof, between prepared contexts
with equal keys. -/
theorem handshake_of_prepared {backend : CryptoBackend} (sized : backend.Sized) {psk : Bytes}
    (hpsk : psk ≠ []) {a b : ZCryptoContext} (ha : a.Prepared) (hb : b.Prepared)
    (hencryption : a.encryptionKey = b.encryptionKey)
    (hauthentication : a.authenticationKey = b.authenticationKey) :
    HandshakeCompletes backend ⟨some psk⟩ a b := by
  have hkeyA : a.localNonce.length ≤ 65535 := by rw [ha.nonce]; decide
  have hkeyB : b.localNonce.length ≤ 65535 := by rw [hb.nonce]; decide
  have hchallengeA : a.localChallenge.length ≤ 255 := by rw [ha.challenge]; decide
  have hchallengeB : b.localChallenge.length ≤ 255 := by rw [hb.challenge]; decide
  -- the contexts after the exchange mirror each other, and no string is missing
  set a' := processServerKey backend b.localNonce b.localChallenge a
  set b' := processServerKey backend a.localNonce a.localChallenge b
  have hmirror : Mirror a' b' := mirror_processServerKey hencryption hauthentication
  have hcompleteA : ¬ a'.incomplete := ha.not_incomplete hb
  have hcompleteB : ¬ b'.incomplete := hb.not_incomplete ha
  set serverProof := proofOf backend b' b'.serverFirst
  set clientProof := proofOf backend a' a'.serverFirst
  have hserverProof : serverProof.length = 64 := length_proofOf sized ..
  have hclientProof : clientProof.length = 64 := length_proofOf sized ..
  have hserverNonempty : serverProof ≠ [] := by
    rw [← List.length_pos_iff, hserverProof]
    decide
  have hclientNonempty : clientProof ≠ [] := by
    rw [← List.length_pos_iff, hclientProof]
    decide
  unfold HandshakeCompletes
  intro client₀ server₀
  refine ⟨handshakePacket ZPeerId.toServer PacketType.clientHello
    (clientHelloData a.localNonce a.localChallenge), rfl, ?_⟩
  rintro p₁ ⟨htype₁, hdata₁⟩ server₁
  -- the server parses the hello and answers
  rw [heapData_handshakePacket _ _ (length_clientHelloData_lt hkeyA (by omega))] at hdata₁
  have hparse₁ : parseClientHello p₁.data = .ok (a.localNonce, a.localChallenge) := by
    rw [hdata₁, parseClientHello_clientHelloData hkeyA hchallengeA]
  have hanswer : ZServer.serverProof backend ⟨some psk⟩ (some b') = serverProof := by
    simp only [ZServer.serverProof, if_neg hpsk, generateServerProof, if_neg hcompleteB]
    rfl
  have hserver₁ : server₁ =
      ⟨.connected, some b', insert p₁.sourcePeerId ∅,
        [handshakePacket p₁.sourcePeerId PacketType.serverHello
          (serverHelloData b.localNonce b.localChallenge serverProof)]⟩ := by
    have hstep : server₁ = ZServer.sendServerHello backend ⟨some psk⟩ p₁.sourcePeerId
        ⟨.connected, some b', insert p₁.sourcePeerId ∅, []⟩ :=
      ZServer.processSystemMessage_clientHello _ _ htype₁ (Finset.notMem_empty _) rfl hparse₁
    rw [hstep, ZServer.sendServerHello, hanswer]
    simp [ZServer.push, publicKeyOf, challengeOf, getPublicKey, getChallenge, b']
  refine ⟨_, congrArg ZServer.outgoing hserver₁, ?_⟩
  rintro p₂ ⟨htype₂, hdata₂⟩ client₁
  -- the client parses it, verifies the proof and answers with its own
  rw [heapData_handshakePacket _ _ (length_serverHelloData_lt _ hkeyB (by omega))] at hdata₂
  have hparse₂ : parseServerHello p₂.data =
      .ok (b.localNonce, b.localChallenge, serverProof) := by
    rw [hdata₂, parseServerHello_serverHelloData hkeyB hchallengeB (by omega)]
  have hclient₁ : client₁ =
      ⟨.connected, some { a' with authenticated := true },
        [handshakePacket ZPeerId.toServer PacketType.clientHello
          (clientHelloData a.localNonce a.localChallenge),
         handshakePacket ZPeerId.toServer PacketType.clientAuthProof
          (clientAuthProofData clientProof)]⟩ := by
    have hgenerate : generateClientProof backend { a' with authenticated := true } =
        clientProof := if_neg hcompleteA
    have hstep : client₁ =
        ZClient.finishServerHello backend { a' with authenticated := true } client₀ :=
      ZClient.processSystemMessage_serverHello htype₂ rfl rfl hparse₂ hserverNonempty
        (hmirror.verifyServerResponse hcompleteA)
    rw [hstep, ZClient.finishServerHello]
    simp only [hgenerate, if_neg hclientNonempty]
    rfl
  refine ⟨_, congrArg ZClient.outgoing hclient₁, ?_⟩
  rintro p₃ ⟨htype₃, hdata₃⟩ server₂
  -- the server verifies the proof
  rw [heapData_handshakePacket _ _ (length_clientAuthProofData_lt (by omega))] at hdata₃
  have hparse₃ : parseClientAuthProof p₃.data = .ok clientProof := by
    rw [hdata₃, parseClientAuthProof_clientAuthProofData (by omega)]
  have hserver₂ : server₂.cryptoContext = some { b' with authenticated := true } := by
    have hstep : server₂.cryptoContext =
        some (ZCryptoContext.verifyClientProof backend clientProof b').2 := by
      simp only [server₂, hserver₁]
      exact congrArg ZServer.cryptoContext
        (ZServer.processSystemMessage_clientAuthProof htype₃ rfl hparse₃)
    rw [hstep, hmirror.symm.verifyClientProof hcompleteB]
  refine ⟨congrArg ZClient.state hclient₁, _, _, congrArg ZClient.cryptoContext hclient₁,
    hserver₂, rfl, rfl, hmirror.encryptionKey, hmirror.authenticationKey⟩

/-- Handshake completeness: each message, received as sent, leads to the next, and at the end
both sides are authenticated under equal keys. -/
theorem handshake_completes {backend : CryptoBackend} (sized : backend.Sized) {psk : Bytes}
    (hpsk : 16 ≤ psk.length) (clientNonce serverNonce : List.Vector UInt8 32)
    (clientChallenge serverChallenge : List.Vector UInt8 16)
    {clientContext serverContext : ZCryptoContext}
    (hclient : initializeKeyExchange backend ⟨some psk⟩ (some clientNonce)
      (some clientChallenge) fresh = (true, clientContext))
    (hserver : initializeKeyExchange backend ⟨some psk⟩ (some serverNonce)
      (some serverChallenge) fresh = (true, serverContext)) :
    HandshakeCompletes backend ⟨some psk⟩ clientContext serverContext := by
  rw [initializeKeyExchange_fresh hpsk] at hclient hserver
  obtain rfl := (Prod.mk.inj hclient).2
  obtain rfl := (Prod.mk.inj hserver).2
  have hne : psk ≠ [] := List.length_pos_iff.mp (by omega)
  exact handshake_of_prepared sized hne (prepared_initialized ..) (prepared_initialized ..)
    rfl rfl

theorem handshake_completes_sumBackend :
    HandshakeCompletes sumBackend ⟨some (List.replicate 16 115)⟩
      (initialized sumBackend (List.replicate 16 115)
        (bytesToHex (List.replicate 32 1)) (bytesToHex (List.replicate 16 2)))
      (initialized sumBackend (List.replicate 16 115)
        (bytesToHex (List.replicate 32 3)) (bytesToHex (List.replicate 16 4))) :=
  handshake_completes sumBackend_sized (by decide) (List.Vector.replicate 32 1)
    (List.Vector.replicate 32 3) (List.Vector.replicate 16 2) (List.Vector.replicate 16 4)
    (initializeKeyExchange_fresh (by decide) _ _) (initializeKeyExchange_fresh (by decide) _ _)

end ZetaNet
