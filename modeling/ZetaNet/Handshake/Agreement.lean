import ZetaNet.Handshake.Completeness
import ZetaNet.Lib.Machine

/-!
# Many clients, one server

Clients at distinct peer ids handshake with one server over a network that delivers any
message sent, any number of times, in any order. The server has one context for all of
them and derives its keys anew for every fresh hello, so the keys of a client it served
before are lost. As long as the hellos it takes come from one client, they agree.
-/

namespace ZetaNet

open ZCryptoContext

/-- The two sides of the handshake, with one client for every `ι`. -/
structure Handshake (ι : Type) where
  server : ZServer
  client : ι → ZClient

/-- A delivery: the `k`-th message client `i` has sent, or the `k`-th the server has sent, to
client `i` it is addressed to. -/
inductive HandshakeEvent (ι : Type)
  | toServer (i : ι) (k : Nat)
  | toClient (i : ι) (k : Nat)
  deriving DecidableEq

namespace Handshake

variable {ι : Type} [DecidableEq ι] (backend : CryptoBackend) (env : Environment)
  (peer : ι → UInt32)

/-- The server starts fresh with `serverContext`, every client has sent its hello. -/
def start (serverContext : ZCryptoContext) (clientContext : ι → ZCryptoContext) :
    Handshake ι where
  server := ⟨.connected, some serverContext, ∅, []⟩
  client i := ZClient.connect ⟨.connecting, some (clientContext i), []⟩

/-- `peer i` is the id the server knows client `i` by. -/
def machine : Machine (Handshake ι) (HandshakeEvent ι) where
  step s
    | .toServer i k =>
        (s.client i).outgoing[k]?.map fun packet =>
          { s with server := s.server.processSystemMessage backend env (packet.received (peer i)) }
    | .toClient i k =>
        s.server.outgoing[k]?.bind fun packet =>
          if packet.destinationPeerId = peer i then
            let client := (s.client i).processSystemMessage backend (packet.received 0)
            some { s with client := Function.update s.client i client }
          else none

/-- Every client that has authenticated the server holds the server's encryption key. -/
def KeysAgree (s : Handshake ι) : Prop :=
  ∀ i c b, (s.client i).cryptoContext = some c → c.authenticated = true →
    s.server.cryptoContext = some b → c.encryptionKey = b.encryptionKey

/-- A hello reaches the server only while no other client has a handshake there. -/
def OneClient (s : Handshake ι) : HandshakeEvent ι → Prop
  | .toServer i k =>
      ∀ packet, (s.client i).outgoing[k]? = some packet →
        packet.type = PacketType.clientHello → s.server.handshakedPeers ⊆ {peer i}
  | .toClient _ _ => True

/-! ## The invariant -/

/-- The hello of a client. -/
def helloOf (context : ZCryptoContext) : OutgoingPacket :=
  handshakePacket ZPeerId.toServer PacketType.clientHello
    (clientHelloData context.localNonce context.localChallenge)

/-- The server's answer to one client. -/
def answerTo (peerId : UInt32) (context : ZCryptoContext) (proof : Bytes) : OutgoingPacket :=
  handshakePacket peerId PacketType.serverHello
    (serverHelloData context.localNonce context.localChallenge proof)

/-- A client has sent nothing but its hello and proofs, and is either still connecting from its
initial context or holds the key of an exchange with the server `b`. -/
structure ClientOk (b a : ZCryptoContext) (client : ZClient) : Prop where
  sent : ∀ packet ∈ client.outgoing,
    packet = helloOf a ∨ packet.type = PacketType.clientAuthProof
  key : (client.state = .connecting ∧ client.cryptoContext = some a) ∨
    (client.state ≠ .connecting ∧ ∃ c, client.cryptoContext = some c ∧
      c.encryptionKey = (processServerKey backend b.localNonce b.localChallenge a).encryptionKey)

/-- The server before any hello, or after the hellos of client `i` alone. -/
inductive ServerOk (b : ZCryptoContext) (a : ι → ZCryptoContext) (s : Handshake ι) : Prop
  | idle
      (hserver : s.server = ⟨.connected, some b, ∅, []⟩)
      (hclients : ∀ j, (s.client j).state = .connecting)
  | serving (i : ι) (c : ZCryptoContext) (proof : Bytes)
      (hkey : c.encryptionKey =
        (processServerKey backend (a i).localNonce (a i).localChallenge b).encryptionKey)
      (hserver : s.server = ⟨.connected, some c, {peer i}, [answerTo (peer i) b proof]⟩)
      (hclients : ∀ j, j ≠ i → (s.client j).state = .connecting)

structure Inv (b : ZCryptoContext) (a : ι → ZCryptoContext) (s : Handshake ι) : Prop where
  client : ∀ i, ClientOk backend b (a i) (s.client i)
  server : ServerOk backend peer b a s

variable {backend env peer}

omit [DecidableEq ι] in
theorem inv_start {b : ZCryptoContext} {a : ι → ZCryptoContext} :
    Inv backend peer b a (start b a) where
  client _ :=
    { sent := fun _ hpacket => .inl (List.mem_singleton.mp hpacket)
      key := .inl ⟨rfl, rfl⟩ }
  server := .idle rfl fun _ => rfl

/-- The server's view of a hello as the client sent it. -/
theorem parseClientHello_helloOf {a : ZCryptoContext} (ha : a.Prepared) (source : UInt32) :
    parseClientHello ((helloOf a).received source).data =
      .ok (a.localNonce, a.localChallenge) := by
  have hkey : a.localNonce.length ≤ 65535 := by rw [ha.nonce]; decide
  have hchallenge : a.localChallenge.length ≤ 255 := by rw [ha.challenge]; decide
  have hdata : ((helloOf a).received source).data =
      clientHelloData a.localNonce a.localChallenge :=
    heapData_handshakePacket ZPeerId.toServer PacketType.clientHello
      (length_clientHelloData_lt hkey (by omega))
  rw [hdata, parseClientHello_clientHelloData hkey hchallenge]

/-- The client's view of the server's answer: whatever the proof, the keys are the server's. -/
theorem parseServerHello_answerTo {b : ZCryptoContext} (hb : b.Prepared)
    {peerId source : UInt32} {proof key challenge proof' : Bytes}
    (h : parseServerHello ((answerTo peerId b proof).received source).data =
      .ok (key, challenge, proof')) : key = b.localNonce ∧ challenge = b.localChallenge := by
  have hkey : b.localNonce.length ≤ 65535 := by rw [hb.nonce]; decide
  have hchallenge : b.localChallenge.length ≤ 255 := by rw [hb.challenge]; decide
  have hdata : ((answerTo peerId b proof).received source).data =
      serverHelloData b.localNonce b.localChallenge proof :=
    heapData_handshakePacket peerId PacketType.serverHello
      (length_serverHelloData_lt proof hkey (by omega))
  rw [hdata] at h
  exact parseServerHello_serverHelloData_keys hkey hchallenge h

omit [DecidableEq ι] in
/-- A message from client `i` to the server. -/
theorem inv_toServer {b : ZCryptoContext} {a : ι → ZCryptoContext}
    (hb : b.Prepared) (ha : ∀ i, (a i).Prepared) {s : Handshake ι} {i : ι}
    {packet : OutgoingPacket} (hinv : Inv backend peer b a s)
    (hpacket : packet ∈ (s.client i).outgoing)
    (hone : packet.type = PacketType.clientHello → s.server.handshakedPeers ⊆ {peer i}) :
    Inv backend peer b a
      { s with
        server := s.server.processSystemMessage backend env (packet.received (peer i)) } := by
  refine ⟨hinv.client, ?_⟩
  rcases (hinv.client i).sent packet hpacket with rfl | hproof
  · -- the hello: served if the server is idle, else a repetition
    cases hinv.server with
    | idle hserver hclients =>
        refine .serving i (processServerKey backend (a i).localNonce (a i).localChallenge b)
          (ZServer.serverProof backend env
            (some (processServerKey backend (a i).localNonce (a i).localChallenge b)))
          rfl ?_ fun j _ => hclients j
        have hfresh : ((helloOf (a i)).received (peer i)).sourcePeerId ∉
            s.server.handshakedPeers := by
          rw [hserver]
          exact Finset.notMem_empty _
        have hstep := ZServer.processSystemMessage_clientHello backend env rfl hfresh
          (congrArg ZServer.cryptoContext hserver) (parseClientHello_helloOf (ha i) (peer i))
        refine hstep.trans ?_
        rw [hserver, ZServer.sendServerHello]
        simp [ZServer.push, publicKeyOf, challengeOf, getPublicKey, getChallenge, answerTo,
          OutgoingPacket.received]
    | serving i₀ c proof hkey hserver hclients =>
        have hsame : peer i ∈ s.server.handshakedPeers := by
          have hsubset := hone rfl
          rw [hserver, Finset.singleton_subset_iff, Finset.mem_singleton] at hsubset
          rw [hserver]
          exact Finset.mem_singleton.mpr hsubset.symm
        rw [ZServer.processSystemMessage_duplicate rfl hsame]
        exact hinv.server
  · -- a proof: the context keeps its keys
    have hkeep {c : ZCryptoContext} (hc : s.server.cryptoContext = some c) :
        s.server.processSystemMessage backend env (packet.received (peer i)) = s.server ∨
        ∃ proof, s.server.processSystemMessage backend env (packet.received (peer i)) =
          { s.server with cryptoContext := some (verifyClientProof backend proof c).2 } := by
      rcases ZServer.processSystemMessage_cases backend env hc with
        hsame | ⟨htype, -⟩ | ⟨-, proof, -, hverify⟩
      · exact .inl hsame
      · exact absurd (htype.symm.trans hproof) (by decide)
      · exact .inr ⟨proof, hverify⟩
    cases hinv.server with
    | idle hserver hclients =>
        refine .idle ?_ hclients
        rcases hkeep (congrArg ZServer.cryptoContext hserver) with hsame | ⟨proof, hverify⟩
        · exact hsame.trans hserver
        · -- the server knows no other side yet
          have hfails : (verifyClientProof backend proof b).2 = b := by
            rw [verifyClientProof, if_pos (.inl hb.serverNonce)]
          simp only [hverify]
          rw [hserver, hfails]
    | serving i₀ c sent hkey hserver hclients =>
        rcases hkeep (congrArg ZServer.cryptoContext hserver) with hsame | ⟨proof, hverify⟩
        · exact .serving i₀ c sent hkey (hsame.trans hserver) hclients
        · refine .serving i₀ (verifyClientProof backend proof c).2 sent ?_
            (by simp only [hverify]; rw [hserver]) hclients
          rcases verifyClientProof_snd backend proof c with h | h <;> rw [h]
          · exact hkey
          · exact hkey

/-- A message from the server to client `i`. -/
theorem inv_toClient (hpeer : Function.Injective peer) {b : ZCryptoContext}
    {a : ι → ZCryptoContext} (hb : b.Prepared) {s : Handshake ι} {i : ι}
    {packet : OutgoingPacket} (hinv : Inv backend peer b a s)
    (hpacket : packet ∈ s.server.outgoing) (hdestination : packet.destinationPeerId = peer i) :
    Inv backend peer b a
      { s with client := Function.update s.client i
                ((s.client i).processSystemMessage backend (packet.received 0)) } := by
  cases hinv.server with
  | idle hserver hclients =>
      rw [hserver] at hpacket
      cases hpacket
  | serving i₀ c proof hkey hserver hclients =>
      rw [hserver, List.mem_singleton] at hpacket
      subst hpacket
      -- the one answer of the server goes to the client it serves
      obtain rfl : i₀ = i := hpeer hdestination
      have hexchange : ClientOk backend b (a i₀)
          ((s.client i₀).processSystemMessage backend
            ((answerTo (peer i₀) b proof).received 0)) := by
        have hclient := hinv.client i₀
        rcases hclient.key with ⟨hstate, hcontext⟩ | ⟨hstate, -⟩
        -- a client that is still connecting takes it, and mirrors the server's key
        · rcases ZClient.processSystemMessage_cases backend hcontext with
            hsame | ⟨-, -, key, challenge, proof', context', hparse, hcontext', hexchanged⟩
          · rw [hsame]
            exact hclient
          · obtain ⟨rfl, rfl⟩ := parseServerHello_answerTo hb hparse
            refine ⟨fun packet hpacket => ?_, .inr ⟨hexchanged.state, context',
              hexchanged.cryptoContext, ?_⟩⟩
            · rcases hexchanged.outgoing packet hpacket with hold | hnew
              · exact hclient.sent packet hold
              · exact .inr hnew
            · rcases hcontext' with rfl | rfl <;> rfl
        · rw [ZClient.processSystemMessage_ignored hstate]
          exact hclient
      refine ⟨fun j => ?_, .serving i₀ c proof hkey hserver fun j hj => ?_⟩
      · rcases eq_or_ne j i₀ with rfl | hj
        · simpa using hexchange
        · simpa [hj] using hinv.client j
      · simpa [hj] using hclients j hj

/-- The invariant gives the agreement. -/
theorem keysAgree_of_inv {b : ZCryptoContext} {a : ι → ZCryptoContext}
    (ha : ∀ i, (a i).Prepared) (hkeys : ∀ i, (a i).encryptionKey = b.encryptionKey)
    (hauthentication : ∀ i, (a i).authenticationKey = b.authenticationKey)
    {s : Handshake ι} (hinv : Inv backend peer b a s) : s.KeysAgree := by
  intro i c c' hclient hauthenticated hserver
  -- a client that is still connecting has not authenticated anyone
  have hconnecting : (s.client i).state ≠ .connecting := by
    intro hstate
    rcases (hinv.client i).key with ⟨-, hcontext⟩ | ⟨hne, -⟩
    · rw [hclient] at hcontext
      obtain rfl := Option.some.inj hcontext
      rw [(ha i).authenticated] at hauthenticated
      cases hauthenticated
    · exact hne hstate
  rcases (hinv.client i).key with ⟨hstate, -⟩ | ⟨-, d, hd, hkey⟩
  · exact absurd hstate hconnecting
  rw [hclient] at hd
  obtain rfl := Option.some.inj hd
  cases hinv.server with
  | idle hidle hclients => exact absurd (hclients i) hconnecting
  | serving i₀ e proof hserverKey hserving hclients =>
      obtain rfl : i = i₀ := by
        by_contra hne
        exact hconnecting (hclients i hne)
      rw [hserving] at hserver
      obtain rfl := Option.some.inj hserver
      rw [hkey, hserverKey]
      exact (mirror_processServerKey (hkeys i) (hauthentication i)).encryptionKey

/-- While the server takes hellos from one client only, every client that has authenticated
the server holds the server's key, at every point of the run. -/
theorem keysAgree_of_oneClient (hpeer : Function.Injective peer) {psk : Bytes}
    (hpsk : 16 ≤ psk.length) (serverNonce : List.Vector UInt8 32)
    (serverChallenge : List.Vector UInt8 16) (clientNonce : ι → List.Vector UInt8 32)
    (clientChallenge : ι → List.Vector UInt8 16) {serverContext : ZCryptoContext}
    {clientContext : ι → ZCryptoContext}
    (hserver : initializeKeyExchange backend ⟨some psk⟩ (some serverNonce)
      (some serverChallenge) fresh = (true, serverContext))
    (hclient : ∀ i, initializeKeyExchange backend ⟨some psk⟩ (some (clientNonce i))
      (some (clientChallenge i)) fresh = (true, clientContext i))
    {events : List (HandshakeEvent ι)} {s : Handshake ι}
    (hone : (machine backend ⟨some psk⟩ peer).Along (OneClient peer)
      (start serverContext clientContext) events)
    (hexec : (machine backend ⟨some psk⟩ peer).exec (start serverContext clientContext) events =
      some s) : s.KeysAgree := by
  rw [initializeKeyExchange_fresh hpsk] at hserver
  obtain rfl := (Prod.mk.inj hserver).2
  -- all contexts come from one pre-shared key
  have hcontext (i : ι) : clientContext i = initialized backend psk
      (bytesToHex (clientNonce i).toList) (bytesToHex (clientChallenge i).toList) := by
    have h := hclient i
    rw [initializeKeyExchange_fresh hpsk] at h
    exact (Prod.mk.inj h).2.symm
  have hb := prepared_initialized backend psk serverNonce serverChallenge
  have ha (i : ι) : (clientContext i).Prepared := by
    rw [hcontext i]
    exact prepared_initialized ..
  suffices hinv : Inv backend peer (initialized backend psk (bytesToHex serverNonce.toList)
      (bytesToHex serverChallenge.toList)) clientContext s from
    keysAgree_of_inv ha (fun i => by rw [hcontext i]; rfl) (fun i => by rw [hcontext i]; rfl) hinv
  refine Machine.invariant_of_along ?_ inv_start hone hexec
  intro s e s' hinv hcondition hstep
  cases e with
  | toServer i k =>
      obtain ⟨packet, hpacket, rfl⟩ := Option.map_eq_some_iff.mp hstep
      exact inv_toServer hb ha hinv (List.mem_of_getElem? hpacket) (hcondition packet hpacket)
  | toClient i k =>
      obtain ⟨packet, hpacket, hupdate⟩ := Option.bind_eq_some_iff.mp hstep
      split at hupdate
      · rename_i hdestination
        obtain rfl := Option.some.inj hupdate
        exact inv_toClient hpeer hb hinv (List.mem_of_getElem? hpacket) hdestination
      · cases hupdate

/-! ## Two clients -/

instance (s : Handshake ι) (e : HandshakeEvent ι) : Decidable (OneClient peer s e) :=
  match e with
  | .toServer i k =>
      inferInstanceAs (Decidable (∀ packet ∈ (s.client i).outgoing[k]?,
        packet.type = PacketType.clientHello → s.server.handshakedPeers ⊆ {peer i}))
  | .toClient _ _ => isTrue trivial

/-- The context of a side with the nonce of `n`s and the challenge of `c`s. -/
def contextOf (n c : UInt8) : ZCryptoContext :=
  initialized framedBackend (List.replicate 16 115)
    (bytesToHex (List.Vector.replicate 32 n).toList)
    (bytesToHex (List.Vector.replicate 16 c).toList)

/-- Two clients with the server's key. -/
def duoStart : Handshake Bool := start (contextOf 3 4) fun i => contextOf (if i then 1 else 5) 2

def duoPeer (i : Bool) : UInt32 := if i then 8 else 7

/-- The first client says hello, its hello comes twice, and it finishes with the server. -/
def firstServed : List (HandshakeEvent Bool) :=
  [.toServer false 0, .toServer false 0, .toClient false 0, .toServer false 1]

/-- Both sides are authenticated under one key while the second client waits. -/
theorem keysAgree_of_oneClient_duo :
    ∃ s : Handshake Bool,
      (machine framedBackend ⟨some (List.replicate 16 115)⟩ duoPeer).exec duoStart firstServed =
        some s ∧
      (s.client false).cryptoContext.any isAuthenticated = true ∧
      s.server.cryptoContext.any isAuthenticated = true ∧
      (s.client true).state = .connecting ∧ s.KeysAgree := by
  have hrun : ((machine framedBackend ⟨some (List.replicate 16 115)⟩ duoPeer).exec duoStart
      firstServed).map (fun s => ((s.client false).cryptoContext.any isAuthenticated,
        s.server.cryptoContext.any isAuthenticated, (s.client true).state)) =
        some (true, true, .connecting) := by decide +kernel
  obtain ⟨s, hexec, hfacts⟩ := Option.map_eq_some_iff.mp hrun
  obtain ⟨hclient, hfacts⟩ := Prod.mk.inj hfacts
  obtain ⟨hserver, hwaits⟩ := Prod.mk.inj hfacts
  have hone : (machine framedBackend ⟨some (List.replicate 16 115)⟩ duoPeer).Along
      (OneClient duoPeer) duoStart firstServed := by decide +kernel
  have hcontext (n c : UInt8) : initializeKeyExchange framedBackend
      ⟨some (List.replicate 16 115)⟩ (some (List.Vector.replicate 32 n))
      (some (List.Vector.replicate 16 c)) fresh = (true, contextOf n c) :=
    initializeKeyExchange_fresh (by decide) _ _
  have hpeer : Function.Injective duoPeer := by decide
  have hagree : s.KeysAgree := keysAgree_of_oneClient hpeer (by decide) _ _ _ _ (hcontext 3 4)
    (fun i => hcontext (if i then 1 else 5) 2) hone hexec
  exact ⟨s, hexec, hclient, hserver, hwaits, hagree⟩

/-- Client `i` has authenticated the server under a key the server no longer holds. -/
def strayed {ι : Type} (i : ι) (s : Handshake ι) : Bool :=
  match (s.client i).cryptoContext, s.server.cryptoContext with
  | some c, some b => c.authenticated && c.encryptionKey != b.encryptionKey
  | _, _ => false

theorem not_keysAgree_of_strayed {ι : Type} {i : ι} {s : Handshake ι} (h : strayed i s = true) :
    ¬ s.KeysAgree := by
  intro hagree
  unfold strayed at h
  split at h
  · rename_i c b hc hb
    rw [Bool.and_eq_true, bne_iff_ne] at h
    exact h.2 (hagree i c b hc h.1 hb)
  · cases h

/-- The first client finishes with the server, then a second client's hello arrives. -/
def duoEvents : List (HandshakeEvent Bool) :=
  [.toServer false 0, .toClient false 0, .toServer false 1, .toServer true 0]

/-- Under injective hash functions, the second hello leaves the first client with a key the
server has given up. -/
theorem keysAgree_fails_for_second_client :
    Function.Injective framedBackend.sha256 ∧
    (∀ key key' data data', framedBackend.hmacSha256 key data =
      framedBackend.hmacSha256 key' data' → key = key' ∧ data = data') ∧
    ∃ s : Handshake Bool,
      (machine framedBackend ⟨some (List.replicate 16 115)⟩ duoPeer).exec duoStart duoEvents =
        some s ∧
      ¬ s.KeysAgree := by
  refine ⟨framedBackend_sha256_injective,
    fun _ _ _ _ => framedBackend_hmacSha256_injective, ?_⟩
  have hrun : ((machine framedBackend ⟨some (List.replicate 16 115)⟩ duoPeer).exec duoStart
      duoEvents).any (strayed false) = true := by decide +kernel
  obtain ⟨s, hexec, hstrayed⟩ := (Option.any_eq_true _ _).mp hrun
  exact ⟨s, hexec, not_keysAgree_of_strayed hstrayed⟩

end Handshake
end ZetaNet
