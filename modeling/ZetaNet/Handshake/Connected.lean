import ZetaNet.Handshake.Endpoints
import ZetaNet.Lib.Machine

/-!
# Connected without a proof

A client with a crypto context, any system packets, and the application connecting and
disconnecting in between. The client verifies the proof a server hello carries, and takes a
hello without one as it is: being connected means being authenticated exactly as long as no
such hello comes while the client is connecting.
-/

namespace ZetaNet

open ZCryptoContext

namespace ZClient

/-- What happens to a client: a packet polled from the control queue, `Connect` with encryption
enabled, `Disconnect`. -/
inductive Event
  | packet (p : IncomingPacket)
  /-- whether socket and threads start, and what `RandomBytes` yields -/
  | connect (socketOk threadsOk : Bool) (localNonce : Option (List.Vector UInt8 32))
      (localChallenge : Option (List.Vector UInt8 16))
  | disconnect

variable (backend : CryptoBackend) (env : Environment)

/-- `Connect` with `ZAsyncTransportLayer::Init`: the context is a new one. -/
def init (socketOk threadsOk : Bool) (localNonce : Option (List.Vector UInt8 32))
    (localChallenge : Option (List.Vector UInt8 16)) (client : ZClient) : ZClient :=
  if socketOk = false then { client with state := .disconnected }
  else
    let (ready, context) := initializeKeyExchange backend env localNonce localChallenge fresh
    let client := { client with cryptoContext := some context }
    if ready = false ∨ threadsOk = false then { client with state := .disconnected }
    else client.connect

def machine : Machine ZClient Event where
  step client
    | .packet p => some (client.processSystemMessage backend p)
    | .connect socketOk threadsOk localNonce localChallenge =>
        some (client.init backend env socketOk threadsOk localNonce localChallenge)
    | .disconnect => some client.disconnect

/-- A connected client has verified a server's proof. -/
def Trusts (client : ZClient) : Prop :=
  client.state = .connected →
    ∃ context, client.cryptoContext = some context ∧ context.isAuthenticated = true

/-- A well-formed server hello whose proof is left out or empty, while the client connects. -/
def Unproved (client : ZClient) : Event → Prop
  | .packet p =>
      p.type = PacketType.serverHello ∧ client.state = .connecting ∧
        ∃ key challenge, parseServerHello p.data = .ok (key, challenge, [])
  | _ => False

/-- Encryption is on, and a client that is still connecting has verified nothing. -/
structure Unverified (client : ZClient) (context : ZCryptoContext) : Prop where
  cryptoContext : client.cryptoContext = some context
  connecting : client.state = .connecting → context.authenticated = false

variable {backend env} {client client' : ZClient} {context context' : ZCryptoContext}

variable (backend env) in
theorem authenticated_initializeKeyExchange (localNonce : Option (List.Vector UInt8 32))
    (localChallenge : Option (List.Vector UInt8 16)) :
    (initializeKeyExchange backend env localNonce localChallenge fresh).2.authenticated =
      false := by
  have hready : (ensureKeyMaterialReady backend env fresh).2.authenticated = false := by
    unfold ensureKeyMaterialReady
    repeat' split
    all_goals rfl
  unfold initializeKeyExchange
  rcases hresult : ensureKeyMaterialReady backend env fresh with ⟨ready, context⟩
  rw [hresult] at hready
  cases ready <;> cases localNonce <;> cases localChallenge <;> exact hready

theorem authenticated_of_verifyServerResponse {proof : Bytes}
    (h : verifyServerResponse backend proof context = (true, context')) :
    context'.authenticated = true := by
  unfold verifyServerResponse at h
  split at h
  · cases h
  · split at h
    · cases h
    · rw [← (Prod.mk.inj h).2]

variable (backend) in
theorem finishServerHello_cryptoContext (context : ZCryptoContext) (client : ZClient) :
    (finishServerHello backend context client).cryptoContext = some context := by
  unfold finishServerHello
  dsimp only
  split <;> rfl

variable (backend) in
/-- What a well-formed server hello makes of a connecting client. -/
theorem serverHello_cases (hcontext : client.cryptoContext = some context)
    (hstate : client.state = .connecting) {p : IncomingPacket}
    (htype : p.type = PacketType.serverHello) {key challenge proof : Bytes}
    (hparse : parseServerHello p.data = .ok (key, challenge, proof)) :
    let exchanged := processServerKey backend key challenge context
    (proof = [] ∧
      client.processSystemMessage backend p = finishServerHello backend exchanged client) ∨
    (proof ≠ [] ∧ ∃ context',
      client.processSystemMessage backend p =
        disconnect { client with cryptoContext := some context' }) ∨
    (proof ≠ [] ∧ ∃ context', verifyServerResponse backend proof exchanged = (true, context') ∧
      client.processSystemMessage backend p = finishServerHello backend context' client) := by
  unfold processSystemMessage
  rw [if_pos htype, if_neg (not_not_intro hstate), hparse]
  simp only [hcontext]
  by_cases hproof : proof = []
  · exact .inl ⟨hproof, if_pos hproof⟩
  right
  rw [if_neg hproof]
  rcases hverify : verifyServerResponse backend proof
    (processServerKey backend key challenge context) with ⟨verified, context'⟩
  cases verified with
  | false => exact .inl ⟨hproof, context', rfl⟩
  | true => exact .inr ⟨hproof, context', rfl, rfl⟩

/-- A packet that changes nothing. -/
theorem trusts_ignored {e : Event} (hclient : client.Unverified context) (htrusts : client.Trusts)
    (hsame : client' = client) (hproved : ¬ client.Unproved e) :
    (∃ context', client'.Unverified context') ∧ (client'.Trusts ↔ ¬ client.Unproved e) := by
  rw [hsame]
  exact ⟨⟨context, hclient⟩, iff_of_true htrusts hproved⟩

/-- A system packet keeps the trust exactly if it is no hello without a proof. -/
theorem trusts_processSystemMessage (hclient : client.Unverified context) (htrusts : client.Trusts)
    (p : IncomingPacket) :
    (∃ context', (client.processSystemMessage backend p).Unverified context') ∧
      ((client.processSystemMessage backend p).Trusts ↔ ¬ client.Unproved (.packet p)) := by
  by_cases hstate : client.state = .connecting
  swap
  · exact trusts_ignored hclient htrusts (processSystemMessage_ignored hstate p)
      fun h => hstate h.2.1
  by_cases htype : p.type = PacketType.serverHello
  swap
  · exact trusts_ignored hclient htrusts (if_neg htype) fun h => htype h.1
  rcases hparse : parseServerHello p.data with e | ⟨key, challenge, proof⟩
  · refine trusts_ignored hclient htrusts ?_ fun ⟨_, _, _, _, hok⟩ => ?_
    · unfold processSystemMessage
      rw [if_pos htype, if_neg (not_not_intro hstate), hparse]
    · rw [hparse] at hok
      cases hok
  have hproved (hproof : proof ≠ []) : ¬ client.Unproved (.packet p) := by
    rintro ⟨_, _, _, _, hok⟩
    rw [hparse] at hok
    exact hproof (congrArg (·.2.2) (Except.ok.inj hok))
  rcases serverHello_cases backend hclient.cryptoContext hstate htype hparse with
      ⟨hproof, hresult⟩ | ⟨hproof, context', hresult⟩ | ⟨hproof, context', hverify, hresult⟩ <;>
    rw [hresult]
  · -- connected, and nothing was verified
    have hcontext := finishServerHello_cryptoContext backend
      (processServerKey backend key challenge context) client
    refine ⟨⟨_, hcontext, fun hconnecting => ?_⟩, iff_of_false (fun h => ?_) (not_not_intro ?_)⟩
    · cases hconnecting
    · obtain ⟨found, hfound, hauthenticated⟩ := h rfl
      rw [hcontext] at hfound
      rw [← Option.some.inj hfound, isAuthenticated, processServerKey_authenticated,
        hclient.connecting hstate] at hauthenticated
      cases hauthenticated
    · exact ⟨htype, hstate, key, challenge, by rw [hparse, hproof]⟩
  · exact ⟨⟨context', rfl, fun hconnecting => by cases hconnecting⟩,
      iff_of_true (fun hconnected => by cases hconnected) (hproved hproof)⟩
  · have hcontext := finishServerHello_cryptoContext backend context' client
    have hauthenticated := authenticated_of_verifyServerResponse hverify
    exact ⟨⟨context', hcontext, fun hconnecting => by cases hconnecting⟩,
      iff_of_true (fun _ => ⟨context', hcontext, hauthenticated⟩) (hproved hproof)⟩

/-- `Connect` and `Disconnect` leave no connected client. -/
theorem trusts_init (hclient : client.Unverified context) (socketOk threadsOk : Bool)
    (localNonce : Option (List.Vector UInt8 32)) (localChallenge : Option (List.Vector UInt8 16)) :
    (∃ context',
      (client.init backend env socketOk threadsOk localNonce localChallenge).Unverified context') ∧
      (client.init backend env socketOk threadsOk localNonce localChallenge).Trusts := by
  have hfresh := authenticated_initializeKeyExchange backend env localNonce localChallenge
  unfold init
  split
  · exact ⟨⟨context, hclient.cryptoContext, fun h => by cases h⟩, fun h => by cases h⟩
  · dsimp only
    split
    · exact ⟨⟨_, rfl, fun h => by cases h⟩, fun h => by cases h⟩
    · exact ⟨⟨_, rfl, fun _ => hfresh⟩, fun h => by cases h⟩

/-- A client with a crypto context is connected to authenticated servers only, in every state it
goes through, exactly if no hello without a proof came while it was connecting. -/
theorem connected_authenticated_iff (hcontext : client.cryptoContext = some context)
    (hconnecting : client.state = .connecting → context.authenticated = false)
    (hstart : client.Trusts) {events : List Event}
    (hexec : (machine backend env).exec client events = some client') :
    (machine backend env).Always Trusts client events ↔
      (machine backend env).Along (fun client e => ¬ client.Unproved e) client events := by
  have preserved (client : ZClient) (e : Event) (client' : ZClient)
      (hinv : ∃ context, client.Unverified context) (htrusts : client.Trusts)
      (hstep : (machine backend env).step client e = some client') :
      (∃ context, client'.Unverified context) ∧ (client'.Trusts ↔ ¬ client.Unproved e) := by
    obtain ⟨context, hclient⟩ := hinv
    cases e with
    | packet p =>
        obtain rfl := Option.some.inj hstep
        exact trusts_processSystemMessage hclient htrusts p
    | connect socketOk threadsOk localNonce localChallenge =>
        obtain rfl := Option.some.inj hstep
        obtain ⟨hunverified, htrusts⟩ := trusts_init hclient socketOk threadsOk localNonce
          localChallenge
        exact ⟨hunverified, iff_of_true htrusts id⟩
    | disconnect =>
        obtain rfl := Option.some.inj hstep
        exact ⟨⟨context, hclient.cryptoContext, fun h => by cases h⟩,
          iff_of_true (fun h => by cases h) id⟩
  exact Machine.always_iff_along preserved ⟨context, hcontext, hconnecting⟩ hstart hexec

/-- A client that has just called `Connect`. -/
def sampleClient : ZClient :=
  ZClient.init sumBackend ⟨some (List.replicate 16 115)⟩ true true
    (some (List.Vector.replicate 32 1)) (some (List.Vector.replicate 16 2))
    ⟨.disconnected, none, []⟩

/-- A server hello from anyone, with key and challenge of one byte and no proof. -/
def sampleHello : IncomingPacket where
  channel := .control
  flags := handshakeFlags
  type := PacketType.serverHello
  sourcePeerId := 0
  acknowledgementNumber := 0
  sequenceNumber := 0
  data := serverHelloData [7] [8] []

/-- The client takes it, and is connected without having verified anything. -/
theorem connected_unauthenticated :
    sampleClient.state = .connecting ∧
      (sampleClient.cryptoContext.map isAuthenticated) = some false ∧
      ((machine sumBackend ⟨some (List.replicate 16 115)⟩).exec sampleClient
        [.packet sampleHello]).map (fun client =>
          (client.state, client.cryptoContext.map isAuthenticated)) =
        some (.connected, some false) := by
  decide +kernel

theorem connected_authenticated_iff_sampleClient :
    ¬ (machine sumBackend ⟨some (List.replicate 16 115)⟩).Always Trusts sampleClient
      [.packet sampleHello] := by
  have hstate : sampleClient.state = .connecting := by decide +kernel
  have hfresh : sampleClient.cryptoContext.map isAuthenticated = some false := by decide +kernel
  obtain ⟨context, hcontext, hauthenticated⟩ := Option.map_eq_some_iff.mp hfresh
  have hparse : parseServerHello sampleHello.data = .ok ([7], [8], []) :=
    parseServerHello_serverHelloData (by decide) (by decide) (by decide)
  rw [connected_authenticated_iff hcontext (fun _ => hauthenticated)
    (fun hconnected => by rw [hstate] at hconnected; cases hconnected) rfl]
  exact fun halong => halong.1 ⟨rfl, hstate, [7], [8], hparse⟩

end ZClient

end ZetaNet
