import ZetaNet.Handshake.Endpoints
import ZetaNet.Handshake.Reading

/-!
# The handshake handlers as programs

`ProcessSystemMessage` of `ZServer` and `ZClient` statement by statement, as a handler over the
whole endpoint: it leaves at an exit with the state as it is there. All reads of a message come
before the first change, so a malformed message changes nothing, and a hello that the other
side wrote is read to its end.
-/

namespace ZetaNet

open Checks ZCryptoContext

namespace ZServer

variable (backend : CryptoBackend) (env : Environment)

/-- The block of the `ClientHello` case that runs with a crypto context. -/
def exchangeKeys (p : IncomingPacket) : Handler ZServer MalformedMessage Unit := do
  let server ← get
  match server.cryptoContext with
  | none => pure ()
  | some context =>
      let ((clientNonce, clientChallenge), _) ← Handler.check (scanClientHello p.data)
      modify fun server =>
        { server with
          cryptoContext := some (processServerKey backend clientNonce clientChallenge context) }

/-- `ProcessSystemMessage`, `ClientHello`. -/
def handleClientHello (p : IncomingPacket) : Handler ZServer MalformedMessage Unit := do
  let server ← get
  if p.sourcePeerId ∈ server.handshakedPeers then pure ()
  else
    exchangeKeys backend p
    modify fun server =>
      { server with handshakedPeers := insert p.sourcePeerId server.handshakedPeers }
    modify (sendServerHello backend env p.sourcePeerId)

/-- `ProcessSystemMessage`, `ClientAuthProof`. -/
def handleClientAuthProof (p : IncomingPacket) : Handler ZServer MalformedMessage Unit := do
  let server ← get
  match server.cryptoContext with
  | none => pure ()
  | some context =>
      let (proof, _) ← Handler.check (scanClientAuthProof p.data)
      modify fun server =>
        { server with cryptoContext := some (verifyClientProof backend proof context).2 }

/-- `ProcessSystemMessage`. -/
def handleSystemMessage (p : IncomingPacket) : Handler ZServer MalformedMessage Unit :=
  if p.type = PacketType.clientHello then handleClientHello backend env p
  else if p.type = PacketType.clientAuthProof then handleClientAuthProof backend p
  else pure ()

variable {backend env}

theorem outcome_exchangeKeys (p : IncomingPacket) (server : ZServer) :
    (exchangeKeys backend p).outcome server =
      match server.cryptoContext with
      | none => (.ok (), server)
      | some context =>
          match parseClientHello p.data with
          | .error error => (.error (.exit error), server)
          | .ok (clientNonce, clientChallenge) =>
              (.ok (), { server with
                cryptoContext :=
                  some (processServerKey backend clientNonce clientChallenge context) }) := by
  rw [exchangeKeys, Handler.outcome_get_bind]
  cases hcontext : server.cryptoContext with
  | none => rfl
  | some context =>
      have hscans := scans_clientHello p.data
      cases hparse : parseClientHello p.data with
      | error error =>
          rw [hparse] at hscans
          rw [hscans.eq_error, Handler.outcome_check_error_bind]
      | ok fields =>
          rw [hparse] at hscans
          obtain ⟨reader, hscan⟩ := hscans.eq_ok
          rw [hscan, Handler.outcome_check_ok_bind]
          exact Handler.outcome_modify ..

theorem outcome_handleClientAuthProof (p : IncomingPacket) (server : ZServer) :
    (handleClientAuthProof backend p).outcome server =
      match server.cryptoContext with
      | none => (.ok (), server)
      | some context =>
          match parseClientAuthProof p.data with
          | .error error => (.error (.exit error), server)
          | .ok proof =>
              (.ok (), { server with
                cryptoContext := some (verifyClientProof backend proof context).2 }) := by
  rw [handleClientAuthProof, Handler.outcome_get_bind]
  cases hcontext : server.cryptoContext with
  | none => rfl
  | some context =>
      have hscans := scans_clientAuthProof p.data
      cases hparse : parseClientAuthProof p.data with
      | error error =>
          rw [hparse] at hscans
          rw [hscans.eq_error, Handler.outcome_check_error_bind]
      | ok proof =>
          rw [hparse] at hscans
          obtain ⟨reader, hscan⟩ := hscans.eq_ok
          rw [hscan, Handler.outcome_check_ok_bind]
          exact Handler.outcome_modify ..

/-- The handler leaves the state that `processSystemMessage` computes, and has no faults. -/
theorem outcome_handleSystemMessage (p : IncomingPacket) (server : ZServer) :
    ∃ result, result ≠ .error .fault ∧
      (handleSystemMessage backend env p).outcome server =
        (result, server.processSystemMessage backend env p) := by
  unfold handleSystemMessage processSystemMessage
  by_cases hhello : p.type = PacketType.clientHello
  · rw [if_pos hhello, if_pos hhello, handleClientHello, Handler.outcome_get_bind]
    by_cases hduplicate : p.sourcePeerId ∈ server.handshakedPeers
    · rw [if_pos hduplicate, if_pos hduplicate]
      exact ⟨.ok (), nofun, rfl⟩
    · rw [if_neg hduplicate, if_neg hduplicate, Handler.outcome_bind, outcome_exchangeKeys]
      obtain ⟨state, cryptoContext, handshakedPeers, outgoing⟩ := server
      cases cryptoContext with
      | none => exact ⟨.ok (), nofun, rfl⟩
      | some context =>
          cases hparse : parseClientHello p.data with
          | error error => exact ⟨.error (.exit error), nofun, rfl⟩
          | ok fields => exact ⟨.ok (), nofun, rfl⟩
  · rw [if_neg hhello, if_neg hhello]
    by_cases hproof : p.type = PacketType.clientAuthProof
    · rw [if_pos hproof, if_pos hproof, outcome_handleClientAuthProof]
      cases hcontext : server.cryptoContext with
      | none => exact ⟨.ok (), nofun, rfl⟩
      | some context =>
          cases hparse : parseClientAuthProof p.data with
          | error error => exact ⟨.error (.exit error), nofun, rfl⟩
          | ok proof => exact ⟨.ok (), nofun, rfl⟩
    · rw [if_neg hproof, if_neg hproof]
      exact ⟨.ok (), nofun, rfl⟩

theorem keepsOnExit_exchangeKeys (p : IncomingPacket) : (exchangeKeys backend p).KeepsOnExit := by
  refine Handler.keepsOnExit_get_bind fun server => ?_
  split
  · exact (Handler.neverExits_pure ()).keepsOnExit
  · exact Handler.keepsOnExit_check_bind fun _ _ => (Handler.neverExits_modify _).keepsOnExit

/-- Every exit of the server's handler comes before its first change. -/
theorem keepsOnExit_handleSystemMessage (p : IncomingPacket) :
    (handleSystemMessage backend env p).KeepsOnExit := by
  unfold handleSystemMessage
  split
  · refine Handler.keepsOnExit_get_bind fun server => ?_
    split
    · exact (Handler.neverExits_pure ()).keepsOnExit
    · -- behind the key exchange there are no exits any more
      exact (keepsOnExit_exchangeKeys p).bind fun _ =>
        (Handler.neverExits_modify _).bind fun _ => Handler.neverExits_modify _
  · split
    · refine Handler.keepsOnExit_get_bind fun server => ?_
      split
      · exact (Handler.neverExits_pure ()).keepsOnExit
      · exact Handler.keepsOnExit_check_bind fun _ _ =>
          (Handler.neverExits_modify _).keepsOnExit
    · exact (Handler.neverExits_pure ()).keepsOnExit

end ZServer

namespace ZClient

variable (backend : CryptoBackend)

/-- The `ServerHello` case behind the last read of the message. -/
def takeServerHello (key serverChallenge serverProof : Bytes) (client : ZClient) : ZClient :=
  match client.cryptoContext with
  | none => { client with state := .connected }
  | some context =>
      let context := processServerKey backend key serverChallenge context
      if serverProof = [] then finishServerHello backend context client
      else
        match verifyServerResponse backend serverProof context with
        | (false, context) => disconnect { client with cryptoContext := some context }
        | (true, context) => finishServerHello backend context client

/-- `ProcessSystemMessage`. -/
def handleSystemMessage (p : IncomingPacket) : Handler ZClient MalformedMessage Unit := do
  let client ← get
  if p.type = PacketType.serverHello ∧ client.state = .connecting then
    let ((key, serverChallenge, serverProof), _) ← Handler.check (scanServerHello p.data)
    modify (takeServerHello backend key serverChallenge serverProof)
  else pure ()

variable {backend}

/-- The handler leaves the state that `processSystemMessage` computes, and has no faults. -/
theorem outcome_handleSystemMessage (p : IncomingPacket) (client : ZClient) :
    ∃ result, result ≠ .error .fault ∧
      (handleSystemMessage backend p).outcome client =
        (result, client.processSystemMessage backend p) := by
  rw [handleSystemMessage, Handler.outcome_get_bind, processSystemMessage]
  by_cases htype : p.type = PacketType.serverHello
  swap
  · rw [if_neg htype, if_neg fun h => htype h.1]
    exact ⟨.ok (), nofun, rfl⟩
  by_cases hstate : client.state = .connecting
  swap
  · rw [if_pos htype, if_pos hstate, if_neg fun h => hstate h.2]
    exact ⟨.ok (), nofun, rfl⟩
  rw [if_pos htype, if_neg (not_not.mpr hstate), if_pos ⟨htype, hstate⟩]
  have hscans := scans_serverHello p.data
  cases hparse : parseServerHello p.data with
  | error error =>
      rw [hparse] at hscans
      rw [hscans.eq_error, Handler.outcome_check_error_bind]
      exact ⟨.error (.exit error), nofun, rfl⟩
  | ok fields =>
      rw [hparse] at hscans
      obtain ⟨reader, hscan⟩ := hscans.eq_ok
      rw [hscan, Handler.outcome_check_ok_bind]
      exact ⟨.ok (), nofun, Handler.outcome_modify ..⟩

theorem keepsOnExit_handleSystemMessage (p : IncomingPacket) :
    (handleSystemMessage backend p).KeepsOnExit := by
  refine Handler.keepsOnExit_get_bind fun client => ?_
  split
  · exact Handler.keepsOnExit_check_bind fun _ _ => (Handler.neverExits_modify _).keepsOnExit
  · exact (Handler.neverExits_pure ()).keepsOnExit

end ZClient

/-! ## Hello messages round trip -/

/-- The hello that a client writes for this key and this challenge is read to its end, and a
server with a crypto context that does not know the peer yet exchanges keys with exactly these
two. -/
structure ClientHelloTaken (backend : CryptoBackend) (env : Environment)
    (publicKey challenge : Bytes) : Prop where
  whole : ScansWhole (scanClientHello (clientHelloData publicKey challenge))
    (publicKey, challenge) (clientHelloData publicKey challenge)
  exchanged : ∀ (server : ZServer) (context : ZCryptoContext) (p : IncomingPacket),
    server.cryptoContext = some context → p.sourcePeerId ∉ server.handshakedPeers →
      p.type = PacketType.clientHello → p.data = clientHelloData publicKey challenge →
        (ZServer.handleSystemMessage backend env p).outcome server =
          (.ok (), ZServer.sendServerHello backend env p.sourcePeerId
            { server with
              cryptoContext := some (processServerKey backend publicKey challenge context)
              handshakedPeers := insert p.sourcePeerId server.handshakedPeers })

/-- The same for the hello of a server and a client that is connecting. -/
structure ServerHelloTaken (backend : CryptoBackend) (publicKey challenge proof : Bytes) :
    Prop where
  whole : ScansWhole (scanServerHello (serverHelloData publicKey challenge proof))
    (publicKey, challenge, proof) (serverHelloData publicKey challenge proof)
  exchanged : ∀ (client : ZClient) (p : IncomingPacket),
    client.state = .connecting → p.type = PacketType.serverHello →
      p.data = serverHelloData publicKey challenge proof →
        (ZClient.handleSystemMessage backend p).outcome client =
          (.ok (), client.takeServerHello backend publicKey challenge proof)

theorem clientHelloTaken (backend : CryptoBackend) (env : Environment)
    {publicKey challenge : Bytes} (hkey : publicKey.length ≤ 65535)
    (hchallenge : challenge.length ≤ 255) :
    ClientHelloTaken backend env publicKey challenge := by
  have hwhole := scanClientHello_clientHelloData hkey hchallenge
  refine ⟨hwhole, fun server context p hcontext hfresh htype hdata => ?_⟩
  obtain ⟨reader, hscan, -⟩ := hwhole
  rw [ZServer.handleSystemMessage, if_pos htype, ZServer.handleClientHello,
    Handler.outcome_get_bind, if_neg hfresh, Handler.outcome_bind, ZServer.exchangeKeys,
    Handler.outcome_get_bind]
  simp only [hcontext]
  rw [hdata, hscan, Handler.outcome_check_ok_bind, Handler.outcome_modify]
  rfl

theorem serverHelloTaken (backend : CryptoBackend) {publicKey challenge proof : Bytes}
    (hkey : publicKey.length ≤ 65535) (hchallenge : challenge.length ≤ 255)
    (hproof : proof.length ≤ 255) : ServerHelloTaken backend publicKey challenge proof := by
  have hwhole := scanServerHello_serverHelloData hkey hchallenge hproof
  refine ⟨hwhole, fun client p hstate htype hdata => ?_⟩
  obtain ⟨reader, hscan, -⟩ := hwhole
  rw [ZClient.handleSystemMessage, Handler.outcome_get_bind, if_pos ⟨htype, hstate⟩, hdata,
    hscan, Handler.outcome_check_ok_bind]
  exact Handler.outcome_modify ..

/-- Hello messages round trip: both hellos, for all strings of at most 255 bytes, and the two
senders write them for the strings of their own context. -/
theorem hello_round_trip (backend : CryptoBackend) (env : Environment) :
    (∀ publicKey challenge : Bytes, publicKey.length ≤ 255 → challenge.length ≤ 255 →
      ClientHelloTaken backend env publicKey challenge) ∧
    (∀ publicKey challenge proof : Bytes, publicKey.length ≤ 255 → challenge.length ≤ 255 →
      proof.length ≤ 255 → ServerHelloTaken backend publicKey challenge proof) ∧
    (∀ client : ZClient, (publicKeyOf client.cryptoContext).length ≤ 255 →
      (challengeOf client.cryptoContext).length ≤ 255 →
        client.sendClientHello.outgoing.getLast?.map (·.heapData) =
          some (clientHelloData (publicKeyOf client.cryptoContext)
            (challengeOf client.cryptoContext))) ∧
    ∀ (server : ZServer) (dest : UInt32), server.state = .connected →
      (publicKeyOf server.cryptoContext).length ≤ 255 →
      (challengeOf server.cryptoContext).length ≤ 255 →
        (server.sendServerHello backend env dest).outgoing.getLast?.map (·.heapData) =
          some (serverHelloData (publicKeyOf server.cryptoContext)
            (challengeOf server.cryptoContext)
            (ZServer.serverProof backend env server.cryptoContext)) := by
  refine ⟨fun publicKey challenge hkey hchallenge => ?_,
    fun publicKey challenge proof hkey hchallenge hproof => ?_,
    fun client hkey hchallenge => ?_, fun server dest hstate hkey hchallenge => ?_⟩
  · exact clientHelloTaken backend env (by omega) hchallenge
  · exact serverHelloTaken backend (by omega) hchallenge hproof
  · have hlength := length_clientHelloData_lt (show (publicKeyOf client.cryptoContext).length ≤
      65535 by omega) (show (challengeOf client.cryptoContext).length ≤ 65535 by omega)
    simp only [ZClient.sendClientHello, ZClient.push, List.getLast?_append,
      List.getLast?_singleton, Option.some_or, Option.map_some, handshakePacket,
      OutgoingPacket.heapData_ofData hlength]
  · have hlength := length_serverHelloData_lt (ZServer.serverProof backend env
      server.cryptoContext) (show (publicKeyOf server.cryptoContext).length ≤ 65535 by omega)
      (show (challengeOf server.cryptoContext).length ≤ 65535 by omega)
    simp only [ZServer.sendServerHello, ZServer.push, ne_eq, hstate, not_true, if_false,
      List.getLast?_append, List.getLast?_singleton, Option.some_or, Option.map_some,
      handshakePacket, OutgoingPacket.heapData_ofData hlength]

/-- A key without a challenge, and a proof without a key. -/
theorem hello_round_trip_empty :
    ClientHelloTaken sumBackend ⟨none⟩ [1, 2] [] ∧
      ServerHelloTaken sumBackend [] [3] [4, 5] :=
  ⟨(hello_round_trip sumBackend ⟨none⟩).1 [1, 2] [] (by decide) (by decide),
    (hello_round_trip sumBackend ⟨none⟩).2.1 [] [3] [4, 5] (by decide) (by decide) (by decide)⟩

/-! ## Malformed messages -/

/-- A malformed handshake message changes nothing: the handler never reads past the payload,
and if it takes one of its malformed exits, the endpoint is what it was. -/
theorem malformed_changes_nothing (backend : CryptoBackend) (env : Environment)
    (p : IncomingPacket) :
    (∀ server : ZServer, ∃ result,
      (ZServer.handleSystemMessage backend env p).outcome server =
          (result, server.processSystemMessage backend env p) ∧
        result ≠ .error .fault ∧
        ∀ malformed, result = .error (.exit malformed) →
          server.processSystemMessage backend env p = server) ∧
    ∀ client : ZClient, ∃ result,
      (ZClient.handleSystemMessage backend p).outcome client =
          (result, client.processSystemMessage backend p) ∧
        result ≠ .error .fault ∧
        ∀ malformed, result = .error (.exit malformed) →
          client.processSystemMessage backend p = client := by
  refine ⟨fun server => ?_, fun client => ?_⟩
  · obtain ⟨result, hfault, houtcome⟩ := ZServer.outcome_handleSystemMessage p server
    refine ⟨result, houtcome, hfault, ?_⟩
    rintro malformed rfl
    exact ZServer.keepsOnExit_handleSystemMessage p server _ _ houtcome
  · obtain ⟨result, hfault, houtcome⟩ := ZClient.outcome_handleSystemMessage p client
    refine ⟨result, houtcome, hfault, ?_⟩
    rintro malformed rfl
    exact ZClient.keepsOnExit_handleSystemMessage p client _ _ houtcome

/-- A client hello that announces a challenge of five bytes and carries one of them. -/
def truncatedHello : IncomingPacket :=
  (handshakePacket 7 PacketType.clientHello [1, 1, 0, 5, 1, 1, 5, 0, 9]).received 3

def waitingServer : ZServer := ⟨.connected, some fresh, ∅, []⟩

theorem malformed_changes_nothing_truncatedHello :
    (ZServer.handleSystemMessage sumBackend ⟨none⟩ truncatedHello).outcome waitingServer =
        (.error (.exit .missingChallenge), waitingServer) := by
  obtain ⟨result, houtcome, -, hunchanged⟩ :=
    (malformed_changes_nothing sumBackend ⟨none⟩ truncatedHello).1 waitingServer
  have hresult : result = .error (.exit .missingChallenge) := (congrArg Prod.fst houtcome).symm
  rw [houtcome, hunchanged .missingChallenge hresult, hresult]

end ZetaNet
