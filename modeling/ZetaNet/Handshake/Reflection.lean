import ZetaNet.Handshake.Completeness
import ZetaNet.Lib.Machine

/-!
# Authentication without the key

A server and an attacker who sends it any packets from any peers, sees every server hello,
and cannot compute an HMAC under the session key. The proof the server sends and the proof it
expects are HMACs of the same four strings in two orders; a hello under which the two orders
give the same string makes the server hand out the proof it will accept.
-/

namespace ZetaNet

open ZCryptoContext

/-- HMAC as a symbol: it determines key and data. -/
def CryptoBackend.Symbolic (backend : CryptoBackend) : Prop :=
  ∀ key key' data data',
    backend.hmacSha256 key data = backend.hmacSha256 key' data' → key = key' ∧ data = data'

/-- The server, the proofs it has sent in its hellos and the session keys it has held. -/
structure Exposed where
  server : ZServer
  emitted : List Bytes
  held : List Bytes
  deriving DecidableEq

namespace Exposed

variable (backend : CryptoBackend) (env : Environment)

/-- The proof in the hello the last packet was answered with, if it was answered and the hello
has one. -/
def proofSent (before after : ZServer) : List Bytes :=
  if after.outgoing = before.outgoing then []
  else
    let proof := ZServer.serverProof backend env after.cryptoContext
    if proof = [] then [] else [proof]

/-- Every packet is a step of the attacker. -/
def machine : Machine Exposed IncomingPacket where
  step s p :=
    let server := s.server.processSystemMessage backend env p
    some {
      server
      emitted := proofSent backend env s.server server ++ s.emitted
      held := (server.cryptoContext.map encryptionKey).toList ++ s.held }

/-- The server before the first packet. -/
def start (context : ZCryptoContext) : Exposed where
  server := ⟨.connected, some context, ∅, []⟩
  emitted := []
  held := [context.encryptionKey]

/-- A proof the attacker sends is one the server has emitted, or no HMAC under the key the
server holds. -/
def AttackerMay (s : Exposed) (p : IncomingPacket) : Prop :=
  p.type = PacketType.clientAuthProof → ∀ proof, parseClientAuthProof p.data = .ok proof →
    proof ∈ s.emitted ∨
      ∀ context, s.server.cryptoContext = some context →
        ∀ data, proof ≠ proofOf backend context data

/-- A hello the server takes, with key and challenge not empty, keeps the two orders of the
four strings apart. -/
def NotReflected (s : Exposed) (p : IncomingPacket) : Prop :=
  p.type = PacketType.clientHello → p.sourcePeerId ∉ s.server.handshakedPeers →
    ∀ key challenge context, parseClientHello p.data = .ok (key, challenge) →
      s.server.cryptoContext = some context → key ≠ [] → challenge ≠ [] →
        key ++ (context.localNonce ++ (challenge ++ context.localChallenge)) ≠
          context.localNonce ++ (key ++ (context.localChallenge ++ challenge))

/-- A session key derived from a hello the server takes is none of those it has held. -/
def FreshKey (s : Exposed) (p : IncomingPacket) : Prop :=
  p.type = PacketType.clientHello → p.sourcePeerId ∉ s.server.handshakedPeers →
    ∀ key challenge context, parseClientHello p.data = .ok (key, challenge) →
      s.server.cryptoContext = some context → key ≠ [] →
        (processServerKey backend key challenge context).encryptionKey ∉ s.held

/-! ## The invariant -/

/-- An emitted proof is an HMAC under a key the server has held; under the present key it is
that of the present strings, in an order that is not the one the server expects. -/
def EmittedOk (held : List Bytes) (c : ZCryptoContext) (proof : Bytes) : Prop :=
  ∃ key data, proof = bytesToHex (backend.hmacSha256 key data) ∧ key ∈ held ∧
    (c.serverNonce ≠ [] → key ≠ c.encryptionKey ∨
      (data = c.serverFirst ∧ c.serverFirst ≠ c.localFirst))

/-- Nobody is authenticated, and every emitted proof is accounted for. -/
def Inv (s : Exposed) : Prop :=
  ∃ c, s.server.cryptoContext = some c ∧ c.authenticated = false ∧ c.localNonce ≠ [] ∧
    ∀ proof ∈ s.emitted, EmittedOk backend s.held c proof

variable {backend env}

theorem inv_start {context : ZCryptoContext} (hcontext : context.Prepared) :
    Inv backend (start context) :=
  ⟨context, rfl, hcontext.authenticated, hcontext.localNonce_ne_nil,
    fun _ hproof => nomatch hproof⟩

/-- A key that the server held stays one it has held. -/
theorem EmittedOk.mono {held held' : List Bytes} {c : ZCryptoContext} {proof : Bytes}
    (h : EmittedOk backend held c proof) (hsub : held ⊆ held') :
    EmittedOk backend held' c proof := by
  obtain ⟨key, data, hproof, hkey, hpresent⟩ := h
  exact ⟨key, data, hproof, hsub hkey, hpresent⟩

/-- A new session key is that of no proof emitted before. -/
theorem emittedOk_processServerKey {held : List Bytes} {c : ZCryptoContext}
    {key challenge proof : Bytes}
    (hfresh : key ≠ [] → (processServerKey backend key challenge c).encryptionKey ∉ held)
    (h : EmittedOk backend held c proof) :
    EmittedOk backend held (processServerKey backend key challenge c) proof := by
  obtain ⟨k, d, hproof, hk, -⟩ := h
  refine ⟨k, d, hproof, hk, fun hne => .inl ?_⟩
  rw [processServerKey_serverNonce] at hne
  rintro rfl
  exact hfresh hne hk

/-- The proof of a hello is an HMAC of the strings in the server's order. -/
theorem emittedOk_serverProof {held : List Bytes} {c : ZCryptoContext} {proof : Bytes}
    (hheld : c.encryptionKey ∈ held) (hapart : ¬ c.incomplete → c.serverFirst ≠ c.localFirst)
    (hne : proof ≠ []) (hproof : proof = ZServer.serverProof backend env (some c)) :
    EmittedOk backend held c proof := by
  have hcomplete : ¬ c.incomplete ∧ proof = proofOf backend c c.serverFirst := by
    simp only [ZServer.serverProof, generateServerProof] at hproof
    split at hproof
    · exact absurd hproof hne
    · split at hproof
      · exact absurd hproof hne
      · split at hproof
        · exact absurd hproof hne
        · exact ⟨‹_›, hproof⟩
  exact ⟨c.encryptionKey, c.serverFirst, hcomplete.2, hheld,
    fun _ => .inr ⟨rfl, hapart hcomplete.1⟩⟩

theorem inv_step (symbolic : backend.Symbolic) (s : Exposed) (p : IncomingPacket)
    (s' : Exposed) (hinv : Inv backend s)
    (hattacker : (AttackerMay backend s p ∧ NotReflected s p) ∧ FreshKey backend s p)
    (hstep : (machine backend env).step s p = some s') : Inv backend s' := by
  obtain rfl := Option.some.inj hstep
  obtain ⟨c, hc, hunauthenticated, hlocal, hemitted⟩ := hinv
  obtain ⟨⟨hmay, hapart⟩, hfreshKey⟩ := hattacker
  -- whatever comes, the keys held before are kept
  have hkept : ∀ proof ∈ s.emitted, EmittedOk backend
      (((s.server.processSystemMessage backend env p).cryptoContext.map encryptionKey).toList ++
        s.held) c proof :=
    fun proof hproof => (hemitted proof hproof).mono (List.subset_append_right ..)
  rcases ZServer.processSystemMessage_cases backend env hc with
    hsame | ⟨htype, hfresh, key, challenge, hparse, hhello⟩ | ⟨htype, proof, hparse, hverify⟩
  · -- nothing happens
    refine ⟨c, by rw [hsame]; exact hc, hunauthenticated, hlocal, fun proof hproof => ?_⟩
    refine hkept proof ?_
    simpa [hsame, proofSent] using hproof
  · -- a hello: new keys, and a proof under them
    set c' := processServerKey backend key challenge c with hc'
    have hcontext : (s.server.processSystemMessage backend env p).cryptoContext = some c' := by
      rw [hhello, ZServer.sendServerHello, ZServer.push]
      split <;> rfl
    have hdistinct : ¬ c'.incomplete → c'.serverFirst ≠ c'.localFirst := by
      intro hcomplete
      simp only [incomplete, not_or, hc', processServerKey_serverNonce,
        processServerKey_serverChallenge] at hcomplete
      simpa [hc', serverFirst, localFirst] using
        hapart htype hfresh key challenge c hparse hc hcomplete.1 hcomplete.2.1
    refine ⟨c', hcontext, by simpa [hc'] using hunauthenticated, by simpa [hc'] using hlocal, ?_⟩
    intro proof hproof
    rcases List.mem_append.mp hproof with hnew | hold
    · unfold proofSent at hnew
      rw [hcontext] at hnew
      split at hnew
      · cases hnew
      · dsimp only at hnew
        split at hnew
        · cases hnew
        · rename_i hne
          obtain rfl := List.mem_singleton.mp hnew
          refine emittedOk_serverProof ?_ hdistinct hne rfl
          rw [hcontext]
          exact List.mem_cons_self
    · have hproof' : EmittedOk backend s.held c' proof :=
        emittedOk_processServerKey (hfreshKey htype hfresh key challenge c hparse hc)
          (hemitted proof hold)
      exact hproof'.mono (List.subset_append_right ..)
  · -- a proof: it is not the expected one
    have hrejected : (verifyClientProof backend proof c).2 = c := by
      unfold verifyClientProof
      by_cases hempty : c.serverNonce = [] ∨ c.localNonce = []
      · rw [if_pos hempty]
      rw [if_neg hempty]
      have hne : proofOf backend c c.localFirst ≠ proof := by
        rcases hmay htype proof hparse with hknown | hchosen
        · obtain ⟨k, d, rfl, -, hpresent⟩ := hemitted proof hknown
          intro heq
          obtain ⟨hk, hd⟩ := symbolic _ _ _ _ (bytesToHex_injective heq)
          rcases hpresent (fun h => hempty (.inl h)) with hother | ⟨hdata, hdistinct⟩
          · exact hother hk.symm
          · exact hdistinct (hdata.symm.trans hd.symm)
        · exact (hchosen c hc _).symm
      rw [if_pos hne]
    refine ⟨c, by rw [hverify, hrejected], hunauthenticated, hlocal, fun proof hproof => ?_⟩
    refine hkept proof ?_
    simpa [hverify, proofSent] using hproof

/-- As long as no hello makes the two orders coincide and no session key comes twice, an attacker
without the key is never authenticated. -/
theorem not_authenticated_of_notReflected (symbolic : backend.Symbolic) {psk : Bytes}
    (hpsk : 16 ≤ psk.length) (nonce : List.Vector UInt8 32) (challenge : List.Vector UInt8 16)
    {serverContext : ZCryptoContext}
    (hserver : initializeKeyExchange backend ⟨some psk⟩ (some nonce) (some challenge) fresh =
      (true, serverContext))
    {packets : List IncomingPacket} {s : Exposed}
    (hattacker : (machine backend ⟨some psk⟩).Along
      (fun s p => AttackerMay backend s p ∧ NotReflected s p) (start serverContext) packets)
    (hkeys : (machine backend ⟨some psk⟩).Along (FreshKey backend) (start serverContext) packets)
    (hexec : (machine backend ⟨some psk⟩).exec (start serverContext) packets = some s) :
    ∃ c, s.server.cryptoContext = some c ∧ c.isAuthenticated = false := by
  rw [initializeKeyExchange_fresh hpsk] at hserver
  obtain rfl := (Prod.mk.inj hserver).2
  obtain ⟨c, hc, hunauthenticated, -⟩ := Machine.invariant_of_along
    (inv_step symbolic) (inv_start (prepared_initialized ..)) (hattacker.and hkeys) hexec
  exact ⟨c, hc, hunauthenticated⟩

/-- The condition is exact: where the two orders coincide, the server accepts its own proof. -/
theorem verifyClientProof_generateServerProof {c : ZCryptoContext} (hcomplete : ¬ c.incomplete)
    (hreflected : c.serverFirst = c.localFirst) :
    verifyClientProof backend (generateServerProof backend c) c =
      (true, { c with authenticated := true }) := by
  have hnonces : ¬ (c.serverNonce = [] ∨ c.localNonce = []) := by
    simp only [incomplete, not_or] at hcomplete ⊢
    exact ⟨hcomplete.1, hcomplete.2.2.1⟩
  rw [generateServerProof, if_neg hcomplete, hreflected, verifyClientProof, if_neg hnonces,
    if_neg (by simp)]

/-! ## Session keys -/

/-- `rank` counts the derivations of the keys. -/
def Ranked (rank : Bytes → Nat) (s : Exposed) : Prop :=
  ∃ c, s.server.cryptoContext = some c ∧ c.localNonce ≠ [] ∧
    ∀ key ∈ s.held, rank key ≤ rank c.encryptionKey

theorem rank_processServerKey {rank : Bytes → Nat}
    (hrank : ∀ key text, rank key < rank (backend.sha256 (key ++ text))) {c : ZCryptoContext}
    (hlocal : c.localNonce ≠ []) {key : Bytes} (hkey : key ≠ []) (challenge : Bytes) :
    rank c.encryptionKey < rank (processServerKey backend key challenge c).encryptionKey := by
  simp only [processServerKey, deriveSessionKeys, hlocal, hkey, or_self, if_false]
  exact hrank _ _

theorem ranked_step {rank : Bytes → Nat}
    (hrank : ∀ key text, rank key < rank (backend.sha256 (key ++ text))) {s s' : Exposed}
    {p : IncomingPacket} (h : Ranked rank s) (hstep : (machine backend env).step s p = some s') :
    Ranked rank s' := by
  obtain rfl := Option.some.inj hstep
  obtain ⟨c, hc, hlocal, hheld⟩ := h
  have hnext {c' : ZCryptoContext}
      (hc' : (s.server.processSystemMessage backend env p).cryptoContext = some c')
      (hle : rank c.encryptionKey ≤ rank c'.encryptionKey) (key : Bytes)
      (hkey : key ∈ ((s.server.processSystemMessage backend env p).cryptoContext.map
        encryptionKey).toList ++ s.held) : rank key ≤ rank c'.encryptionKey := by
    rw [hc'] at hkey
    rcases List.mem_cons.mp hkey with rfl | hkey
    · exact le_rfl
    · exact (hheld key hkey).trans hle
  rcases ZServer.processSystemMessage_cases backend env hc with
    hsame | ⟨-, -, key, challenge, -, hhello⟩ | ⟨-, proof, -, hverify⟩
  · have hc' : (s.server.processSystemMessage backend env p).cryptoContext = some c := by
      rw [hsame]
      exact hc
    exact ⟨c, hc', hlocal, hnext hc' le_rfl⟩
  · have hc' : (s.server.processSystemMessage backend env p).cryptoContext =
        some (processServerKey backend key challenge c) := by
      rw [hhello, ZServer.sendServerHello, ZServer.push]
      split <;> rfl
    refine ⟨_, hc', by simpa using hlocal, hnext hc' ?_⟩
    by_cases hkey : key = []
    · refine le_of_eq (congrArg rank ?_)
      simp [processServerKey, deriveSessionKeys, hkey]
    · exact (rank_processServerKey hrank hlocal hkey challenge).le
  · have hsame : (verifyClientProof backend proof c).2.encryptionKey = c.encryptionKey ∧
        (verifyClientProof backend proof c).2.localNonce = c.localNonce := by
      rcases verifyClientProof_snd backend proof c with h | h <;> rw [h] <;> exact ⟨rfl, rfl⟩
    have hc' : (s.server.processSystemMessage backend env p).cryptoContext =
        some (verifyClientProof backend proof c).2 := by
      rw [hverify]
    exact ⟨_, hc', hsame.2 ▸ hlocal, hnext hc' (congrArg rank hsame.1).ge⟩

/-- Where deriving a key raises its rank, no session key comes twice. -/
theorem freshKey_of_rank (rank : Bytes → Nat)
    (hrank : ∀ key text, rank key < rank (backend.sha256 (key ++ text)))
    {context : ZCryptoContext} (hcontext : context.Prepared) (packets : List IncomingPacket) :
    (machine backend env).Along (FreshKey backend) (start context) packets := by
  have hstart : Ranked rank (start context) :=
    ⟨context, rfl, hcontext.localNonce_ne_nil, fun key hkey => by
      rw [List.mem_singleton.mp hkey]⟩
  refine Machine.Along.imp (fun s p s' h _ hstep => ranked_step hrank h hstep) ?_ hstart
    (Machine.along_of_forall (fun _ _ => trivial : ∀ p ∈ packets, True) _)
  rintro s p ⟨c, hc, hlocal, hheld⟩ - - - key challenge context' - hcontext' hkey hmem
  obtain rfl := Option.some.inj (hc.symm.trans hcontext')
  exact absurd (hheld _ hmem) (rank_processServerKey hrank hlocal hkey challenge).not_ge

/-! ## Runs -/

theorem framedBackend_symbolic : framedBackend.Symbolic :=
  fun _ _ _ _ => framedBackend_hmacSha256_injective

/-- A digest is longer than what it is made from. -/
theorem freshKey_framedBackend {context : ZCryptoContext} (hcontext : context.Prepared)
    (packets : List IncomingPacket) :
    (machine framedBackend env).Along (FreshKey framedBackend) (start context) packets :=
  freshKey_of_rank List.length (fun key text => by simp [framedBackend]) hcontext packets

/-- A packet from `peer` to the server. -/
def attackPacket (peer : UInt32) (type : PacketType) (data : Bytes) : IncomingPacket :=
  (handshakePacket ZPeerId.toServer type data).received peer

/-- The server of the runs below. -/
def sampleServer : ZCryptoContext :=
  initialized framedBackend (List.replicate 16 115) (bytesToHex (List.replicate 32 3))
    (bytesToHex (List.replicate 16 4))

theorem prepared_sampleServer : sampleServer.Prepared :=
  prepared_initialized framedBackend _ (List.Vector.replicate 32 3) (List.Vector.replicate 16 4)

/-- The proof in the last hello that the server sent in a run. -/
def lastProof (packets : List IncomingPacket) : Bytes :=
  (((machine framedBackend ⟨some (List.replicate 16 115)⟩).exec (start sampleServer)
    packets).bind fun s => s.emitted.head?).getD []

/-- A hello. -/
def introduced : List IncomingPacket :=
  [attackPacket 9 PacketType.clientHello (clientHelloData [107] [99])]

/-- A hello, the proof of its answer sent back, and a made-up proof. -/
def guessing : List IncomingPacket :=
  introduced ++
    [attackPacket 9 PacketType.clientAuthProof (clientAuthProofData (lastProof introduced)),
     attackPacket 9 PacketType.clientAuthProof (clientAuthProofData [1, 2, 3])]

theorem not_authenticated_guessing :
    ∃ s c, (machine framedBackend ⟨some (List.replicate 16 115)⟩).exec (start sampleServer)
        guessing = some s ∧ s.emitted = [lastProof introduced] ∧
      s.server.cryptoContext = some c ∧ c.isAuthenticated = false := by
  have hrun : ((machine framedBackend ⟨some (List.replicate 16 115)⟩).exec (start sampleServer)
      guessing).map emitted = some [lastProof introduced] := by decide +kernel
  have hknown : ((machine framedBackend ⟨some (List.replicate 16 115)⟩).exec
      (start sampleServer) introduced).all (fun s => s.emitted.contains (lastProof introduced)) =
        true := by decide +kernel
  obtain ⟨s, hexec, hemitted⟩ := Option.map_eq_some_iff.mp hrun
  -- a proof of odd length is no hexadecimal string
  have hodd (context : ZCryptoContext) (data : Bytes) :
      [1, 2, 3] ≠ proofOf framedBackend context data := by
    intro h
    have hlength := congrArg List.length h
    rw [proofOf, length_bytesToHex] at hlength
    simp only [List.length_cons, List.length_nil] at hlength
    omega
  have hallowed : (machine framedBackend ⟨some (List.replicate 16 115)⟩).Along
      (fun s p => AttackerMay framedBackend s p ∧ NotReflected s p) (start sampleServer)
      guessing := by
    refine Machine.along_append ⟨⟨fun h => absurd h (by decide), ?_⟩, fun _ _ => trivial⟩
      fun mid hmid => ⟨⟨?_, fun h => absurd h (by decide)⟩, fun _ _ =>
        ⟨⟨?_, fun h => absurd h (by decide)⟩, fun _ _ => trivial⟩⟩
    · intro _ _ key challenge context hparse hcontext _ _
      have hsample : parseClientHello (attackPacket 9 PacketType.clientHello
          (clientHelloData [107] [99])).data = .ok ([107], [99]) := by decide +kernel
      obtain ⟨rfl, rfl⟩ := Prod.mk.inj (Except.ok.inj (hparse.symm.trans hsample))
      obtain rfl := Option.some.inj hcontext
      decide +kernel
    · intro _ proof hparse
      have hsample : parseClientAuthProof (attackPacket 9 PacketType.clientAuthProof
          (clientAuthProofData (lastProof introduced))).data = .ok (lastProof introduced) := by
        decide +kernel
      obtain rfl := Except.ok.inj (hparse.symm.trans hsample)
      rw [hmid] at hknown
      exact .inl (List.contains_iff_mem.mp hknown)
    · intro _ proof hparse
      have hsample : parseClientAuthProof (attackPacket 9 PacketType.clientAuthProof
          (clientAuthProofData [1, 2, 3])).data = .ok [1, 2, 3] := by decide +kernel
      obtain rfl := Except.ok.inj (hparse.symm.trans hsample)
      exact .inr fun context _ => hodd context
  obtain ⟨c, hc, hunauthenticated⟩ := not_authenticated_of_notReflected framedBackend_symbolic
    (by decide) (List.Vector.replicate 32 3) (List.Vector.replicate 16 4)
    (initializeKeyExchange_fresh (by decide) _ _) hallowed
    (freshKey_framedBackend prepared_sampleServer guessing) hexec
  exact ⟨s, c, hexec, hemitted, hc, hunauthenticated⟩

/-- The attacker introduces itself, learns nonce and challenge of the server, and sends them
back as its own from a second peer. -/
def reflecting : List IncomingPacket :=
  introduced ++
    [attackPacket 10 PacketType.clientHello
      (clientHelloData sampleServer.localNonce sampleServer.localChallenge)]

/-- The proof the server answers the reflected hello with. -/
def reflectedProof : Bytes := lastProof reflecting

/-- Sending that proof back authenticates the attacker: every step is one it may take, and the
server ends up authenticated. -/
theorem authenticated_by_reflection :
    framedBackend.Symbolic ∧
    ∃ s c,
      (machine framedBackend ⟨some (List.replicate 16 115)⟩).Along (FreshKey framedBackend)
        (start sampleServer)
        (reflecting ++
          [attackPacket 10 PacketType.clientAuthProof (clientAuthProofData reflectedProof)]) ∧
      (machine framedBackend ⟨some (List.replicate 16 115)⟩).Along
        (AttackerMay framedBackend) (start sampleServer)
        (reflecting ++
          [attackPacket 10 PacketType.clientAuthProof (clientAuthProofData reflectedProof)]) ∧
      (machine framedBackend ⟨some (List.replicate 16 115)⟩).exec (start sampleServer)
        (reflecting ++
          [attackPacket 10 PacketType.clientAuthProof (clientAuthProofData reflectedProof)]) =
        some s ∧
      s.server.cryptoContext = some c ∧ c.isAuthenticated = true := by
  refine ⟨framedBackend_symbolic, ?_⟩
  have hrun : ((machine framedBackend ⟨some (List.replicate 16 115)⟩).exec (start sampleServer)
      (reflecting ++
        [attackPacket 10 PacketType.clientAuthProof (clientAuthProofData reflectedProof)])).any
      (fun s => s.server.cryptoContext.any isAuthenticated) = true := by decide +kernel
  have hemitted : ((machine framedBackend ⟨some (List.replicate 16 115)⟩).exec
      (start sampleServer) reflecting).all (fun s => s.emitted.contains reflectedProof) = true := by
    decide +kernel
  have hparsed : parseClientAuthProof (attackPacket 10 PacketType.clientAuthProof
      (clientAuthProofData reflectedProof)).data = .ok reflectedProof := by decide +kernel
  obtain ⟨s, hexec, hany⟩ := (Option.any_eq_true _ _).mp hrun
  obtain ⟨c, hc, hauthenticated⟩ := (Option.any_eq_true _ _).mp hany
  refine ⟨s, c, freshKey_framedBackend prepared_sampleServer _, ?_, hexec, hc, hauthenticated⟩
  apply Machine.along_append
  · exact ⟨fun h => absurd h (by decide), fun _ _ => ⟨fun h => absurd h (by decide),
      fun _ _ => trivial⟩⟩
  · intro mid hmid
    refine ⟨fun _ proof hproof => .inl ?_, fun _ _ => trivial⟩
    rw [hparsed] at hproof
    rw [hmid] at hemitted
    rw [← Except.ok.inj hproof]
    exact List.contains_iff_mem.mp hemitted

end Exposed
end ZetaNet
