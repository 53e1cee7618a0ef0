import ZetaNet.Wire.Le
import Mathlib.Data.UInt

/-!
# `ZCryptoContext`

The key exchange of `z_crypto_wrapper.cc`: key material from the pre-shared key, local
nonce and challenge, session keys, and the two proofs. SHA-256 and HMAC-SHA-256 belong to
the crypto library and are a parameter, `CryptoBackend`.
-/

namespace ZetaNet

/-- The library's hash functions: `sha256 data` and `hmacSha256 key data`. -/
structure CryptoBackend where
  sha256 : Bytes → Bytes
  hmacSha256 : Bytes → Bytes → Bytes

/-- Both digests have 32 bytes. -/
def CryptoBackend.Sized (backend : CryptoBackend) : Prop :=
  (∀ data, (backend.sha256 data).length = 32) ∧
    ∀ key data, (backend.hmacSha256 key data).length = 32

/-! ## Hexadecimal -/

/-- `kHex[n]` for a nibble. -/
def hexDigit (nibble : UInt8) : UInt8 := if nibble < 10 then 48 + nibble else 87 + nibble

/-- `BytesToHex`. -/
def bytesToHex (data : Bytes) : Bytes :=
  data.flatMap fun (b : UInt8) => [hexDigit ((b >>> 4) &&& 0x0F), hexDigit (b &&& 0x0F)]

@[simp] theorem length_bytesToHex (data : Bytes) :
    (bytesToHex data).length = 2 * data.length := by
  simp [bytesToHex, List.length_flatMap, Nat.mul_comm]

/-- The byte two hexadecimal digits stand for. -/
def unhex (high low : UInt8) : UInt8 :=
  let nibble (digit : UInt8) : UInt8 := if digit < 58 then digit - 48 else digit - 87
  16 * nibble high + nibble low

theorem unhex_hexDigit (b : UInt8) :
    unhex (hexDigit ((b >>> 4) &&& 0x0F)) (hexDigit (b &&& 0x0F)) = b := by
  have h : ∀ n : Fin 256,
      unhex (hexDigit ((UInt8.ofFin n >>> 4) &&& 0x0F)) (hexDigit (UInt8.ofFin n &&& 0x0F)) =
        UInt8.ofFin n := by decide +kernel
  exact h b.toFin

theorem bytesToHex_injective : Function.Injective bytesToHex := by
  intro xs
  induction xs with
  | nil =>
      intro ys h
      cases ys with
      | nil => rfl
      | cons y ys => cases h
  | cons x xs ih =>
      intro ys h
      cases ys with
      | nil => cases h
      | cons y ys =>
          simp only [bytesToHex, List.flatMap_cons, List.cons_append, List.nil_append,
            List.cons.injEq] at h
          obtain ⟨hhigh, hlow, hrest⟩ := h
          have hhead : x = y := by rw [← unhex_hexDigit x, hhigh, hlow, unhex_hexDigit]
          rw [hhead, ih hrest]

/-! ## The context -/

/-- `class ZCryptoContext`. -/
structure ZCryptoContext where
  encryptionKey : Bytes
  authenticationKey : Bytes
  keysInitialized : Bool
  authenticated : Bool
  localNonce : Bytes
  localChallenge : Bytes
  /-- `server_nonce_`: the other side's nonce, on the server as well -/
  serverNonce : Bytes
  serverChallenge : Bytes
  deriving DecidableEq

/-- What the context asks of the process environment: `getenv("ZNET_PSK")`. -/
structure Environment where
  psk : Option Bytes

namespace ZCryptoContext

/-- `ZCryptoContext()`. -/
def fresh : ZCryptoContext where
  encryptionKey := List.replicate 32 0
  authenticationKey := List.replicate 32 0
  keysInitialized := false
  authenticated := false
  localNonce := []
  localChallenge := []
  serverNonce := []
  serverChallenge := []

/-- `"enc"`, `"auth"`, `"session-enc"` and `"session-auth"`. -/
def kEnc : Bytes := [101, 110, 99]
def kAuth : Bytes := [97, 117, 116, 104]
def kSessionEnc : Bytes := [115, 101, 115, 115, 105, 111, 110, 45, 101, 110, 99]
def kSessionAuth : Bytes := [115, 101, 115, 115, 105, 111, 110, 45, 97, 117, 116, 104]

variable (backend : CryptoBackend)

/-- `DeriveKeyMaterial`. -/
def deriveKeyMaterial (secret : Bytes) (context : ZCryptoContext) : ZCryptoContext :=
  let masterKey := backend.sha256 secret
  { context with
    encryptionKey := backend.sha256 (kEnc ++ masterKey)
    authenticationKey := backend.sha256 (kAuth ++ masterKey) }

/-- `EnsureKeyMaterialReady`. -/
def ensureKeyMaterialReady (env : Environment) (context : ZCryptoContext) :
    Bool × ZCryptoContext :=
  if context.keysInitialized then (true, context)
  else
    match env.psk with
    | none => (false, context)
    | some secret =>
        if secret = [] then (false, context)
        else if secret.length < 16 then (false, context)
        else (true, { deriveKeyMaterial backend secret context with keysInitialized := true })

/-- `InitializeKeyExchange`, with what `RandomBytes` yields for nonce and challenge. -/
def initializeKeyExchange (env : Environment) (localNonce : Option (List.Vector UInt8 32))
    (localChallenge : Option (List.Vector UInt8 16)) (context : ZCryptoContext) :
    Bool × ZCryptoContext :=
  if context.keysInitialized then (true, context)
  else
    match ensureKeyMaterialReady backend env context with
    | (false, context) => (false, context)
    | (true, context) =>
        match localNonce with
        | none => (false, context)
        | some nonce =>
            let context := { context with localNonce := bytesToHex nonce.toList }
            match localChallenge with
            | none => (false, context)
            | some challenge =>
                (true, { context with localChallenge := bytesToHex challenge.toList })

/-- `GetPublicKey`, `GetChallenge` and `IsAuthenticated`. -/
def getPublicKey (context : ZCryptoContext) : Bytes := context.localNonce
def getChallenge (context : ZCryptoContext) : Bytes := context.localChallenge
def isAuthenticated (context : ZCryptoContext) : Bool := context.authenticated

/-- The two nonces in lexicographic order, one after the other. -/
def sortedNonces (localNonce serverNonce : Bytes) : Bytes :=
  if localNonce < serverNonce then localNonce ++ serverNonce else serverNonce ++ localNonce

/-- `DeriveSessionKeys`; its callers do not look at the result. -/
def deriveSessionKeys (context : ZCryptoContext) : ZCryptoContext :=
  if context.localNonce = [] ∨ context.serverNonce = [] then context
  else
    let nonces := sortedNonces context.localNonce context.serverNonce
    { context with
      encryptionKey := backend.sha256 (context.encryptionKey ++ (nonces ++ kSessionEnc))
      authenticationKey := backend.sha256 (context.authenticationKey ++ (nonces ++ kSessionAuth)) }

/-- `ProcessServerKey`. -/
def processServerKey (serverKey serverChallenge : Bytes) (context : ZCryptoContext) :
    ZCryptoContext :=
  deriveSessionKeys backend { context with serverNonce := serverKey, serverChallenge }

/-- Some of the four strings is still empty. -/
def incomplete (context : ZCryptoContext) : Prop :=
  context.serverNonce = [] ∨ context.serverChallenge = [] ∨ context.localNonce = [] ∨
    context.localChallenge = []

instance (context : ZCryptoContext) : Decidable context.incomplete :=
  inferInstanceAs (Decidable (_ ∨ _ ∨ _ ∨ _))

/-- The strings in the order of `VerifyServerResponse` and `VerifyClientProof`. -/
def localFirst (context : ZCryptoContext) : Bytes :=
  context.localNonce ++ (context.serverNonce ++ (context.localChallenge ++
    context.serverChallenge))

/-- The strings in the order of `GenerateClientProof` and `GenerateServerProof`. -/
def serverFirst (context : ZCryptoContext) : Bytes :=
  context.serverNonce ++ (context.localNonce ++ (context.serverChallenge ++
    context.localChallenge))

/-- `BytesToHex` of the HMAC of `data` under the encryption key. -/
def proofOf (context : ZCryptoContext) (data : Bytes) : Bytes :=
  bytesToHex (backend.hmacSha256 context.encryptionKey data)

/-- `VerifyServerResponse`. -/
def verifyServerResponse (serverProof : Bytes) (context : ZCryptoContext) :
    Bool × ZCryptoContext :=
  if context.incomplete then (false, context)
  else if proofOf backend context context.localFirst ≠ serverProof then (false, context)
  else (true, { context with authenticated := true })

/-- `GenerateClientProof`. -/
def generateClientProof (context : ZCryptoContext) : Bytes :=
  if context.incomplete then [] else proofOf backend context context.serverFirst

/-- `GenerateServerProof`. -/
def generateServerProof (context : ZCryptoContext) : Bytes :=
  if context.incomplete then [] else proofOf backend context context.serverFirst

/-- `VerifyClientProof`, which tests only the nonces for emptiness. -/
def verifyClientProof (clientProof : Bytes) (context : ZCryptoContext) :
    Bool × ZCryptoContext :=
  if context.serverNonce = [] ∨ context.localNonce = [] then (false, context)
  else if proofOf backend context context.localFirst ≠ clientProof then (false, context)
  else (true, { context with authenticated := true })

/-! ## What the operations leave alone -/

/-- Verification touches nothing but the authenticated flag. -/
theorem verifyServerResponse_snd (proof : Bytes) (context : ZCryptoContext) :
    (verifyServerResponse backend proof context).2 = context ∨
      (verifyServerResponse backend proof context).2 =
        { context with authenticated := true } := by
  unfold verifyServerResponse
  split
  · exact .inl rfl
  · split
    · exact .inl rfl
    · exact .inr rfl

theorem verifyClientProof_snd (proof : Bytes) (context : ZCryptoContext) :
    (verifyClientProof backend proof context).2 = context ∨
      (verifyClientProof backend proof context).2 = { context with authenticated := true } := by
  unfold verifyClientProof
  split
  · exact .inl rfl
  · split
    · exact .inl rfl
    · exact .inr rfl

@[simp] theorem deriveSessionKeys_localNonce (context : ZCryptoContext) :
    (deriveSessionKeys backend context).localNonce = context.localNonce := by
  unfold deriveSessionKeys
  split <;> rfl

@[simp] theorem deriveSessionKeys_localChallenge (context : ZCryptoContext) :
    (deriveSessionKeys backend context).localChallenge = context.localChallenge := by
  unfold deriveSessionKeys
  split <;> rfl

@[simp] theorem deriveSessionKeys_serverNonce (context : ZCryptoContext) :
    (deriveSessionKeys backend context).serverNonce = context.serverNonce := by
  unfold deriveSessionKeys
  split <;> rfl

@[simp] theorem deriveSessionKeys_serverChallenge (context : ZCryptoContext) :
    (deriveSessionKeys backend context).serverChallenge = context.serverChallenge := by
  unfold deriveSessionKeys
  split <;> rfl

@[simp] theorem deriveSessionKeys_authenticated (context : ZCryptoContext) :
    (deriveSessionKeys backend context).authenticated = context.authenticated := by
  unfold deriveSessionKeys
  split <;> rfl

@[simp] theorem processServerKey_localNonce (key challenge : Bytes) (context : ZCryptoContext) :
    (processServerKey backend key challenge context).localNonce = context.localNonce := by
  simp [processServerKey]

@[simp] theorem processServerKey_localChallenge (key challenge : Bytes)
    (context : ZCryptoContext) :
    (processServerKey backend key challenge context).localChallenge =
      context.localChallenge := by
  simp [processServerKey]

@[simp] theorem processServerKey_serverNonce (key challenge : Bytes) (context : ZCryptoContext) :
    (processServerKey backend key challenge context).serverNonce = key := by
  simp [processServerKey]

@[simp] theorem processServerKey_serverChallenge (key challenge : Bytes)
    (context : ZCryptoContext) :
    (processServerKey backend key challenge context).serverChallenge = challenge := by
  simp [processServerKey]

@[simp] theorem processServerKey_authenticated (key challenge : Bytes)
    (context : ZCryptoContext) :
    (processServerKey backend key challenge context).authenticated = context.authenticated := by
  simp [processServerKey]

/-- The order of the nonces does not depend on the side. -/
theorem sortedNonces_comm (a b : Bytes) : sortedNonces a b = sortedNonces b a := by
  unfold sortedNonces
  by_cases hab : a < b
  · rw [if_pos hab, if_neg (List.lt_asymm hab)]
  · by_cases hba : b < a
    · rw [if_neg hab, if_pos hba]
    · obtain rfl := List.le_antisymm (List.not_lt.mp hba) (List.not_lt.mp hab)
      rfl

end ZCryptoContext

/-! ## Concrete backends

For evaluating the model: one with 32-byte digests, one whose functions are injective. -/

/-- A backend of 32-byte digests: the sum of all bytes, repeated. -/
def sumBackend : CryptoBackend where
  sha256 data := List.replicate 32 data.sum
  hmacSha256 key data := List.replicate 32 (key ++ data).sum

theorem sumBackend_sized : sumBackend.Sized :=
  ⟨fun _ => List.length_replicate, fun _ _ => List.length_replicate⟩

/-- A backend whose digests spell out their input: a mark before the hashed data, the key
behind its length in unary before the authenticated data. -/
def framedBackend : CryptoBackend where
  sha256 data := 0 :: data
  hmacSha256 key data := List.replicate key.length 1 ++ 0 :: (key ++ data)

theorem framedBackend_sha256_injective : Function.Injective framedBackend.sha256 :=
  fun _ _ h => (List.cons.inj h).2

theorem replicate_one_inj {m n : Nat} {xs ys : Bytes}
    (h : List.replicate m 1 ++ 0 :: xs = List.replicate n 1 ++ 0 :: ys) : m = n ∧ xs = ys := by
  induction m generalizing n with
  | zero =>
      cases n with
      | zero => exact ⟨rfl, (List.cons.inj h).2⟩
      | succ n => exact absurd (List.cons.inj h).1 (by decide)
  | succ m ih =>
      cases n with
      | zero => exact absurd (List.cons.inj h).1 (by decide)
      | succ n =>
          obtain ⟨hmn, hxs⟩ := ih (List.cons.inj h).2
          exact ⟨congrArg (· + 1) hmn, hxs⟩

theorem framedBackend_hmacSha256_injective {key key' data data' : Bytes}
    (h : framedBackend.hmacSha256 key data = framedBackend.hmacSha256 key' data') :
    key = key' ∧ data = data' := by
  obtain ⟨hlen, hbody⟩ := replicate_one_inj h
  exact List.append_inj hbody hlen

end ZetaNet
