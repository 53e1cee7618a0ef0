import ZetaNet.Packet.Types

/-!
# Payload transforms

The wrappers around the two third-party payload transforms: LZ4
(`z_compression_wrapper.h`) and AES-256-GCM (`EncryptPayload` / `DecryptPayload`
of `z_crypto_wrapper.cc`). The libraries themselves are parameters; what the code
relies on is stated in `Lz4.RoundTrip` and in the `AesGcm` properties.
-/

namespace ZetaNet

/-! ## Compression -/

/-- The two LZ4 entry points the wrapper calls. -/
structure Lz4 where
  /-- `LZ4_compress_default` into a buffer of `LZ4_compressBound` bytes: the bytes
  written, none of them when the call fails. -/
  compressDefault : Bytes → Bytes
  /-- `LZ4_decompress_safe` with a destination capacity: the bytes written, `none`
  for a negative result. -/
  decompressSafe : Bytes → Nat → Option Bytes

/-- Decompressing a compressor output into a buffer of the original size gives the
original back. -/
def Lz4.RoundTrip (lz4 : Lz4) : Prop :=
  ∀ input, lz4.compressDefault input ≠ [] →
    lz4.decompressSafe (lz4.compressDefault input) input.length = some input

namespace ZCompressionContext

/-- `kMaxDecompressedSize`: 64 MiB. -/
def kMaxDecompressedSize : Nat := 64 * 1024 * 1024

/-- `Compress`; `none` is the return value `false`. -/
def compress (lz4 : Lz4) (input : Bytes) : Option Bytes :=
  if input.length = 0 then some []
  else
    let compressed := lz4.compressDefault input
    if compressed.length = 0 then none else some compressed

/-- `Decompress`; `none` is the return value `false`. -/
def decompress (lz4 : Lz4) (data : Bytes) (originalSize : Nat) : Option Bytes :=
  if originalSize > kMaxDecompressedSize then none
  else if data.length = 0 ∧ originalSize = 0 then some []
  else
    match lz4.decompressSafe data originalSize with
    | none => none
    | some decompressed =>
        if decompressed.length ≠ originalSize then none else some decompressed

/-- A successful compression of a non-empty input is undone by decompression. -/
theorem decompress_compress {lz4 : Lz4} (roundTrip : lz4.RoundTrip) {input compressed : Bytes}
    (hne : input ≠ []) (hsize : input.length ≤ kMaxDecompressedSize)
    (h : compress lz4 input = some compressed) :
    decompress lz4 compressed input.length = some input := by
  have hlen : input.length ≠ 0 := fun h0 => hne (List.length_eq_zero_iff.mp h0)
  simp only [compress, if_neg hlen] at h
  split at h
  · cases h
  · rename_i hout
    injection h with h
    subst h
    have hnonempty : lz4.compressDefault input ≠ [] := fun h0 => hout (by simp [h0])
    simp [decompress, Nat.not_lt.mpr hsize, hout, roundTrip input hnonempty]

end ZCompressionContext

/-! ## Encryption -/

/-- `ZCryptoContext::kNonceSize`. -/
def kNonceSize : Nat := 12

/-- The 16-byte GCM tag. -/
def kTagSize : Nat := 16

/-- The `byte nonce[12]` that `RandomBytes` fills. -/
structure Nonce where
  bytes : Bytes
  length_eq : bytes.length = kNonceSize

/-- AES-256-GCM as the backend offers it, over a type `K` of keys. -/
structure AesGcm (K : Type) where
  /-- key, nonce, AAD and plaintext to ciphertext and tag; `none` for an error -/
  encrypt : K → Bytes → Bytes → Bytes → Option (Bytes × Bytes)
  /-- key, nonce, AAD, ciphertext and tag to plaintext; `none` when authentication fails -/
  decrypt : K → Bytes → Bytes → Bytes → Bytes → Option Bytes

namespace AesGcm

variable {K : Type}

/-- GCM is a stream mode: the ciphertext is as long as the plaintext, the tag 16 bytes. -/
def Sized (gcm : AesGcm K) : Prop :=
  ∀ key nonce aad plaintext ciphertext tag,
    gcm.encrypt key nonce aad plaintext = some (ciphertext, tag) →
      ciphertext.length = plaintext.length ∧ tag.length = kTagSize

/-- Decryption under the same key, nonce and AAD undoes encryption. -/
def RoundTrip (gcm : AesGcm K) : Prop :=
  ∀ key nonce aad plaintext ciphertext tag,
    gcm.encrypt key nonce aad plaintext = some (ciphertext, tag) →
      gcm.decrypt key nonce aad ciphertext tag = some plaintext

/-- Authentication: a genuine ciphertext and tag, opened under any key, yield their own
plaintext or nothing. -/
def Authentic (gcm : AesGcm K) : Prop :=
  ∀ key key' nonce aad aad' plaintext plaintext' ciphertext tag,
    gcm.encrypt key nonce aad plaintext = some (ciphertext, tag) →
      gcm.decrypt key' nonce aad' ciphertext tag = some plaintext' → plaintext' = plaintext

/-- The plaintext fits the output buffer, which is as long as the ciphertext. -/
def Bounded (gcm : AesGcm K) : Prop :=
  ∀ key nonce aad ciphertext tag plaintext,
    gcm.decrypt key nonce aad ciphertext tag = some plaintext →
      plaintext.length ≤ ciphertext.length

end AesGcm

variable {K : Type}

/-- `EncryptPayload` of a context whose key material is ready, `nonce` being what
`RandomBytes` produced, if it did: nonce, ciphertext, tag. -/
def encryptPayload (gcm : AesGcm K) (key : K) (nonce : Option Nonce)
    (plaintext aad : Bytes) : Option Bytes :=
  match nonce with
  | none => none
  | some nonce =>
      if plaintext.length = 0 then none
      else
        match gcm.encrypt key nonce.bytes aad plaintext with
        | none => none
        | some (ciphertext, tag) => some (nonce.bytes ++ (ciphertext ++ tag))

/-- `DecryptPayload` of a context whose key material is ready. -/
def decryptPayload (gcm : AesGcm K) (key : K) (encryptedData aad : Bytes) : Option Bytes :=
  if encryptedData.length < kNonceSize + kTagSize then none
  else
    let nonce := encryptedData.take kNonceSize
    let ciphertextSize := encryptedData.length - kNonceSize - kTagSize
    let ciphertext := (encryptedData.drop kNonceSize).take ciphertextSize
    let tag := encryptedData.drop (kNonceSize + ciphertextSize)
    if ciphertextSize = 0 then none
    else gcm.decrypt key nonce aad ciphertext tag

/-- What a successful `EncryptPayload` wrote. -/
theorem encryptPayload_eq_some {gcm : AesGcm K} {key : K} {nonce : Option Nonce}
    {plaintext aad encrypted : Bytes}
    (h : encryptPayload gcm key nonce plaintext aad = some encrypted) :
    ∃ n c t, nonce = some n ∧ plaintext ≠ [] ∧
      gcm.encrypt key n.bytes aad plaintext = some (c, t) ∧
      encrypted = n.bytes ++ (c ++ t) := by
  unfold encryptPayload at h
  cases nonce with
  | none => cases h
  | some n =>
      simp only at h
      split at h
      · cases h
      · rename_i hne
        cases hct : gcm.encrypt key n.bytes aad plaintext with
        | none => rw [hct] at h; cases h
        | some ct =>
            obtain ⟨c, t⟩ := ct
            rw [hct] at h
            injection h with h
            exact ⟨n, c, t, rfl, fun h0 => hne (by simp [h0]), hct, h.symm⟩

/-- `DecryptPayload` splits what `EncryptPayload` wrote at the right places. -/
theorem decryptPayload_layout (gcm : AesGcm K) (key : K) (nonce : Nonce)
    {ciphertext tag : Bytes} (aad : Bytes) (hc : ciphertext ≠ []) (ht : tag.length = kTagSize) :
    decryptPayload gcm key (nonce.bytes ++ (ciphertext ++ tag)) aad =
      gcm.decrypt key nonce.bytes aad ciphertext tag := by
  have hn := nonce.length_eq
  have hlen : (nonce.bytes ++ (ciphertext ++ tag)).length =
      kNonceSize + ciphertext.length + kTagSize := by
    simp [hn, ht, Nat.add_assoc]
  have hpos : 0 < ciphertext.length := List.length_pos_iff.mpr hc
  have hcount : (nonce.bytes ++ (ciphertext ++ tag)).length - kNonceSize - kTagSize =
      ciphertext.length := by omega
  have htake : (nonce.bytes ++ (ciphertext ++ tag)).take kNonceSize = nonce.bytes := by
    rw [← hn, List.take_left]
  have hmid : (nonce.bytes ++ (ciphertext ++ tag)).drop kNonceSize = ciphertext ++ tag := by
    rw [← hn, List.drop_left]
  have htag : (nonce.bytes ++ (ciphertext ++ tag)).drop (kNonceSize + ciphertext.length) =
      tag := by
    rw [← List.drop_drop, hmid, List.drop_left]
  unfold decryptPayload
  rw [if_neg (by omega)]
  simp only [hcount, htake, hmid, htag, List.take_left]
  rw [if_neg (by omega)]

end ZetaNet
