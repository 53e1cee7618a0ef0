import ZetaNet.Packet.RoundTrip

/-!
# What an encrypted packet is bound to

Twelve bytes of associated data are authenticated with the payload: type, channel, flags and
the two numbers. Both sides assemble them on their own, so an accepted encrypted datagram has
these fields from the call that encrypted its payload, whatever its other fields say.
-/

namespace ZetaNet

open Wire

variable {K : Type} {lz4 : Lz4} {gcm : AesGcm K}

/-! ## The associated data -/

/-- The flag byte of the associated data. -/
def aadFlags (reliable encrypted compressed : Bool) (priority : UInt8) : UInt8 :=
  let mask (b : Bool) (value : UInt8) : UInt8 := if b then value else 0
  mask reliable 1 ||| mask encrypted 2 ||| mask compressed 4 ||| ((priority &&& 3) <<< 4)

theorem unpackHeaderFlags_aadFlags (reliable encrypted compressed : Bool) (priority : UInt8) :
    unpackHeaderFlags (aadFlags reliable encrypted compressed priority) =
      { isReliable := reliable, isEncrypted := encrypted, isCompressed := compressed,
        isFragmented := false, priority := priority &&& 3, reserved := 0 } := by
  have hpriority : priority &&& 3 = 0 ∨ priority &&& 3 = 1 ∨ priority &&& 3 = 2 ∨
      priority &&& 3 = 3 := by
    have hlt : (priority &&& 3).toNat < 4 := by
      rw [UInt8.toNat_and]
      exact Nat.and_lt_two_pow priority.toNat (n := 2) (by decide)
    simp only [← UInt8.toNat_inj]
    have h1 : UInt8.toNat 1 = 1 := rfl
    have h2 : UInt8.toNat 2 = 2 := rfl
    have h3 : UInt8.toNat 3 = 3 := rfl
    have h0 : UInt8.toNat 0 = 0 := rfl
    omega
  unfold aadFlags
  rcases hpriority with h | h | h | h <;> rw [h] <;>
    cases reliable <;> cases encrypted <;> cases compressed <;> rfl

theorem aadBytes_eq (type : UInt16) (channel : UInt8) (reliable encrypted compressed : Bool)
    (priority : UInt8) (sequence acknowledgement : UInt32) :
    aadBytes type channel reliable encrypted compressed priority sequence acknowledgement =
      leU16 type ++ ([channel] ++ ([aadFlags reliable encrypted compressed priority] ++
        (leU32 sequence ++ leU32 acknowledgement))) := by
  rw [aadBytes, ← List.nil_append (List.replicate _ _)]
  simp (disch := simp) only [storeU16, storeU8, storeU32, Buffer.store_fill]
  simp only [length_leU16, length_leU32, List.length_singleton,
    Nat.reduceSub, List.replicate_zero, List.append_nil, List.nil_append, List.append_assoc]
  rfl

/-- The associated data determines every field it is made of. -/
theorem aadBytes_inj {type type' : UInt16} {channel channel' : UInt8}
    {reliable reliable' encrypted encrypted' compressed compressed' : Bool}
    {priority priority' : UInt8} {sequence sequence' acknowledgement acknowledgement' : UInt32}
    (h : aadBytes type channel reliable encrypted compressed priority sequence acknowledgement =
      aadBytes type' channel' reliable' encrypted' compressed' priority' sequence'
        acknowledgement') :
    type = type' ∧ channel = channel' ∧ reliable = reliable' ∧ encrypted = encrypted' ∧
      compressed = compressed' ∧ priority &&& 3 = priority' &&& 3 ∧ sequence = sequence' ∧
      acknowledgement = acknowledgement' := by
  rw [aadBytes_eq, aadBytes_eq] at h
  obtain ⟨htype, h⟩ := List.append_inj h (by simp)
  obtain ⟨hchannel, h⟩ := List.append_inj h rfl
  obtain ⟨hbyte, h⟩ := List.append_inj h rfl
  obtain ⟨hsequence, hacknowledgement⟩ := List.append_inj h (by simp)
  have hflags := congrArg unpackHeaderFlags (List.singleton_inj.mp hbyte)
  rw [unpackHeaderFlags_aadFlags, unpackHeaderFlags_aadFlags] at hflags
  obtain ⟨hreliable, hencrypted, hcompressed, -, hpriority, -⟩ := HeaderFlags.mk.inj hflags
  exact ⟨leU16_inj htype, List.singleton_inj.mp hchannel, hreliable, hencrypted, hcompressed,
    hpriority, leU32_inj hsequence, leU32_inj hacknowledgement⟩

/-! ## The calls behind an encrypted payload -/

/-- A `BuildPacket` call of a party that holds the session key. -/
structure BuildCall where
  env : BuildEnv
  packet : OutgoingPacket
  nextSequenceNumber : UInt32

namespace BuildCall

variable (lz4 gcm) (key : K) (call : BuildCall)

/-- The packet as the call leaves it. -/
def packetInfo : OutgoingPacket :=
  (buildPacket lz4 gcm (some key) call.env call.packet call.nextSequenceNumber).1

/-- The associated data of the call's `EncryptPayload`. -/
def aad : Bytes :=
  let packet := call.packetInfo lz4 gcm key
  aadBytes packet.type packet.channel.toU8 packet.flags.reliable packet.flags.encrypted
    packet.flags.compressed packet.flags.priority.toU8
    (carriedSequence packet call.nextSequenceNumber) (carriedAcknowledgement packet)

/-- `EncryptPayload`, as this call makes it, writes `encrypted` for the data `aad`. -/
def Encrypts (encrypted aad : Bytes) : Prop :=
  call.packet.flags.encrypted = true ∧ aad = call.aad lz4 gcm key ∧
    encryptPayload gcm key call.env.nonce (compressPayload lz4 call.packet).2 aad =
      some encrypted

theorem packetInfo_eq :
    call.packetInfo lz4 gcm key = (compressPayload lz4 call.packet).1 := by
  have hscalar : ¬ (call.packet.heapDataSize > 0 ∧ call.packet.scalar = 0) := by
    rintro ⟨hsize, hzero⟩
    refine call.packet.heap_ptr (fun hempty => ?_) hzero
    rw [gt_iff_lt, UInt32.lt_iff_toNat_lt, OutgoingPacket.toNat_heapDataSize, hempty] at hsize
    exact Nat.lt_irrefl _ hsize
  unfold packetInfo buildPacket
  rw [if_neg hscalar]
  rcases compressPayload lz4 call.packet with ⟨packetInfo, compressed⟩
  dsimp only
  split
  · rfl
  · split
    · rfl
    · split <;> rfl

/-- The packet the call leaves differs from the one it was given in the compressed flag alone. -/
theorem exists_withCompressed :
    ∃ b, call.packetInfo lz4 gcm key = call.packet.withCompressed b := by
  rw [packetInfo_eq]
  rcases hcompress : compressPayload lz4 call.packet with ⟨packetInfo, compressed⟩
  exact compressPayload_packet hcompress

end BuildCall

/-- The ideal cipher: what opens under a key, with its associated data, was written by the
`EncryptPayload` of one of the calls made with that key. -/
def IdealAead (lz4 : Lz4) (gcm : AesGcm K) (calls : K → Set BuildCall) : Prop :=
  ∀ key encrypted aad plaintext, decryptPayload gcm key encrypted aad = some plaintext →
    ∃ call ∈ calls key, call.Encrypts lz4 gcm key encrypted aad

/-- A compressor output fills a buffer of the declared size only if that is the original
size. -/
def Lz4.SizeExact (lz4 : Lz4) : Prop :=
  ∀ input size output, lz4.compressDefault input ≠ [] →
    lz4.decompressSafe (lz4.compressDefault input) size = some output → output.length = size →
    size = input.length

namespace ZCompressionContext

/-- Under any declared size, a compressor output yields the original or nothing. -/
theorem decompress_of_compress (roundTrip : lz4.RoundTrip) (exact : lz4.SizeExact)
    {input compressed data : Bytes} {originalSize : Nat} (hne : input ≠ [])
    (hcompress : compress lz4 input = some compressed)
    (h : decompress lz4 compressed originalSize = some data) : data = input := by
  have hlen : input.length ≠ 0 := fun hzero => hne (List.length_eq_zero_iff.mp hzero)
  unfold compress at hcompress
  simp only [if_neg hlen] at hcompress
  by_cases hout : (lz4.compressDefault input).length = 0
  · rw [if_pos hout] at hcompress
    cases hcompress
  rw [if_neg hout] at hcompress
  obtain rfl := Option.some.inj hcompress
  have hnonempty : lz4.compressDefault input ≠ [] := fun hnil => hout (by rw [hnil]; rfl)
  unfold decompress at h
  by_cases hlarge : originalSize > kMaxDecompressedSize
  · rw [if_pos hlarge] at h
    cases h
  rw [if_neg hlarge, if_neg (fun hempty => hout hempty.1)] at h
  cases houtput : lz4.decompressSafe (lz4.compressDefault input) originalSize with
  | none =>
      rw [houtput] at h
      cases h
  | some output =>
      rw [houtput] at h
      by_cases hsize : output.length ≠ originalSize
      · simp only [if_pos hsize] at h
        cases h
      · simp only [if_neg hsize] at h
        obtain rfl := exact input originalSize output hnonempty houtput
          (Classical.not_not.mp hsize)
        rw [roundTrip input hnonempty] at houtput
        exact (Option.some.inj h).symm.trans (Option.some.inj houtput).symm

end ZCompressionContext

/-- What a call encrypted is what the receiver opens. -/
theorem BuildCall.Encrypts.opened (sized : gcm.Sized) (roundTrip : gcm.RoundTrip) {key : K}
    {call : BuildCall} {encrypted aad opened : Bytes}
    (h : call.Encrypts lz4 gcm key encrypted aad)
    (hopen : decryptPayload gcm key encrypted aad = some opened) :
    opened = (compressPayload lz4 call.packet).2 ∧ opened ≠ [] := by
  obtain ⟨n, ciphertext, tag, -, hne, hgcm, rfl⟩ := encryptPayload_eq_some h.2.2
  obtain ⟨hlen, htag⟩ := sized _ _ _ _ _ _ hgcm
  have hcne : ciphertext ≠ [] := by
    rw [← List.length_pos_iff, hlen]
    exact List.length_pos_iff.mpr hne
  rw [decryptPayload_layout gcm key n _ hcne htag, roundTrip _ _ _ _ _ _ hgcm] at hopen
  obtain rfl := Option.some.inj hopen
  exact ⟨rfl, hne⟩

/-- Decompression, steered by the size an attacker may have changed, yields the payload of the
call or nothing. -/
theorem decompressIfNeeded_of_compressPayload (roundTrip : lz4.RoundTrip)
    (exact : lz4.SizeExact) {packet : OutgoingPacket} {originalSize : UInt32} {data : Bytes}
    (hne : (compressPayload lz4 packet).2 ≠ [])
    (h : decompressIfNeeded lz4 (compressPayload lz4 packet).1.flags.compressed
      (compressPayload lz4 packet).2 originalSize = some data) : data = packet.heapData := by
  rcases hcompress : compressPayload lz4 packet with ⟨packetInfo, compressed⟩
  rw [hcompress] at hne h
  obtain ⟨rfl, rfl⟩ | ⟨rfl, -, rfl⟩ | ⟨rfl, hinput, houtput⟩ := compressPayload_cases hcompress
  · exact (Option.some.inj h).symm
  · exact absurd rfl hne
  · exact ZCompressionContext.decompress_of_compress roundTrip exact hinput houtput h

theorem PacketPriority.ofU8_congr {bits bits' : UInt8} (h : bits &&& 3 = bits' &&& 3) :
    ofU8 bits = ofU8 bits' := by
  unfold ofU8
  rw [h]

/-- An encrypted packet is delivered only with the header fields, the numbers and the payload of
a `BuildPacket` call made with the receiver's key. -/
theorem encrypted_packet_bound (hlz4 : lz4.RoundTrip) (exact : lz4.SizeExact)
    (sized : gcm.Sized) (roundTrip : gcm.RoundTrip) {calls : K → Set BuildCall}
    (ideal : IdealAead lz4 gcm calls) {crypto : Option K} {inBuffer : Bytes}
    {out received : IncomingPacket} (h : unpackPacket lz4 gcm crypto inBuffer out = .ok received)
    (hencrypted : received.flags.encrypted = true) :
    ∃ key, crypto = some key ∧ ∃ call ∈ calls key,
      call.packet.flags.encrypted = true ∧
      received.type = call.packet.type ∧
      received.channel = call.packet.channel ∧
      received.flags.reliable = call.packet.flags.reliable ∧
      received.flags.compressed = (call.packetInfo lz4 gcm key).flags.compressed ∧
      received.flags.priority = call.packet.flags.priority ∧
      received.sequenceNumber = carriedSequence call.packet call.nextSequenceNumber ∧
      received.acknowledgementNumber = carriedAcknowledgement call.packet ∧
      received.data = call.packet.heapData := by
  obtain ⟨d, hd, rfl⟩ := unpackPacket_eq_ok_iff.mp h
  have hflag : d.header.flags.isEncrypted = true := hencrypted
  have hopened := hd.decrypted
  unfold decryptPayloadIfNeeded at hopened
  rw [if_neg (by rw [hflag]; decide)] at hopened
  cases crypto with
  -- without a key nothing is opened
  | none => cases hopened
  | some key =>
      -- the ideal cipher opens only what a call has sealed
      obtain ⟨call, hcall, hencrypts⟩ := ideal _ _ _ _ hopened
      obtain ⟨hdata, hne⟩ := hencrypts.opened sized roundTrip hopened
      obtain ⟨htype, hchannel, hreliable, -, hcompressed, hpriority, hsequence,
        hacknowledgement⟩ := aadBytes_inj hencrypts.2.1
      have hdecompressed := hd.decompressed
      rw [hcompressed, call.packetInfo_eq lz4 gcm key, hdata] at hdecompressed
      have hpayload := decompressIfNeeded_of_compressPayload hlz4 exact (hdata ▸ hne) hdecompressed
      -- a build changes no field of the packet but the compressed flag
      obtain ⟨b, hb⟩ := call.exists_withCompressed lz4 gcm key
      refine ⟨key, rfl, call, hcall, hencrypts.1, ?_, ?_, ?_, hcompressed, ?_, ?_, ?_, hpayload⟩
      · rw [hb] at htype
        exact htype
      · rw [hb] at hchannel
        exact (congrArg PacketChannelType.ofU8 hchannel).trans (PacketChannelType.ofU8_toU8 _)
      · rw [hb] at hreliable
        exact hreliable
      · rw [hb] at hpriority
        exact (PacketPriority.ofU8_congr hpriority).trans (PacketPriority.ofU8_toU8 _)
      · rw [hb] at hsequence
        exact hsequence
      · rw [hb] at hacknowledgement
        exact hacknowledgement

/-- The one call of a session: the sample packet, under 77. -/
def sampleCall : BuildCall where
  env := sampleEnv
  packet := samplePacket
  nextSequenceNumber := 77

/-- A cipher that has sealed one message: the nonce 1..12, the sample packet's data and its
payload. -/
def sealedGcm : AesGcm Unit where
  encrypt _ nonce aad plaintext :=
    if nonce = [1, 2, 3, 4, 5, 6, 7, 8, 9, 10, 11, 12] ∧
        aad = aadBytes 101 1 true true false 3 77 0 ∧ plaintext = [7, 8, 9] then
      some ([0x5b, 0x54, 0x55], List.replicate kTagSize 0x21)
    else none
  decrypt _ nonce aad ciphertext tag :=
    if nonce = [1, 2, 3, 4, 5, 6, 7, 8, 9, 10, 11, 12] ∧
        aad = aadBytes 101 1 true true false 3 77 0 ∧ ciphertext = [0x5b, 0x54, 0x55] ∧
        tag = List.replicate kTagSize 0x21 then
      some [7, 8, 9]
    else none

theorem sealedGcm_sized : sealedGcm.Sized := by
  intro key nonce aad plaintext ciphertext tag h
  simp only [sealedGcm] at h
  split at h
  · rename_i hsealed
    obtain ⟨rfl, rfl⟩ := Prod.mk.inj (Option.some.inj h)
    rw [hsealed.2.2]
    exact ⟨rfl, rfl⟩
  · cases h

theorem sealedGcm_roundTrip : sealedGcm.RoundTrip := by
  intro key nonce aad plaintext ciphertext tag h
  simp only [sealedGcm] at h ⊢
  split at h
  · rename_i hsealed
    obtain ⟨rfl, rfl⟩ := Prod.mk.inj (Option.some.inj h)
    rw [if_pos ⟨hsealed.1, hsealed.2.1, rfl, rfl⟩, hsealed.2.2]
  · cases h

theorem literalLz4_sizeExact : literalLz4.SizeExact := by
  intro input size output hne h hsize
  by_cases hsmall : input.length ≤ 12
  · have htoken : 16 * input.length < 256 := by omega
    simp only [literalLz4, if_pos hsmall] at h
    split at h
    · obtain rfl := Option.some.inj h
      exact hsize.symm
    · cases h
  · exact absurd (if_neg hsmall) hne

theorem sealedGcm_ideal : IdealAead literalLz4 sealedGcm fun _ => {sampleCall} := by
  rintro ⟨⟩ encrypted aad plaintext h
  unfold decryptPayload at h
  split at h
  · cases h
  simp only at h
  split at h
  · cases h
  simp only [sealedGcm] at h
  split at h
  · rename_i hsealed
    obtain ⟨hnonce, haad, hciphertext, htag⟩ := hsealed
    have hencrypted : encrypted =
        [1, 2, 3, 4, 5, 6, 7, 8, 9, 10, 11, 12] ++
          ([0x5b, 0x54, 0x55] ++ List.replicate kTagSize 0x21) := by
      rw [← hnonce, ← hciphertext, ← htag, ← List.drop_drop, List.take_append_drop,
        List.take_append_drop]
    refine ⟨sampleCall, rfl, rfl, haad.trans (by decide +kernel), ?_⟩
    rw [haad, hencrypted]
    decide +kernel
  · cases h

/-- The sample packet, received. -/
theorem encrypted_packet_bound_samplePacket :
    ∃ received,
      unpackPacket literalLz4 sealedGcm (some ())
          (buildPacket literalLz4 sealedGcm (some ()) sampleEnv samplePacket 77).2
          sampleIncoming = .ok received ∧
      received.type = 101 ∧ received.sequenceNumber = 77 ∧ received.data = [7, 8, 9] := by
  obtain ⟨received, hreceived, -⟩ := unpackPacket_buildPacket literalLz4_roundTrip sealedGcm_sized
    sealedGcm_roundTrip (some ()) sampleEnv samplePacket 77 sampleIncoming (by decide)
    (by decide) (by decide) (by decide +kernel)
  have hencrypted : received.flags.encrypted = true := by
    have hflag : ((unpackPacket literalLz4 sealedGcm (some ())
        (buildPacket literalLz4 sealedGcm (some ()) sampleEnv samplePacket 77).2
        sampleIncoming).toOption.map (·.flags.encrypted)) = some true := by decide +kernel
    rw [hreceived] at hflag
    exact Option.some.inj hflag
  obtain ⟨_, -, call, rfl, -, htype, -, -, -, -, hsequence, -, hdata⟩ :=
    encrypted_packet_bound literalLz4_roundTrip literalLz4_sizeExact sealedGcm_sized
      sealedGcm_roundTrip sealedGcm_ideal hreceived hencrypted
  exact ⟨received, hreceived, htype, hsequence, hdata⟩

end ZetaNet
