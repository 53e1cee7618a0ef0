import ZetaNet.File.Codec
import ZetaNet.File.Transfer
import ZetaNet.Packet.RoundTrip
import ZetaNet.Peer.Receiver

/-!
# Whether the receiver takes what `SendFile` queues

The sender checks the chunk size, the chunk count and the length of the name; the receiver
checks the size of the datagram, the name and the id. The two meet in one condition on each
chunk.
-/

namespace ZetaNet

open Wire Blocks

/-- `ParseTransferChunkPacket`. -/
def parseTransferChunkPacket (packet : IncomingPacket) : Option TransferChunk :=
  if packet.type ≠ PacketType.fileTransfer ∨ packet.channel ≠ .control then none
  else parseTransferChunkPayload packet.data

section Acceptable

variable {K : Type} (lz4 : Lz4) (gcm : AesGcm K)

/-- Every datagram of the packet fits the receiver's buffer, and the packet parses when it comes
out of it. -/
structure Acceptable (packet : OutgoingPacket) : Prop where
  datagram : ∀ (crypto : Option K) (env : BuildEnv) (sequence : UInt32),
    (buildPacket lz4 gcm crypto env packet sequence).2.length ≤ kMaxBufferSize
  parsed : ∀ incoming : IncomingPacket, incoming.type = packet.type →
    incoming.channel = packet.channel → incoming.data = packet.heapData →
      (parseTransferChunkPacket incoming).isSome

end Acceptable

/-! ## The size of the datagram -/

/-- What encryption adds to a payload. -/
def encryptionOverhead (encrypted : Bool) : Nat :=
  if encrypted then kNonceSize + kTagSize else 0

/-- Encryption under a key and a nonce does not fail. -/
def AesGcm.Total {K : Type} (gcm : AesGcm K) : Prop :=
  ∀ key nonce aad plaintext, (gcm.encrypt key nonce aad plaintext).isSome

section Datagram

variable {K : Type} {lz4 : Lz4} {gcm : AesGcm K} {encrypted : Bool} {destination : UInt32}
  {payload : Bytes}

/-- The size of a chunk's datagram. -/
def datagramSize (encrypted : Bool) (payload : Bytes) : Nat :=
  kPacketHeaderWireSize + kReliableHeaderWireSize + kUncompressedHeaderWireSize +
    encryptionOverhead encrypted + payload.length

theorem compressPayload_chunkPacket :
    compressPayload lz4 (chunkPacket encrypted destination payload) =
      (chunkPacket encrypted destination payload,
        (chunkPacket encrypted destination payload).heapData) := by
  unfold compressPayload
  exact if_neg fun h => Bool.false_ne_true h.1

theorem sizeOfHeaders_chunkPacket :
    sizeOfHeaders (chunkPacket encrypted destination payload).flags =
      kPacketHeaderWireSize + kReliableHeaderWireSize + kUncompressedHeaderWireSize := rfl

/-- Encryption adds nonce and tag. -/
theorem length_encryptPayloadIfNeeded (sized : gcm.Sized) {crypto : Option K}
    {nonce : Option Nonce} {packet : OutgoingPacket} {sequence : UInt32}
    {plaintext encrypted : Bytes}
    (h : encryptPayloadIfNeeded gcm crypto nonce packet sequence plaintext = some encrypted) :
    encrypted.length = encryptionOverhead packet.flags.encrypted + plaintext.length := by
  unfold encryptPayloadIfNeeded at h
  split at h
  · rename_i hplain
    obtain rfl := Option.some.inj h
    simp [encryptionOverhead, hplain]
  · rename_i hflag
    cases crypto with
    | none => cases h
    | some key =>
        obtain ⟨n, c, t, -, -, hencrypt, rfl⟩ := encryptPayload_eq_some h
        obtain ⟨hc, ht⟩ := sized _ _ _ _ _ _ hencrypt
        have hn := n.length_eq
        simp only [encryptionOverhead, Bool.eq_true_of_not_eq_false hflag, if_true,
          List.length_append]
        omega

theorem exists_encryptPayloadIfNeeded (total : gcm.Total) (key : K) (nonce : Nonce)
    (packet : OutgoingPacket) (sequence : UInt32) {plaintext : Bytes} (hne : plaintext ≠ []) :
    ∃ encrypted, encryptPayloadIfNeeded gcm (some key) (some nonce) packet sequence plaintext =
      some encrypted := by
  unfold encryptPayloadIfNeeded
  split
  · exact ⟨plaintext, rfl⟩
  · simp only [encryptPayload, List.length_eq_zero_iff, hne, if_false]
    split
    · rename_i hfailed
      exact absurd hfailed (Option.isSome_iff_ne_none.mp (total ..))
    · exact ⟨_, rfl⟩

theorem length_buildPacket_le (sized : gcm.Sized) (hlength : payload.length < 2 ^ 32)
    (crypto : Option K) (env : BuildEnv) (sequence : UInt32) :
    (buildPacket lz4 gcm crypto env (chunkPacket encrypted destination payload)
      sequence).2.length ≤ datagramSize encrypted payload := by
  rcases hbuilt : buildPacket lz4 gcm crypto env (chunkPacket encrypted destination payload)
    sequence with ⟨packetInfo, bytes⟩
  by_cases hempty : bytes = []
  · rw [hempty]
    exact Nat.zero_le _
  obtain ⟨compressed, body, hcompress, hencrypt, -, rfl⟩ := buildPacket_eq hbuilt hempty
  rw [compressPayload_chunkPacket] at hcompress
  obtain ⟨rfl, rfl⟩ := Prod.mk.inj hcompress
  have hbody := length_encryptPayloadIfNeeded sized hencrypt
  rw [show (chunkPacket encrypted destination payload).heapData = payload from
    OutgoingPacket.heapData_ofData hlength] at hbody
  rw [length_datagram, sizeOfHeaders_chunkPacket, hbody, datagramSize, ← Nat.add_assoc]
  rfl

variable (lz4 destination) in
/-- With a key and a nonce the datagram has that size. -/
theorem exists_length_buildPacket [Nonempty K] (sized : gcm.Sized) (total : gcm.Total)
    (hne : payload ≠ []) (hlength : datagramSize encrypted payload ≤ kMaxU32) :
    ∃ (crypto : Option K) (env : BuildEnv) (sequence : UInt32),
      (buildPacket lz4 gcm crypto env (chunkPacket encrypted destination payload)
        sequence).2.length = datagramSize encrypted payload := by
  obtain ⟨key⟩ := ‹Nonempty K›
  have hpayload : payload.length < 2 ^ 32 := by
    unfold datagramSize kMaxU32 at hlength
    omega
  have hheap : (chunkPacket encrypted destination payload).heapData = payload :=
    OutgoingPacket.heapData_ofData hpayload
  set packet := chunkPacket encrypted destination payload with hpacket
  set nonce : Nonce := ⟨List.replicate kNonceSize 0, List.length_replicate⟩
  have hplain : packet.heapData ≠ [] := by rwa [hheap]
  obtain ⟨body, hencrypt⟩ :=
    exists_encryptPayloadIfNeeded total key nonce packet 0 hplain
  have hbody := length_encryptPayloadIfNeeded sized hencrypt
  have hsize : sizeOfHeaders packet.flags + body.length = datagramSize encrypted payload := by
    rw [sizeOfHeaders_chunkPacket, hbody, hheap, datagramSize, ← Nat.add_assoc]
    rfl
  refine ⟨some key, ⟨0, some nonce⟩, 0, ?_⟩
  rw [buildPacket_of_fits (fun h => packet.heap_ptr hplain h.2) compressPayload_chunkPacket
    hencrypt (hsize.trans_le hlength), length_datagram]
  exact hsize

variable (lz4 destination) in
/-- Whether the datagrams of a chunk's packet fit the buffer. -/
theorem fits_buffer_iff [Nonempty K] (sized : gcm.Sized) (total : gcm.Total)
    (hne : payload ≠ []) (hlength : datagramSize encrypted payload ≤ kMaxU32) :
    (∀ (crypto : Option K) (env : BuildEnv) (sequence : UInt32),
      (buildPacket lz4 gcm crypto env (chunkPacket encrypted destination payload)
        sequence).2.length ≤ kMaxBufferSize) ↔
      datagramSize encrypted payload ≤ kMaxBufferSize := by
  constructor
  · intro h
    obtain ⟨crypto, env, sequence, hsize⟩ :=
      exists_length_buildPacket lz4 destination sized total hne hlength
    exact hsize.symm.trans_le (h crypto env sequence)
  · intro hfits crypto env sequence
    refine (length_buildPacket_le sized ?_ crypto env sequence).trans hfits
    unfold datagramSize kMaxU32 at hlength
    omega

end Datagram

/-! ## What the parser makes of a chunk -/

section Payload

variable {content : Bytes} {transfer : Transfer} {tuning : TransferTuning} {path : Bytes}
  {counter : UInt64} {i : Nat}

theorem index_eq_zero (hi : i < transfer.totalChunks.toNat) : UInt32.ofNat i = 0 ↔ i = 0 := by
  rw [← UInt32.toNat_inj, toNat_index hi]
  rfl

variable (content) in
theorem length_payload (hi : i < transfer.totalChunks.toNat) :
    (transfer.payload content i).length =
      kFixedHeaderSize + (if i = 0 then transfer.fileName.length else 0) +
        (block transfer.chunkSize.toNat content i).length := by
  rw [transfer.payload_eq, List.length_append, List.length_append, ChunkHeader.length_wire,
    ← Nat.add_assoc, Transfer.chunkName, apply_ite List.length]
  simp only [index_eq_zero hi, List.length_nil]

variable (content transfer i) in
theorem readChunkHeader_payload : readChunkHeader (transfer.payload content i) =
    some (transfer.chunkHeader content i, kFixedHeaderSize) := by
  rw [transfer.payload_eq]
  exact readChunkHeader_wire (wireFlags_known ..) _

theorem fileSize_of_parse_payload {chunk : TransferChunk}
    (h : parseTransferChunkPayload (transfer.payload content i) = some chunk) :
    chunk.fileSize = transfer.fileSize := by
  simp only [parseTransferChunkPayload, readChunkHeader_payload, Option.bind_eq_bind,
    Option.bind_some, Option.bind_eq_some_iff, Option.guard_eq_some', exists_const] at h
  obtain ⟨-, -, -, -, -, -, hchunk⟩ := h
  exact congrArg TransferChunk.fileSize (Option.some.inj hchunk).symm

/-- A payload that parses has an id and a name that pass the checks. -/
theorem checks_of_parse_payload {chunk : TransferChunk}
    (hname : transfer.fileName.length ≤ 0xFFFF)
    (h : parseTransferChunkPayload (transfer.payload content i) = some chunk) :
    transfer.transferId ≠ 0 ∧ (i = 0 → containsPathTraversal transfer.fileName = false) := by
  set payload := transfer.payload content i with hpayload
  have hread := readChunkHeader_payload content transfer i
  rw [← hpayload] at hread
  simp only [parseTransferChunkPayload, hread, Option.bind_eq_bind, Option.bind_some,
    Option.bind_eq_some_iff, Option.guard_eq_some', exists_const] at h
  obtain ⟨hcheck, -, hsafe, -⟩ := h
  refine ⟨(ChunkHeader.check_iff.mp hcheck).transferId_ne, ?_⟩
  rintro rfl
  have hbody : payload.drop kFixedHeaderSize =
      transfer.fileName ++ block transfer.chunkSize.toNat content 0 := by
    rw [hpayload, transfer.payload_eq]
    exact List.drop_left' ((transfer.chunkHeader content 0).length_wire)
  have hsize : (transfer.chunkHeader content 0).fileNameSize.toNat =
      transfer.fileName.length := by
    show (UInt16.ofNat transfer.fileName.length).toNat = _
    rw [UInt16.toNat_ofNat', Nat.mod_eq_of_lt (by omega)]
  rw [hbody, hsize, List.take_left] at hsafe
  exact Bool.eq_false_of_not_eq_true fun htraversal =>
    hsafe ⟨wireFlags_hasFileName .., htraversal⟩

/-- The name stands in the payload of chunk 0 only. -/
theorem payload_rename (name : Bytes) (hne : UInt32.ofNat i ≠ 0) :
    ({ transfer with fileName := name }).payload content i = transfer.payload content i := by
  simp only [Transfer.payload, Transfer.chunkPayload, Transfer.checksumUpTo, hne]
  rfl

/-- The payloads of a transfer that `SendFile` set up parse exactly if the id and, on chunk 0,
the name pass the checks. -/
theorem parse_payload_isSome_iff
    (h : transfer.Prepared tuning path (SourceFile.ofContent content) counter)
    (hi : i < transfer.totalChunks.toNat) :
    (parseTransferChunkPayload (transfer.payload content i)).isSome ↔
      counter ≠ 0 ∧ (i = 0 → containsPathTraversal (baseName path) = false) := by
  rw [← h.transferId, ← h.fileName]
  constructor
  · intro hsome
    obtain ⟨chunk, hparse⟩ := Option.isSome_iff_exists.mp hsome
    exact checks_of_parse_payload h.fileName_le hparse
  · rintro ⟨hid, hsafe⟩
    by_cases hzero : i = 0
    · have hsend := h.sendable (h.transferId ▸ hid) (h.fileName ▸ hsafe hzero)
      rw [hsend.parse_payload hi]
      rfl
    · -- a chunk without the name parses as if the file had another one
      have hrenamed : ({ transfer with fileName := [0x61] }).Prepared tuning [0x61]
          (SourceFile.ofContent content) counter :=
        { h with
          fileName := (by decide : [0x61] = baseName [0x61])
          fileName_ne := List.cons_ne_nil 0x61 []
          fileName_le := Nat.le_of_ble_eq_true rfl }
      have hsend := hrenamed.sendable (h.transferId ▸ hid) (by decide)
      rw [← payload_rename [0x61] ((index_eq_zero hi).not.mpr hzero), hsend.parse_payload hi]
      rfl

end Payload

/-! ## The condition on a chunk -/

/-- The receiver takes chunk `i` of `content` sent from `path`. -/
def ChunkFits (encrypted : Bool) (tuning : TransferTuning) (path content : Bytes)
    (counter : UInt64) (i : Nat) : Prop :=
  counter ≠ 0 ∧ (i = 0 → containsPathTraversal (baseName path) = false) ∧
    kPacketHeaderWireSize + kReliableHeaderWireSize + kUncompressedHeaderWireSize +
        encryptionOverhead encrypted + kFixedHeaderSize +
        (if i = 0 then (baseName path).length else 0) +
        (block tuning.chunkSize.toNat content i).length ≤ kMaxBufferSize

section ChunkFits

variable {K : Type} [Nonempty K] {lz4 : Lz4} {gcm : AesGcm K} {encrypted : Bool}
  {destination : UInt32} {tuning : TransferTuning} {path content : Bytes} {counter : UInt64}
  {transfer : Transfer} {i : Nat}

/-- The packet of a payload that `OutgoingPacket` can hold. -/
theorem acceptable_chunkPacket {payload : Bytes} (sized : gcm.Sized) (total : gcm.Total)
    (hne : payload ≠ []) (hsize : datagramSize encrypted payload ≤ kMaxU32) :
    Acceptable lz4 gcm (chunkPacket encrypted destination payload) ↔
      datagramSize encrypted payload ≤ kMaxBufferSize ∧
        (parseTransferChunkPayload payload).isSome := by
  have hheap : (chunkPacket encrypted destination payload).heapData = payload := by
    refine OutgoingPacket.heapData_ofData ?_
    unfold datagramSize kMaxU32 at hsize
    omega
  have hparse {incoming : IncomingPacket} (htype : incoming.type = PacketType.fileTransfer)
      (hchannel : incoming.channel = .control) (hdata : incoming.data = payload) :
      parseTransferChunkPacket incoming = parseTransferChunkPayload payload := by
    rw [parseTransferChunkPacket, if_neg (by simp [htype, hchannel]), hdata]
  rw [← fits_buffer_iff lz4 destination sized total hne hsize]
  constructor
  · intro h
    refine ⟨h.datagram, ?_⟩
    have hparsed := h.parsed ⟨.control, (chunkPacket encrypted destination payload).flags,
      PacketType.fileTransfer, 0, 0, 0, payload⟩ rfl rfl hheap.symm
    rwa [hparse rfl rfl rfl] at hparsed
  · rintro ⟨hfits, hparsed⟩
    refine ⟨hfits, fun incoming htype hchannel hdata => ?_⟩
    rwa [hparse htype hchannel (hdata.trans hheap)]

/-- The packet of a chunk. -/
theorem acceptable_chunk_iff (sized : gcm.Sized) (total : gcm.Total)
    (h : transfer.Prepared tuning path (SourceFile.ofContent content) counter)
    (hi : i < transfer.totalChunks.toNat)
    (hlength : (transfer.payload content i).length ≤
      kFixedHeaderSize + transfer.fileName.length + 2 ^ 31) :
    Acceptable lz4 gcm (chunkPacket encrypted destination (transfer.payload content i)) ↔
      ChunkFits encrypted tuning path content counter i := by
  have hchunkSize : transfer.chunkSize.toNat = tuning.chunkSize.toNat := by
    rw [← h.chunkSize, UInt32.toNat_toUInt64]
  have hpayload := length_payload content hi
  have hsize : datagramSize encrypted (transfer.payload content i) ≤ kMaxU32 := by
    have hname := h.fileName_le
    have hoverhead : encryptionOverhead encrypted ≤ kNonceSize + kTagSize := by
      cases encrypted <;> decide
    unfold datagramSize kMaxU32 kPacketHeaderWireSize kReliableHeaderWireSize
      kUncompressedHeaderWireSize
    unfold kNonceSize kTagSize at hoverhead
    unfold kFixedHeaderSize at hlength
    omega
  have hne : transfer.payload content i ≠ [] := by
    rw [← List.length_pos_iff, hpayload]
    unfold kFixedHeaderSize
    omega
  rw [acceptable_chunkPacket sized total hne hsize, parse_payload_isSome_iff h hi, datagramSize,
    hpayload, h.fileName, hchunkSize, ChunkFits]
  constructor
  · rintro ⟨hfits, hid, hsafe⟩
    exact ⟨hid, hsafe, by omega⟩
  · rintro ⟨hid, hsafe, hfits⟩
    exact ⟨by omega, hid, hsafe⟩

end ChunkFits

/-- The receiver takes all chunk packets that a successful `SendFile` put on the queue exactly
if the id is not 0, chunk 0 goes without path traversal in the name, and each chunk fits one
datagram. -/
theorem queued_acceptable_iff {K : Type} [Nonempty K] (lz4 : Lz4) {gcm : AesGcm K}
    (sized : gcm.Sized) (total : gcm.Total) (encrypted : Bool) (destination : UInt32)
    (tuning : TransferTuning) (turns : Nat → SendTurn) (path content : Bytes)
    (counter : UInt64) (layer : ZAsyncTransportLayer) :
    let run := (sendFile encrypted destination tuning turns path
      (some (SourceFile.ofContent content)) counter layer).1
    run.result = some true →
      ((∀ call ∈ run.calls, ∀ queued ∈ call.put, Acceptable lz4 gcm queued.packet) ↔
        ∀ call ∈ run.calls, call.HasRoom →
          ChunkFits encrypted tuning path content counter call.chunkIndex) := by
  intro run hresult
  obtain ⟨transfer, hprepared, hindices, hcalls⟩ := sent_calls (rfl : run = _) hresult
  refine forall₂_congr fun call hcall => ?_
  obtain ⟨hreported, hpayload⟩ := hcalls call hcall
  have hi : call.chunkIndex < transfer.totalChunks.toNat := by
    rw [← List.mem_range, ← hindices]
    exact List.mem_map_of_mem hcall
  have hlength : (transfer.payload content call.chunkIndex).length ≤
      kFixedHeaderSize + transfer.fileName.length + 2 ^ 31 := by
    obtain ⟨bytes, checksum, hbytes, heq⟩ := hreported.payload
    rw [← hpayload, heq]
    refine (transfer.length_chunkPayload_le ..).trans ?_
    omega
  have hchunk := @acceptable_chunk_iff K _ lz4 gcm encrypted destination tuning path content
    counter transfer call.chunkIndex sized total hprepared hi hlength
  obtain ⟨hroom, hfull⟩ := hreported.put_eq
  by_cases hcase : call.HasRoom
  · rw [hroom hcase, List.forall_mem_singleton, imp_iff_right hcase, hreported.queued, hpayload]
    exact hchunk
  · rw [hfull hcase]
    exact iff_of_true (fun queued hqueued => absurd hqueued List.not_mem_nil)
      fun h => absurd h hcase

/-- The one byte of a file is sent from `path`. -/
def sendOneByteFrom (path : Bytes) : SendRun :=
  (sendFile true ZPeerId.toAll {} (fun _ => ⟨[⟨id, 0⟩], id, 0⟩) path
    (some (SourceFile.ofContent [0x7A])) 1 ⟨.connected, ZPacketQueue.init 0⟩).1

theorem queued_acceptable_iff_fiveBytes :
    sendFiveBytes.calls.map (fun call => call.put.length) = [1, 1, 1] ∧
      ∀ call ∈ sendFiveBytes.calls, ∀ queued ∈ call.put,
        Acceptable literalLz4 maskGcm queued.packet := by
  refine ⟨by decide +kernel, (queued_acceptable_iff literalLz4 maskGcm_sized (fun _ _ _ _ => rfl)
    false ZPeerId.toAll { chunkSize := 2 } (fun _ => ⟨[⟨id, 0⟩], id, 0⟩) [0x61] [1, 2, 3, 4, 5] 1
    ⟨.connected, ZPacketQueue.init 0⟩ (by decide +kernel)).mpr fun call _ _ => ?_⟩
  have hblock := length_block 2 ([1, 2, 3, 4, 5] : Bytes) call.chunkIndex
  refine ⟨by decide, fun _ => by decide, ?_⟩
  have hname : (if call.chunkIndex = 0 then (baseName [0x61]).length else 0) ≤ 1 := by
    split
    · decide
    · decide
  show 20 + 8 + 4 + 0 + 48 + _ + (block 2 ([1, 2, 3, 4, 5] : Bytes) call.chunkIndex).length ≤ 65507
  omega

/-- A file called `a..` is sent, and the parser refuses its only packet. -/
theorem dotted_name_refused :
    (sendOneByteFrom [0x61, 0x2E, 0x2E]).result = some true ∧
      ∃ call ∈ (sendOneByteFrom [0x61, 0x2E, 0x2E]).calls, ∃ queued ∈ call.put,
        parseTransferChunkPacket
          { sampleIncoming with
            type := queued.packet.type
            channel := queued.packet.channel
            data := queued.packet.heapData } = none := by
  decide +kernel

end ZetaNet
