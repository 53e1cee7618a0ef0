import ZetaNet.Lib.Checks
import ZetaNet.Wire.SystemCommand

/-!
# The hello payloads

What `SendClientHello`, `SendServerHello` and `SendClientAuthProof` write, and how the
`ProcessSystemMessage` of the other side takes it apart.
-/

namespace ZetaNet

open Checks PacketWriter SystemCommands

/-- The exits of the two `ProcessSystemMessage` that log a malformed message. -/
inductive MalformedMessage
  | missingHeader
  | invalidEncryptionAlgorithmList
  | invalidCompressionAlgorithmList
  | invalidPublicKey
  | missingChallenge
  | missingProof
  deriving DecidableEq, Repr

/-- `EncryptionAlgorithm::AESCBC128`, the whole of `encryption_algorithms`. -/
def kAesCbc128 : UInt8 := 1

/-- `CompressionAlgorithm::LZ4`, the whole of `compression_algorithms`. -/
def kLz4 : UInt8 := 1

/-! ## Writing -/

/-- The payload of `SendClientHello`; without a crypto context both strings are empty. -/
def clientHelloData (publicKey challenge : Bytes) : Bytes :=
  let request : ClientHello :=
    { encryptionAlgoListLen := 1
      compressionAlgoListLen := 1
      pubKeyListLen := if publicKey = [] then 0 else 1
      challengeLen := UInt8.ofNat challenge.length }
  let writer := PacketWriter.empty.putStruct request.bytes
  let writer := (writer.putU8 kAesCbc128).putU8 kLz4
  let writer := if publicKey = [] then writer else writer.putList publicKey
  let writer := if challenge = [] then writer else writer.putList challenge
  writer.data

/-- The payload of `SendServerHello`, which writes the key list even when it is empty. -/
def serverHelloData (publicKey challenge proof : Bytes) : Bytes :=
  let request : ServerHello :=
    { encryptionAlgoListLen := 1
      compressionAlgoListLen := 1
      pubKeyListLen := if publicKey = [] then 0 else 1
      challengeLen := UInt8.ofNat challenge.length
      proofLen := UInt8.ofNat proof.length }
  let writer := PacketWriter.empty.putStruct request.bytes
  let writer := (writer.putU8 kAesCbc128).putU8 kLz4
  let writer := writer.putList publicKey
  let writer := if challenge = [] then writer else writer.putList challenge
  let writer := if proof = [] then writer else writer.putList proof
  writer.data

/-- The payload of `SendClientAuthProof`. -/
def clientAuthProofData (proof : Bytes) : Bytes :=
  let request : ClientAuthProof := { proofLen := UInt8.ofNat proof.length }
  ((PacketWriter.empty.putStruct request.bytes).putList proof).data

/-! ## Parsing -/

/-- An optional list: it is on the wire if its flag is not zero. -/
def readFlaggedList (flag : UInt8) (reader : PacketReader) (error : MalformedMessage) :
    Except MalformedMessage (Bytes × PacketReader) :=
  if flag > 0 then succeed reader.readList error else .ok ([], reader)

/-- `ZServer::ProcessSystemMessage`, `ClientHello`: client key and challenge. -/
def parseClientHello (data : Bytes) : Except MalformedMessage (Bytes × Bytes) := do
  let (request, reader) ← succeed (readClientHello (PacketReader.ofBytes data)) .missingHeader
  let (_, reader) ←
    succeed (reader.readS request.encryptionAlgoListLen.toNat) .invalidEncryptionAlgorithmList
  let (_, reader) ←
    succeed (reader.readS request.compressionAlgoListLen.toNat) .invalidCompressionAlgorithmList
  let (clientKey, reader) ← readFlaggedList request.pubKeyListLen reader .invalidPublicKey
  let (clientChallenge, _) ← readFlaggedList request.challengeLen reader .missingChallenge
  return (clientKey, clientChallenge)

/-- `ZClient::ProcessSystemMessage`, `ServerHello`: server key, challenge and proof. -/
def parseServerHello (data : Bytes) : Except MalformedMessage (Bytes × Bytes × Bytes) := do
  let (response, reader) ← succeed (readServerHello (PacketReader.ofBytes data)) .missingHeader
  let (_, reader) ←
    succeed (reader.readS response.encryptionAlgoListLen.toNat) .invalidEncryptionAlgorithmList
  let (_, reader) ←
    succeed (reader.readS response.compressionAlgoListLen.toNat) .invalidCompressionAlgorithmList
  let (key, reader) ← succeed reader.readList .invalidPublicKey
  let (serverChallenge, reader) ← readFlaggedList response.challengeLen reader .missingChallenge
  let (serverProof, _) ← readFlaggedList response.proofLen reader .missingProof
  return (key, serverChallenge, serverProof)

/-- `ZServer::ProcessSystemMessage`, `ClientAuthProof`: the proof. -/
def parseClientAuthProof (data : Bytes) : Except MalformedMessage Bytes := do
  let (_, reader) ← succeed (readClientAuthProof (PacketReader.ofBytes data)) .missingHeader
  let (proof, _) ← succeed reader.readList .missingProof
  return proof

/-! ## The bytes written -/

/-- The wire form of an optional list. -/
def flaggedListBytes (bytes : Bytes) : Bytes := if bytes = [] then [] else listBytes bytes

theorem data_putFlaggedList (writer : PacketWriter) {bytes : Bytes} (h : bytes.length ≤ 65535) :
    (if bytes = [] then writer else writer.putList bytes).data =
      writer.data ++ flaggedListBytes bytes := by
  unfold flaggedListBytes
  split
  · rw [List.append_nil]
  · exact data_putList writer h

theorem clientHelloData_eq {publicKey challenge : Bytes} (hkey : publicKey.length ≤ 65535)
    (hchallenge : challenge.length ≤ 65535) :
    clientHelloData publicKey challenge =
      (⟨1, 1, if publicKey = [] then 0 else 1, UInt8.ofNat challenge.length⟩ :
          ClientHello).bytes ++
        ([kAesCbc128] ++ ([kLz4] ++ (flaggedListBytes publicKey ++
          flaggedListBytes challenge))) := by
  rw [clientHelloData]
  simp only [data_putFlaggedList _ hkey, data_putFlaggedList _ hchallenge, data_putU8,
    data_putStruct, data_empty, List.nil_append, List.append_assoc]

theorem length_flaggedListBytes_le (bytes : Bytes) :
    (flaggedListBytes bytes).length ≤ bytes.length + 2 := by
  unfold flaggedListBytes listBytes
  split
  · exact Nat.zero_le _
  · simp [Nat.add_comm]

theorem length_clientHelloData_lt {publicKey challenge : Bytes}
    (hkey : publicKey.length ≤ 65535) (hchallenge : challenge.length ≤ 65535) :
    (clientHelloData publicKey challenge).length < 2 ^ 32 := by
  have hk := length_flaggedListBytes_le publicKey
  have hc := length_flaggedListBytes_le challenge
  rw [clientHelloData_eq hkey hchallenge]
  simp only [List.length_append, ClientHello.bytes, List.length_cons, List.length_nil]
  omega

/-! ## Parsing what was written -/

/-- The flag of a list of at most 255 bytes says whether the list is there. -/
theorem readFlaggedList_at {reader : PacketReader} {front bytes back : Bytes} {flag : UInt8}
    (error : MalformedMessage) (h : reader.At front (flaggedListBytes bytes ++ back))
    (hlen : bytes.length ≤ 65535) (hflag : flag > 0 ↔ bytes ≠ []) :
    ∃ next, readFlaggedList flag reader error = .ok (bytes, next) ∧
      next.At (front ++ flaggedListBytes bytes) back := by
  unfold flaggedListBytes at *
  by_cases hempty : bytes = []
  · subst hempty
    have hoff : ¬ flag > 0 := fun hpos => hflag.mp hpos rfl
    exact ⟨reader, by rw [readFlaggedList, if_neg hoff], by simpa using h⟩
  · rw [if_neg hempty] at *
    obtain ⟨next, hread, hat⟩ := PacketReader.readList_at h hlen
    exact ⟨next, by rw [readFlaggedList, if_pos (hflag.mpr hempty), hread, succeed_some], hat⟩

theorem lengthFlag_pos {bytes : Bytes} (h : bytes.length ≤ 255) :
    UInt8.ofNat bytes.length > 0 ↔ bytes ≠ [] := by
  have hnat : (UInt8.ofNat bytes.length).toNat = bytes.length := by
    rw [UInt8.toNat_ofNat']
    exact Nat.mod_eq_of_lt (by omega)
  rw [gt_iff_lt, UInt8.lt_iff_toNat_lt, hnat]
  exact List.length_pos_iff

/-- The reads of a client hello the client wrote, one behind the other to the last byte. -/
theorem walk_clientHelloData {publicKey challenge : Bytes}
    (hkey : publicKey.length ≤ 65535) (hchallenge : challenge.length ≤ 255) :
    ∃ hello header encryption compression key last,
      readClientHello (PacketReader.ofBytes (clientHelloData publicKey challenge)) =
        some (hello, header) ∧
      header.readS hello.encryptionAlgoListLen.toNat = some ([kAesCbc128], encryption) ∧
      encryption.readS hello.compressionAlgoListLen.toNat = some ([kLz4], compression) ∧
      readFlaggedList hello.pubKeyListLen compression .invalidPublicKey =
        .ok (publicKey, key) ∧
      readFlaggedList hello.challengeLen key .missingChallenge = .ok (challenge, last) ∧
      last.At (clientHelloData publicKey challenge) [] := by
  set hello : ClientHello :=
    ⟨1, 1, if publicKey = [] then 0 else 1, UInt8.ofNat challenge.length⟩
  have hdata : clientHelloData publicKey challenge = hello.bytes ++ ([kAesCbc128] ++ ([kLz4] ++
      (flaggedListBytes publicKey ++ (flaggedListBytes challenge ++ [])))) := by
    rw [clientHelloData_eq hkey (by omega), List.append_nil]
  have hkeyFlag : hello.pubKeyListLen > 0 ↔ publicKey ≠ [] := by
    simp only [hello]
    split <;> simp_all
  have hchallengeFlag : hello.challengeLen > 0 ↔ challenge ≠ [] := lengthFlag_pos hchallenge
  have hstart := PacketReader.at_ofBytes (clientHelloData publicKey challenge)
  rw [hdata] at hstart ⊢
  obtain ⟨_, hheader, h⟩ := readClientHello_at hello hstart
  obtain ⟨_, hencryption, h⟩ := PacketReader.readS_at h
    (show hello.encryptionAlgoListLen.toNat = [kAesCbc128].length from rfl)
  obtain ⟨_, hcompression, h⟩ := PacketReader.readS_at h
    (show hello.compressionAlgoListLen.toNat = [kLz4].length from rfl)
  obtain ⟨_, hreadKey, h⟩ := readFlaggedList_at .invalidPublicKey h hkey hkeyFlag
  obtain ⟨last, hreadChallenge, h⟩ :=
    readFlaggedList_at .missingChallenge h (by omega) hchallengeFlag
  refine ⟨hello, _, _, _, _, last, hheader, hencryption, hcompression, hreadKey, hreadChallenge,
    ?_⟩
  simpa only [List.append_assoc, List.nil_append, List.append_nil] using h

/-- The server reads back the key and the challenge the client wrote. -/
theorem parseClientHello_clientHelloData {publicKey challenge : Bytes}
    (hkey : publicKey.length ≤ 65535) (hchallenge : challenge.length ≤ 255) :
    parseClientHello (clientHelloData publicKey challenge) = .ok (publicKey, challenge) := by
  obtain ⟨_, _, _, _, _, _, hheader, hencryption, hcompression, hreadKey, hreadChallenge, -⟩ :=
    walk_clientHelloData hkey hchallenge
  simp only [parseClientHello, hheader, hencryption, hcompression, hreadKey, hreadChallenge,
    succeed_some, ok_bind]
  rfl

/-- The fields of a server hello up to the challenge, with whatever follows them. -/
def serverHelloFront (hello : ServerHello) (publicKey challenge tail : Bytes) : Bytes :=
  hello.bytes ++ ([kAesCbc128] ++ ([kLz4] ++ (listBytes publicKey ++
    (flaggedListBytes challenge ++ tail))))

/-- The header of the server hello for these three strings. -/
def serverHelloHeader (publicKey challenge proof : Bytes) : ServerHello where
  encryptionAlgoListLen := 1
  compressionAlgoListLen := 1
  pubKeyListLen := if publicKey = [] then 0 else 1
  challengeLen := UInt8.ofNat challenge.length
  proofLen := UInt8.ofNat proof.length

theorem serverHelloData_eq {publicKey challenge proof : Bytes}
    (hkey : publicKey.length ≤ 65535) (hchallenge : challenge.length ≤ 65535)
    (hproof : proof.length ≤ 65535) :
    serverHelloData publicKey challenge proof =
      serverHelloFront (serverHelloHeader publicKey challenge proof) publicKey challenge
        (flaggedListBytes proof) := by
  rw [serverHelloData, serverHelloFront, serverHelloHeader]
  simp only [data_putFlaggedList _ hchallenge, data_putFlaggedList _ hproof,
    data_putList _ hkey, data_putU8, data_putStruct, data_empty, List.nil_append,
    List.append_assoc]

/-- A proof too long for a list is left out, its flag is not. -/
theorem serverHelloData_long {publicKey challenge proof : Bytes}
    (hkey : publicKey.length ≤ 65535) (hchallenge : challenge.length ≤ 65535)
    (hproof : 65535 < proof.length) :
    serverHelloData publicKey challenge proof =
      serverHelloFront (serverHelloHeader publicKey challenge proof) publicKey challenge [] := by
  have hnonempty : proof ≠ [] := by
    intro h
    rw [h] at hproof
    exact absurd hproof (by decide)
  rw [serverHelloData, serverHelloFront, serverHelloHeader]
  simp only [if_neg hnonempty, putList_long _ hproof]
  simp only [data_putFlaggedList _ hchallenge, data_putList _ hkey, data_putU8,
    data_putStruct, data_empty, List.nil_append, List.append_assoc, List.append_nil]

theorem length_serverHelloFront (hello : ServerHello) (publicKey challenge tail : Bytes) :
    (serverHelloFront hello publicKey challenge tail).length ≤
      publicKey.length + challenge.length + tail.length + 11 := by
  have hc := length_flaggedListBytes_le challenge
  simp only [serverHelloFront, listBytes, List.length_append, ServerHello.bytes,
    List.length_cons, List.length_nil, Wire.length_leU16]
  omega

/-- Every server hello is its front and a short tail. -/
theorem serverHelloData_front {publicKey challenge : Bytes} (proof : Bytes)
    (hkey : publicKey.length ≤ 65535) (hchallenge : challenge.length ≤ 65535) :
    ∃ tail, tail.length ≤ 65537 ∧ serverHelloData publicKey challenge proof =
      serverHelloFront (serverHelloHeader publicKey challenge proof) publicKey challenge
        tail := by
  by_cases hproof : proof.length ≤ 65535
  · have hp := length_flaggedListBytes_le proof
    exact ⟨_, by omega, serverHelloData_eq hkey hchallenge hproof⟩
  · exact ⟨[], by simp, serverHelloData_long hkey hchallenge (by omega)⟩

theorem length_serverHelloData_lt {publicKey challenge : Bytes} (proof : Bytes)
    (hkey : publicKey.length ≤ 65535) (hchallenge : challenge.length ≤ 65535) :
    (serverHelloData publicKey challenge proof).length < 2 ^ 32 := by
  obtain ⟨tail, htail, hdata⟩ := serverHelloData_front proof hkey hchallenge
  have hfront := length_serverHelloFront (serverHelloHeader publicKey challenge proof) publicKey
    challenge tail
  rw [hdata]
  omega

/-- The reads of a server hello up to the challenge. -/
theorem walk_serverHelloFront (hello : ServerHello) (publicKey challenge tail : Bytes)
    (hencryption : hello.encryptionAlgoListLen = 1)
    (hcompression : hello.compressionAlgoListLen = 1)
    (hflag : hello.challengeLen > 0 ↔ challenge ≠ [])
    (hkey : publicKey.length ≤ 65535) (hchallenge : challenge.length ≤ 65535) :
    ∃ header encryption compression key reader front,
      readServerHello (PacketReader.ofBytes (serverHelloFront hello publicKey challenge tail)) =
        some (hello, header) ∧
      header.readS hello.encryptionAlgoListLen.toNat = some ([kAesCbc128], encryption) ∧
      encryption.readS hello.compressionAlgoListLen.toNat = some ([kLz4], compression) ∧
      compression.readList = some (publicKey, key) ∧
      readFlaggedList hello.challengeLen key .missingChallenge = .ok (challenge, reader) ∧
      reader.At front tail ∧ serverHelloFront hello publicKey challenge tail = front ++ tail := by
  obtain ⟨_, hheader, h⟩ := readServerHello_at hello
    (PacketReader.at_ofBytes (serverHelloFront hello publicKey challenge tail))
  obtain ⟨_, hencryption, h⟩ := PacketReader.readS_at h
    (show hello.encryptionAlgoListLen.toNat = [kAesCbc128].length by rw [hencryption]; rfl)
  obtain ⟨_, hcompression, h⟩ := PacketReader.readS_at h
    (show hello.compressionAlgoListLen.toNat = [kLz4].length by rw [hcompression]; rfl)
  obtain ⟨_, hreadKey, h⟩ := PacketReader.readList_at h hkey
  obtain ⟨reader, hreadChallenge, h⟩ :=
    readFlaggedList_at .missingChallenge h hchallenge hflag
  refine ⟨_, _, _, _, reader, _, hheader, hencryption, hcompression, hreadKey, hreadChallenge, h,
    ?_⟩
  simp only [serverHelloFront, List.append_assoc, List.nil_append]

/-- The client parses key and challenge, and is then left with the proof. -/
theorem parseServerHello_front (hello : ServerHello) (publicKey challenge tail : Bytes)
    (hencryption : hello.encryptionAlgoListLen = 1)
    (hcompression : hello.compressionAlgoListLen = 1)
    (hflag : hello.challengeLen > 0 ↔ challenge ≠ [])
    (hkey : publicKey.length ≤ 65535) (hchallenge : challenge.length ≤ 65535) :
    ∃ reader front, reader.At front tail ∧
      parseServerHello (serverHelloFront hello publicKey challenge tail) =
        (do
          let (proof, _) ← readFlaggedList hello.proofLen reader .missingProof
          return (publicKey, challenge, proof)) := by
  obtain ⟨_, _, _, _, reader, front, hheader, hencryption, hcompression, hreadKey,
    hreadChallenge, hat, -⟩ := walk_serverHelloFront hello publicKey challenge tail hencryption
      hcompression hflag hkey hchallenge
  refine ⟨reader, front, hat, ?_⟩
  simp only [parseServerHello, hheader, hencryption, hcompression, hreadKey, hreadChallenge,
    succeed_some, ok_bind]

/-- The client reads back what the server wrote. -/
theorem parseServerHello_serverHelloData {publicKey challenge proof : Bytes}
    (hkey : publicKey.length ≤ 65535) (hchallenge : challenge.length ≤ 255)
    (hproof : proof.length ≤ 255) :
    parseServerHello (serverHelloData publicKey challenge proof) =
      .ok (publicKey, challenge, proof) := by
  rw [serverHelloData_eq hkey (by omega) (by omega), ← List.append_nil (flaggedListBytes proof)]
  obtain ⟨reader, front, hat, hparse⟩ := parseServerHello_front
    (serverHelloHeader publicKey challenge proof) publicKey challenge
    (flaggedListBytes proof ++ []) rfl rfl (lengthFlag_pos hchallenge) hkey (by omega)
  obtain ⟨_, hread, -⟩ := readFlaggedList_at .missingProof hat (by omega) (lengthFlag_pos hproof)
  have hreadProof : readFlaggedList (serverHelloHeader publicKey challenge proof).proofLen reader
      .missingProof = .ok (proof, _) := hread
  rw [hparse, hreadProof, ok_bind]
  rfl

/-- Whatever the proof, the client takes no other key and challenge than the server's. -/
theorem parseServerHello_serverHelloData_keys {publicKey challenge proof : Bytes}
    (hkey : publicKey.length ≤ 65535) (hchallenge : challenge.length ≤ 255)
    {key' challenge' proof' : Bytes}
    (h : parseServerHello (serverHelloData publicKey challenge proof) =
      .ok (key', challenge', proof')) : key' = publicKey ∧ challenge' = challenge := by
  obtain ⟨tail, -, hdata⟩ :=
    serverHelloData_front proof hkey (show challenge.length ≤ 65535 by omega)
  obtain ⟨reader, -, -, hparse⟩ := parseServerHello_front
    (serverHelloHeader publicKey challenge proof) publicKey challenge tail rfl rfl
    (lengthFlag_pos hchallenge) hkey (by omega)
  rw [hdata, hparse] at h
  cases hread : readFlaggedList (serverHelloHeader publicKey challenge proof).proofLen reader
      .missingProof with
  | error e =>
      rw [hread, error_bind] at h
      cases h
  | ok found =>
      rw [hread, ok_bind] at h
      have hfields := Except.ok.inj h
      exact ⟨(congrArg Prod.fst hfields).symm, (congrArg (·.2.1) hfields).symm⟩

theorem clientAuthProofData_eq {proof : Bytes} (h : proof.length ≤ 65535) :
    clientAuthProofData proof =
      (⟨UInt8.ofNat proof.length⟩ : ClientAuthProof).bytes ++ (listBytes proof ++ []) := by
  rw [clientAuthProofData]
  simp only [data_putList _ h, data_putStruct, data_empty, List.nil_append, List.append_nil]

theorem length_clientAuthProofData_lt {proof : Bytes} (h : proof.length ≤ 65535) :
    (clientAuthProofData proof).length < 2 ^ 32 := by
  rw [clientAuthProofData_eq h]
  simp only [listBytes, List.length_append, ClientAuthProof.bytes, List.length_cons,
    List.length_nil, Wire.length_leU16]
  omega

/-- The server reads back the proof the client wrote. -/
theorem parseClientAuthProof_clientAuthProofData {proof : Bytes} (h : proof.length ≤ 65535) :
    parseClientAuthProof (clientAuthProofData proof) = .ok proof := by
  have hdata := clientAuthProofData_eq h
  have hstart := PacketReader.at_ofBytes (clientAuthProofData proof)
  rw [hdata] at hstart
  obtain ⟨_, hheader, hat⟩ := readClientAuthProof_at _ hstart
  obtain ⟨_, hreadProof, -⟩ := PacketReader.readList_at hat h
  rw [← hdata] at hheader
  simp only [parseClientAuthProof, hheader, hreadProof, succeed_some, ok_bind]
  rfl

end ZetaNet
