import ZetaNet.Handshake.Messages
import ZetaNet.Wire.Reading

/-!
# Reading a handshake message

The parses of `ProcessSystemMessage` once more, read by read: each access is kept apart from
the test before it, and the reader is returned where it ends. They compute what the parses of
the model compute, without a fault, and end behind the last byte of a message that the other
side wrote.
-/

namespace ZetaNet

open Wire Checks SystemCommands

/-- An optional list. -/
def readFlaggedListOrExit (flag : UInt8) (reader : PacketReader) (error : MalformedMessage) :
    Except (Stop MalformedMessage) (Bytes × PacketReader) :=
  if flag > 0 then reader.readListOrExit error else .ok ([], reader)

theorem readFlaggedListOrExit_eq (flag : UInt8) (reader : PacketReader)
    (error : MalformedMessage) :
    readFlaggedListOrExit flag reader error = safely (readFlaggedList flag reader error) := by
  unfold readFlaggedListOrExit readFlaggedList
  split
  · exact reader.readListOrExit_eq error
  · rfl

/-! ## The structs -/

namespace SystemCommands

def ClientHello.ofBytes : Bytes → Option ClientHello
  | [a, b, c, d] => some ⟨a, b, c, d⟩
  | _ => none

def ServerHello.ofBytes : Bytes → Option ServerHello
  | [a, b, c, d, e] => some ⟨a, b, c, d, e⟩
  | _ => none

def ClientAuthProof.ofBytes : Bytes → Option ClientAuthProof
  | [a] => some ⟨a⟩
  | _ => none

variable {ε : Type} (reader : PacketReader) (error : ε)

theorem readClientHello_eq :
    reader.readStructOrExit 4 ClientHello.ofBytes error =
      safely (succeed (readClientHello reader) error) := by
  rw [PacketReader.readStructOrExit_eq fun | [_, _, _, _], _ => rfl]
  congr 2
  unfold readClientHello
  cases hread : reader.readS 4 with
  | none => rfl
  | some found =>
      obtain ⟨bytes, next⟩ := found
      match bytes, PacketReader.length_of_readS hread with
      | [_, _, _, _], _ => rfl

theorem readServerHello_eq :
    reader.readStructOrExit 5 ServerHello.ofBytes error =
      safely (succeed (readServerHello reader) error) := by
  rw [PacketReader.readStructOrExit_eq fun | [_, _, _, _, _], _ => rfl]
  congr 2
  unfold readServerHello
  cases hread : reader.readS 5 with
  | none => rfl
  | some found =>
      obtain ⟨bytes, next⟩ := found
      match bytes, PacketReader.length_of_readS hread with
      | [_, _, _, _, _], _ => rfl

theorem readClientAuthProof_eq :
    reader.readStructOrExit 1 ClientAuthProof.ofBytes error =
      safely (succeed (readClientAuthProof reader) error) := by
  rw [PacketReader.readStructOrExit_eq fun | [_], _ => rfl]
  congr 2
  unfold readClientAuthProof
  cases hread : reader.readS 1 with
  | none => rfl
  | some found =>
      obtain ⟨bytes, next⟩ := found
      match bytes, PacketReader.length_of_readS hread with
      | [_], _ => rfl

end SystemCommands

/-! ## The messages -/

/-- `ZServer::ProcessSystemMessage`, `ClientHello`: client key and challenge, and the reader
behind them. -/
def scanClientHello (data : Bytes) :
    Except (Stop MalformedMessage) ((Bytes × Bytes) × PacketReader) := do
  let (request, reader) ←
    (PacketReader.ofBytes data).readStructOrExit 4 ClientHello.ofBytes .missingHeader
  let (_, reader) ← reader.readSOrExit request.encryptionAlgoListLen.toNat
    .invalidEncryptionAlgorithmList
  let (_, reader) ← reader.readSOrExit request.compressionAlgoListLen.toNat
    .invalidCompressionAlgorithmList
  let (clientKey, reader) ←
    readFlaggedListOrExit request.pubKeyListLen reader .invalidPublicKey
  let (clientChallenge, reader) ←
    readFlaggedListOrExit request.challengeLen reader .missingChallenge
  return ((clientKey, clientChallenge), reader)

/-- `ZClient::ProcessSystemMessage`, `ServerHello`: server key, challenge and proof, and the
reader behind them. -/
def scanServerHello (data : Bytes) :
    Except (Stop MalformedMessage) ((Bytes × Bytes × Bytes) × PacketReader) := do
  let (response, reader) ←
    (PacketReader.ofBytes data).readStructOrExit 5 ServerHello.ofBytes .missingHeader
  let (_, reader) ← reader.readSOrExit response.encryptionAlgoListLen.toNat
    .invalidEncryptionAlgorithmList
  let (_, reader) ← reader.readSOrExit response.compressionAlgoListLen.toNat
    .invalidCompressionAlgorithmList
  let (key, reader) ← reader.readListOrExit .invalidPublicKey
  let (serverChallenge, reader) ←
    readFlaggedListOrExit response.challengeLen reader .missingChallenge
  let (serverProof, reader) ← readFlaggedListOrExit response.proofLen reader .missingProof
  return ((key, serverChallenge, serverProof), reader)

/-- `ZServer::ProcessSystemMessage`, `ClientAuthProof`: the proof, and the reader behind it. -/
def scanClientAuthProof (data : Bytes) :
    Except (Stop MalformedMessage) (Bytes × PacketReader) := do
  let (_, reader) ←
    (PacketReader.ofBytes data).readStructOrExit 1 ClientAuthProof.ofBytes .missingHeader
  reader.readListOrExit .missingProof

/-! ## No faults -/

/-- The scan reads what the parse reads, and has no faults. -/
def Scans {α : Type} (scan : Except (Stop MalformedMessage) (α × PacketReader))
    (parse : Except MalformedMessage α) : Prop := Prod.fst <$> scan = safely parse

theorem scans_return {α : Type} (value : α) (reader : PacketReader) :
    Scans (.ok (value, reader)) (.ok value) := rfl

theorem Scans.bind {α β : Type} {computation : Except MalformedMessage β}
    {next : β → Except (Stop MalformedMessage) (α × PacketReader)}
    {next' : β → Except MalformedMessage α} (h : ∀ value, Scans (next value) (next' value)) :
    Scans (safely computation >>= next) (computation >>= next') := by
  cases computation with
  | error error => rfl
  | ok value => exact h value

theorem scans_clientHello (data : Bytes) :
    Scans (scanClientHello data) (parseClientHello data) := by
  unfold scanClientHello parseClientHello
  rw [readClientHello_eq]
  refine Scans.bind fun (request, reader) => ?_
  dsimp only
  rw [PacketReader.readSOrExit_eq]
  refine Scans.bind fun (_, reader) => ?_
  dsimp only
  rw [PacketReader.readSOrExit_eq]
  refine Scans.bind fun (_, reader) => ?_
  dsimp only
  rw [readFlaggedListOrExit_eq]
  refine Scans.bind fun (clientKey, reader) => ?_
  dsimp only
  rw [readFlaggedListOrExit_eq]
  exact Scans.bind fun (clientChallenge, reader) => scans_return _ reader

theorem scans_serverHello (data : Bytes) :
    Scans (scanServerHello data) (parseServerHello data) := by
  unfold scanServerHello parseServerHello
  rw [readServerHello_eq]
  refine Scans.bind fun (response, reader) => ?_
  dsimp only
  rw [PacketReader.readSOrExit_eq]
  refine Scans.bind fun (_, reader) => ?_
  dsimp only
  rw [PacketReader.readSOrExit_eq]
  refine Scans.bind fun (_, reader) => ?_
  dsimp only
  rw [PacketReader.readListOrExit_eq]
  refine Scans.bind fun (key, reader) => ?_
  dsimp only
  rw [readFlaggedListOrExit_eq]
  refine Scans.bind fun (serverChallenge, reader) => ?_
  dsimp only
  rw [readFlaggedListOrExit_eq]
  exact Scans.bind fun (serverProof, reader) => scans_return _ reader

theorem scans_clientAuthProof (data : Bytes) :
    Scans (scanClientAuthProof data) (parseClientAuthProof data) := by
  unfold scanClientAuthProof parseClientAuthProof
  rw [readClientAuthProof_eq]
  refine Scans.bind fun (_, reader) => ?_
  dsimp only
  rw [PacketReader.readListOrExit_eq]
  cases reader.readList with
  | none => rfl
  | some found => rfl

theorem Scans.eq_error {α : Type} {scan : Except (Stop MalformedMessage) (α × PacketReader)}
    {error : MalformedMessage} (h : Scans scan (.error error : Except MalformedMessage α)) :
    scan = .error (.exit error) := by
  cases scan with
  | error stop => exact congrArg _ (Except.error.inj h)
  | ok found => cases h

theorem Scans.eq_ok {α : Type} {scan : Except (Stop MalformedMessage) (α × PacketReader)}
    {value : α} (h : Scans scan (.ok value)) : ∃ reader, scan = .ok (value, reader) := by
  cases scan with
  | error stop => cases h
  | ok found => exact ⟨found.2, congrArg _ (Prod.ext (Except.ok.inj h) rfl)⟩

/-! ## Where the reader ends -/

/-- A scan of `data` that succeeds with `value` behind the last byte. -/
def ScansWhole {α : Type} (scan : Except (Stop MalformedMessage) (α × PacketReader)) (value : α)
    (data : Bytes) : Prop :=
  ∃ reader, scan = .ok (value, reader) ∧ reader.offset = data.length

/-- A reader with nothing left to come stands behind the last byte. -/
theorem PacketReader.At.offset_eq {reader : PacketReader} {front data : Bytes}
    (h : reader.At front []) (hdata : data = front) : reader.offset = data.length := by
  rw [hdata]
  exact h.2

theorem scanClientHello_clientHelloData {publicKey challenge : Bytes}
    (hkey : publicKey.length ≤ 65535) (hchallenge : challenge.length ≤ 255) :
    ScansWhole (scanClientHello (clientHelloData publicKey challenge)) (publicKey, challenge)
      (clientHelloData publicKey challenge) := by
  obtain ⟨_, _, _, _, _, last, hheader, hencryption, hcompression, hreadKey, hreadChallenge,
    hat⟩ := walk_clientHelloData hkey hchallenge
  refine ⟨last, ?_, hat.offset_eq rfl⟩
  simp only [scanClientHello, readClientHello_eq, PacketReader.readSOrExit_eq,
    readFlaggedListOrExit_eq, hheader, hencryption, hcompression, hreadKey, hreadChallenge,
    succeed_some, safely_ok, ok_bind]
  rfl

theorem scanServerHello_serverHelloData {publicKey challenge proof : Bytes}
    (hkey : publicKey.length ≤ 65535) (hchallenge : challenge.length ≤ 255)
    (hproof : proof.length ≤ 255) :
    ScansWhole (scanServerHello (serverHelloData publicKey challenge proof))
      (publicKey, challenge, proof) (serverHelloData publicKey challenge proof) := by
  rw [serverHelloData_eq hkey (by omega) (by omega), ← List.append_nil (flaggedListBytes proof)]
  obtain ⟨_, _, _, _, reader, front, hheader, hencryption, hcompression, hreadKey,
    hreadChallenge, hat, hdata⟩ := walk_serverHelloFront
      (serverHelloHeader publicKey challenge proof) publicKey challenge
      (flaggedListBytes proof ++ []) rfl rfl (lengthFlag_pos hchallenge) hkey (by omega)
  obtain ⟨last, hread, hend⟩ :=
    readFlaggedList_at .missingProof hat (by omega) (lengthFlag_pos hproof)
  have hreadProof : readFlaggedList (serverHelloHeader publicKey challenge proof).proofLen reader
      .missingProof = .ok (proof, last) := hread
  refine ⟨last, ?_, hend.offset_eq (by rw [hdata, List.append_nil])⟩
  simp only [scanServerHello, readServerHello_eq, PacketReader.readSOrExit_eq,
    PacketReader.readListOrExit_eq, readFlaggedListOrExit_eq, hheader, hencryption, hcompression,
    hreadKey, hreadChallenge, hreadProof, succeed_some, safely_ok, ok_bind]
  rfl

end ZetaNet
