import ZetaNet.Lib.Machine
import ZetaNet.Packet.RoundTrip
import ZetaNet.Transport.Dispatcher

/-!
# Dispatch tasks side by side

The executor runs any number of dispatches at once, and each reads the sequence counter twice
and increments it in a third step, with its send in between. The numbers of two packets are
different, and receipts lie under the numbers that were sent, exactly as long as every send
finds the counter where its task read it and no other task on the way to its increment.
-/

namespace ZetaNet

open PacketDispatcher

/-- A call of `DispatchToOne` or `DispatchToServer`. -/
structure DispatchCall (A : Type) where
  target : Target A
  env : SendEnv
  queued : Queued

/-- How far a call has come: it has built its datagram, sent it, stored its receipt, and
incremented the counter or given up. -/
inductive DispatchPhase
  | ready
  | built (packet : OutgoingPacket) (bytes : Bytes) (sequenceNumber : UInt32)
  | sent (packet : OutgoingPacket) (sequenceNumber : UInt32)
  | stored (packet : OutgoingPacket) (sequenceNumber : UInt32)
  | finished (outcome : Option (OutgoingPacket × UInt32))

/-- Between its send and its increment. -/
def DispatchPhase.InProgress : DispatchPhase → Prop
  | .sent _ _ | .stored _ _ => True
  | _ => False

/-- The packet and the number of a call that has passed `AddReceiptIfNeeded`. -/
def DispatchPhase.receipted : DispatchPhase → Option (OutgoingPacket × UInt32)
  | .stored packet sequenceNumber => some (packet, sequenceNumber)
  | .finished outcome => outcome
  | _ => none

/-- The shared dispatcher, the calls on their way, and what the socket took. -/
structure Dispatching (ι A : Type) where
  dispatcher : PacketDispatcher
  phase : ι → DispatchPhase
  sent : List (Sent A)

namespace Dispatching

variable {K ι A : Type} [DecidableEq ι]

def start (first : UInt32) : Dispatching ι A where
  dispatcher := ⟨first, ∅, 0, 0⟩
  phase _ := .ready
  sent := []

def setPhase (i : ι) (phase : DispatchPhase) (s : Dispatching ι A) : Dispatching ι A :=
  { s with phase := Function.update s.phase i phase }

section Steps

variable (lz4 : Lz4) (gcm : AesGcm K) (crypto : Option K) (calls : ι → DispatchCall A)

/-- The next atomic step of call `i`. -/
def advance (i : ι) (s : Dispatching ι A) : Option (Dispatching ι A) :=
  let call := calls i
  match s.phase i with
  | .ready =>
      let sequenceNumber := s.dispatcher.nextOutgoingSequenceNumber
      let (packet, bytes) :=
        buildPacket lz4 gcm crypto call.env.build call.queued.packet sequenceNumber
      if bytes = [] then some (s.setPhase i (.finished none))
      else some (s.setPhase i (.built packet bytes sequenceNumber))
  | .built packet bytes sequenceNumber =>
      if call.env.sendOk = false then some (s.setPhase i (.finished none))
      else
        some { s.setPhase i (.sent packet sequenceNumber) with
          sent := s.sent ++ [⟨call.target, bytes, call.queued, sequenceNumber, false⟩] }
  | .sent packet sequenceNumber =>
      some { s.setPhase i (.stored packet sequenceNumber) with
        dispatcher := s.dispatcher.addReceiptIfNeeded call.env { call.queued with packet } }
  | .stored packet sequenceNumber =>
      some { s.setPhase i (.finished (some (packet, sequenceNumber))) with
        dispatcher :=
          { s.dispatcher with
            nextOutgoingSequenceNumber := s.dispatcher.nextOutgoingSequenceNumber + 1 } }
  | .finished _ => none

/-- Any call may take the next step. -/
def machine : Machine (Dispatching ι A) ι where
  step s i := s.advance lz4 gcm crypto calls i

end Steps

section Advance

variable {lz4 : Lz4} {gcm : AesGcm K} {crypto : Option K} {calls : ι → DispatchCall A} {i : ι}
  {s : Dispatching ι A} {packet : OutgoingPacket} {bytes : Bytes} {sequenceNumber : UInt32}

@[simp] theorem phase_setPhase_self (phase : DispatchPhase) :
    (s.setPhase i phase).phase i = phase :=
  Function.update_self ..

theorem phase_setPhase_of_ne {j : ι} (h : j ≠ i) (phase : DispatchPhase) :
    (s.setPhase i phase).phase j = s.phase j :=
  Function.update_of_ne h ..

theorem setPhase_setPhase (phase phase' : DispatchPhase) :
    (s.setPhase i phase).setPhase i phase' = s.setPhase i phase' := by
  simp [setPhase]

theorem advance_ready (hphase : s.phase i = .ready)
    (hbuilt : buildPacket lz4 gcm crypto (calls i).env.build (calls i).queued.packet
      s.dispatcher.nextOutgoingSequenceNumber = (packet, bytes)) :
    s.advance lz4 gcm crypto calls i =
      if bytes = [] then some (s.setPhase i (.finished none))
      else some (s.setPhase i
        (.built packet bytes s.dispatcher.nextOutgoingSequenceNumber)) := by
  unfold advance
  simp only [hphase, hbuilt]

theorem advance_built (hphase : s.phase i = .built packet bytes sequenceNumber) :
    s.advance lz4 gcm crypto calls i =
      if (calls i).env.sendOk = false then some (s.setPhase i (.finished none))
      else
        some { s.setPhase i (.sent packet sequenceNumber) with
          sent := s.sent ++
            [⟨(calls i).target, bytes, (calls i).queued, sequenceNumber, false⟩] } := by
  unfold advance
  simp only [hphase]

theorem advance_sent (hphase : s.phase i = .sent packet sequenceNumber) :
    s.advance lz4 gcm crypto calls i =
      some { s.setPhase i (.stored packet sequenceNumber) with
        dispatcher := s.dispatcher.addReceiptIfNeeded (calls i).env
          { (calls i).queued with packet } } := by
  unfold advance
  simp only [hphase]

theorem advance_stored (hphase : s.phase i = .stored packet sequenceNumber) :
    s.advance lz4 gcm crypto calls i =
      some { s.setPhase i (.finished (some (packet, sequenceNumber))) with
        dispatcher :=
          { s.dispatcher with
            nextOutgoingSequenceNumber := s.dispatcher.nextOutgoingSequenceNumber + 1 } } := by
  unfold advance
  simp only [hphase]

/-- A call that runs on its own is `dispatchTo`. -/
theorem exec_alone (hready : s.phase i = .ready) :
    let call := calls i
    let result := dispatchTo lz4 gcm crypto call.target call.env call.queued s.dispatcher
    ∃ steps outcome, (machine lz4 gcm crypto calls).exec s (List.replicate steps i) =
      some ⟨result.1, Function.update s.phase i (.finished outcome), s.sent ++ result.2⟩ := by
  dsimp only
  rcases hbuilt : buildPacket lz4 gcm crypto (calls i).env.build (calls i).queued.packet
    s.dispatcher.nextOutgoingSequenceNumber with ⟨packet, bytes⟩
  have hfirst := advance_ready hready hbuilt
  unfold dispatchTo
  simp only [hbuilt]
  have hexec {a b c : Dispatching ι A} {js : List ι}
      (hstep : a.advance lz4 gcm crypto calls i = some b)
      (hrest : (machine lz4 gcm crypto calls).exec b js = some c) :
      (machine lz4 gcm crypto calls).exec a (i :: js) = some c :=
    (Machine.exec_cons_eq_some _).mpr ⟨b, hstep, hrest⟩
  by_cases hempty : bytes = []
  · rw [if_pos hempty] at hfirst
    refine ⟨1, none, hexec hfirst ?_⟩
    rw [if_pos hempty, List.append_nil]
    rfl
  rw [if_neg hempty] at hfirst
  rw [if_neg hempty]
  have hbuiltPhase := s.phase_setPhase_self (i := i)
    (.built packet bytes s.dispatcher.nextOutgoingSequenceNumber)
  by_cases hsend : (calls i).env.sendOk = false
  · refine ⟨2, none, hexec hfirst (hexec ((advance_built hbuiltPhase).trans (if_pos hsend)) ?_)⟩
    rw [if_pos hsend, setPhase_setPhase, List.append_nil]
    rfl
  · refine ⟨4, some (packet, s.dispatcher.nextOutgoingSequenceNumber),
      hexec hfirst (hexec ((advance_built hbuiltPhase).trans (if_neg hsend))
        (hexec (advance_sent (phase_setPhase_self _))
          (hexec (advance_stored (phase_setPhase_self _)) ?_)))⟩
    rw [if_neg hsend]
    simp [setPhase]

end Advance

/-! ## What is wanted -/

/-- The receipt of a packet that `BuildPacket` has left as `packet`. -/
def receiptOf (call : DispatchCall A) (packet : OutgoingPacket) : Queued :=
  { call.queued with
    packet :=
      { packet with
        flags := { packet.flags with awaitingAck := true }
        lastSendTime := call.env.unixTime.toUInt32 } }

/-- The receipts are those of the packets sent, each under the number it was sent with. -/
structure ReceiptsMatch (calls : ι → DispatchCall A) (s : Dispatching ι A) : Prop where
  stored : ∀ i packet sequenceNumber,
    (s.phase i).receipted = some (packet, sequenceNumber) → NeedsReceipt packet →
      s.dispatcher.awaitingAckPackets.lookup sequenceNumber = some (receiptOf (calls i) packet)
  sent : ∀ k receipt, s.dispatcher.awaitingAckPackets.lookup k = some receipt →
    ∃ i packet, (s.phase i).receipted = some (packet, k) ∧ receipt = receiptOf (calls i) packet

/-- No two packets were sent with one number, and the receipts lie under theirs. -/
structure NumbersOk (calls : ι → DispatchCall A) (s : Dispatching ι A) : Prop where
  unique : (s.sent.map Sent.sequenceNumber).Nodup
  receipts : s.ReceiptsMatch calls

/-- If call `i` sends next, the counter is where the call read it, no other call is between its
send and its increment, and the numbers are not used up. -/
def SendsAlone (calls : ι → DispatchCall A) (s : Dispatching ι A) (i : ι) : Prop :=
  ∀ packet bytes sequenceNumber, s.phase i = .built packet bytes sequenceNumber →
    (calls i).env.sendOk = true →
    sequenceNumber = s.dispatcher.nextOutgoingSequenceNumber ∧
      (∀ j, ¬ (s.phase j).InProgress) ∧ s.sent.length < 2 ^ 32

instance (phase : DispatchPhase) : Decidable phase.InProgress :=
  match phase with
  | .sent _ _ | .stored _ _ => isTrue trivial
  | .ready | .built _ _ _ | .finished _ => isFalse id

instance [Fintype ι] (s : Dispatching ι A) (i : ι) : Decidable (s.SendsAlone calls i) :=
  match hphase : s.phase i with
  | .built _ _ sequenceNumber =>
      decidable_of_iff ((calls i).env.sendOk = true →
        sequenceNumber = s.dispatcher.nextOutgoingSequenceNumber ∧
          (∀ j, ¬ (s.phase j).InProgress) ∧ s.sent.length < 2 ^ 32)
        ⟨fun h _ _ _ heq => by
            cases hphase.symm.trans heq
            exact h,
          fun h => h _ _ _ hphase⟩
  | .ready | .sent _ _ | .stored _ _ | .finished _ =>
      isTrue fun _ _ _ heq => by cases hphase.symm.trans heq

/-! ## Numbers in a row -/

/-- The numbers from `first` on, with the wrap of the counter. -/
def numbersFrom (first : UInt32) (count : Nat) : List UInt32 :=
  (List.range count).map fun k => first + UInt32.ofNat k

theorem numbersFrom_succ (first : UInt32) (count : Nat) :
    numbersFrom first (count + 1) = numbersFrom first count ++ [first + UInt32.ofNat count] := by
  rw [numbersFrom, List.range_succ, List.map_append, List.map_singleton, numbersFrom]

theorem add_ofNat_inj {first : UInt32} {a b : Nat} (ha : a < 2 ^ 32) (hb : b < 2 ^ 32)
    (h : first + UInt32.ofNat a = first + UInt32.ofNat b) : a = b := by
  have hnat := congrArg UInt32.toNat (UInt32.add_right_inj first |>.mp h)
  rwa [UInt32.toNat_ofNat', UInt32.toNat_ofNat', Nat.mod_eq_of_lt ha, Nat.mod_eq_of_lt hb] at hnat

theorem mem_numbersFrom {first : UInt32} {count m : Nat} (h : m < count) :
    first + UInt32.ofNat m ∈ numbersFrom first count :=
  List.mem_map.mpr ⟨m, List.mem_range.mpr h, rfl⟩

/-- After 2^32 numbers every number has been there. -/
theorem mem_numbersFrom_of_le {first : UInt32} {count : Nat} (h : 2 ^ 32 ≤ count) (m : Nat) :
    first + UInt32.ofNat m ∈ numbersFrom first count := by
  have hmod : UInt32.ofNat m = UInt32.ofNat (m % 2 ^ 32) := by
    apply UInt32.toNat_inj.mp
    rw [UInt32.toNat_ofNat', UInt32.toNat_ofNat', Nat.mod_mod]
  rw [hmod]
  exact mem_numbersFrom (Nat.lt_of_lt_of_le (Nat.mod_lt _ (by decide)) h)

/-- The next number is new for as long as there are any. -/
theorem notMem_numbersFrom {first : UInt32} {count : Nat} (h : count < 2 ^ 32) :
    first + UInt32.ofNat count ∉ numbersFrom first count := by
  intro hmem
  obtain ⟨k, hk, heq⟩ := List.mem_map.mp hmem
  have hk := List.mem_range.mp hk
  exact absurd (add_ofNat_inj (Nat.lt_trans hk h) h heq) (Nat.ne_of_lt hk)

/-! ## One step -/

section Step

variable {lz4 : Lz4} {gcm : AesGcm K} {crypto : Option K} {calls : ι → DispatchCall A}
  {first : UInt32} {completed : Nat} {i : ι} {s s' : Dispatching ι A}

theorem phase_setPhase (j : ι) (phase : DispatchPhase) :
    (s.setPhase i phase).phase j = if j = i then phase else s.phase j :=
  Function.update_apply ..

/-- Where the calls stand when all sends so far were alone: `completed` of them are through, and
at most one more has sent. -/
structure InOrder (first : UInt32) (completed : Nat) (s : Dispatching ι A) : Prop where
  counter : s.dispatcher.nextOutgoingSequenceNumber = first + UInt32.ofNat completed
  numbers : s.sent.map Sent.sequenceNumber = numbersFrom first s.sent.length
  few : s.sent.length ≤ 2 ^ 32
  read : ∀ i packet bytes sequenceNumber, s.phase i = .built packet bytes sequenceNumber →
    ∃ m ≤ completed, sequenceNumber = first + UInt32.ofNat m
  carried : ∀ i packet sequenceNumber, s.phase i = .sent packet sequenceNumber ∨
    s.phase i = .stored packet sequenceNumber → sequenceNumber = first + UInt32.ofNat completed
  through : ∀ i packet sequenceNumber, s.phase i = .finished (some (packet, sequenceNumber)) →
    ∃ m < completed, sequenceNumber = first + UInt32.ofNat m
  one : ∀ i j, (s.phase i).InProgress → (s.phase j).InProgress → i = j
  count : s.sent.length = completed ∧ (∀ i, ¬ (s.phase i).InProgress) ∨
    s.sent.length = completed + 1 ∧ ∃ i, (s.phase i).InProgress

omit [DecidableEq ι] in
theorem inOrder_start (first : UInt32) : InOrder first 0 (start first : Dispatching ι A) where
  counter := (UInt32.add_zero first).symm
  numbers := rfl
  few := Nat.zero_le _
  read _ _ _ _ h := by cases h
  carried _ _ _ h := by rcases h with h | h <;> cases h
  through _ _ _ h := by cases h
  one _ _ h := h.elim
  count := .inl ⟨rfl, fun _ h => h⟩

omit [DecidableEq ι] in
/-- Receipts and what is receipted stay. -/
theorem ReceiptsMatch.congr (hs : s.ReceiptsMatch calls)
    (hreceipted : ∀ j, (s'.phase j).receipted = (s.phase j).receipted)
    (hreceipts : s'.dispatcher.awaitingAckPackets = s.dispatcher.awaitingAckPackets) :
    s'.ReceiptsMatch calls where
  stored j packet sequenceNumber h hneeds := by
    rw [hreceipts]
    exact hs.stored j packet sequenceNumber ((hreceipted j).symm.trans h) hneeds
  sent k receipt h := by
    rw [hreceipts] at h
    obtain ⟨j, packet, hj, heq⟩ := hs.sent k receipt h
    exact ⟨j, packet, (hreceipted j).trans hj, heq⟩

/-- A phase of the same standing. -/
theorem receipted_setPhase {phase : DispatchPhase}
    (hphase : phase.receipted = (s.phase i).receipted) (j : ι) :
    ((s.setPhase i phase).phase j).receipted = (s.phase j).receipted := by
  rw [phase_setPhase]
  split
  · rename_i hj
    rw [hphase, hj]
  · rfl

/-- The calls that have read a number, when one of them moves on. -/
theorem InOrder.read_setPhase (hs : InOrder first completed s) {phase : DispatchPhase}
    (hread : ∀ packet bytes sequenceNumber, phase = .built packet bytes sequenceNumber →
      sequenceNumber = s.dispatcher.nextOutgoingSequenceNumber) (j : ι)
    (packet : OutgoingPacket) (bytes : Bytes) (sequenceNumber : UInt32)
    (h : (s.setPhase i phase).phase j = .built packet bytes sequenceNumber) :
    ∃ m ≤ completed, sequenceNumber = first + UInt32.ofNat m := by
  rw [phase_setPhase] at h
  split at h
  · exact ⟨completed, Nat.le_refl _, (hread _ _ _ h).trans hs.counter⟩
  · exact hs.read j packet bytes sequenceNumber h

/-- The calls that are through, when another moves on. -/
theorem InOrder.through_setPhase (hs : InOrder first completed s) {phase : DispatchPhase}
    (hthrough : ∀ outcome, phase ≠ .finished (some outcome)) (j : ι)
    (packet : OutgoingPacket) (sequenceNumber : UInt32)
    (h : (s.setPhase i phase).phase j = .finished (some (packet, sequenceNumber))) :
    ∃ m < completed, sequenceNumber = first + UInt32.ofNat m := by
  rw [phase_setPhase] at h
  split at h
  · exact absurd h (hthrough _)
  · exact hs.through j packet sequenceNumber h

/-- A call that has not sent moves on without sending. -/
theorem InOrder.setPhase (hs : InOrder first completed s) {phase : DispatchPhase}
    (hbefore : ¬ (s.phase i).InProgress) (hafter : ¬ phase.InProgress)
    (hread : ∀ packet bytes sequenceNumber, phase = .built packet bytes sequenceNumber →
      sequenceNumber = s.dispatcher.nextOutgoingSequenceNumber)
    (hthrough : ∀ outcome, phase ≠ .finished (some outcome)) :
    InOrder first completed (s.setPhase i phase) := by
  have hprogress (j : ι) :
      ((s.setPhase i phase).phase j).InProgress ↔ (s.phase j).InProgress := by
    rw [phase_setPhase]
    split
    · rename_i hj
      exact iff_of_false hafter (hj ▸ hbefore)
    · rfl
  refine
    { hs with
      read := hs.read_setPhase hread
      carried := ?_
      through := hs.through_setPhase hthrough
      one := fun j k hj hk => hs.one j k ((hprogress j).mp hj) ((hprogress k).mp hk)
      count := ?_ }
  · intro j packet sequenceNumber h
    have hj : ((s.setPhase i phase).phase j).InProgress := by
      rcases h with h | h <;> rw [h] <;> trivial
    rw [phase_setPhase] at h hj
    split at h
    · rename_i heq
      rw [if_pos heq] at hj
      exact absurd hj hafter
    · exact hs.carried j packet sequenceNumber h
  · rcases hs.count with ⟨hlength, hnone⟩ | ⟨hlength, j, hj⟩
    · exact .inl ⟨hlength, fun j hj => hnone j ((hprogress j).mp hj)⟩
    · exact .inr ⟨hlength, j, (hprogress j).mpr hj⟩

omit [DecidableEq ι] in
/-- The number a call has read is new exactly if it sends alone. -/
theorem InOrder.notMem_iff (hs : InOrder first completed s) {packet : OutgoingPacket}
    {bytes : Bytes} {sequenceNumber : UInt32}
    (hphase : s.phase i = .built packet bytes sequenceNumber) :
    sequenceNumber ∉ s.sent.map Sent.sequenceNumber ↔
      sequenceNumber = s.dispatcher.nextOutgoingSequenceNumber ∧
        (∀ j, ¬ (s.phase j).InProgress) ∧ s.sent.length < 2 ^ 32 := by
  obtain ⟨m, hm, rfl⟩ := hs.read i packet bytes sequenceNumber hphase
  rw [hs.numbers, hs.counter]
  constructor
  · intro hnew
    have hlength : s.sent.length ≤ m := by
      by_contra h
      exact hnew (mem_numbersFrom (by omega))
    rcases hs.count with ⟨hcount, hnone⟩ | ⟨hcount, -⟩
    · obtain rfl : m = completed := by omega
      refine ⟨rfl, hnone, ?_⟩
      by_contra h
      exact hnew (mem_numbersFrom_of_le (by omega) _)
    · omega
  · rintro ⟨heq, hnone, hfew⟩
    rcases hs.count with ⟨hcount, -⟩ | ⟨-, j, hj⟩
    · rw [heq, ← hcount]
      exact notMem_numbersFrom hfew
    · exact absurd hj (hnone j)

/-- A send that is alone. -/
theorem InOrder.send (hs : InOrder first completed s) {packet : OutgoingPacket}
    {sequenceNumber : UInt32} {sent : Sent A} (hsent : sent.sequenceNumber = sequenceNumber)
    (hnumber : sequenceNumber = s.dispatcher.nextOutgoingSequenceNumber)
    (hnone : ∀ j, ¬ (s.phase j).InProgress) (hfew : s.sent.length < 2 ^ 32) :
    InOrder first completed
      { s.setPhase i (.sent packet sequenceNumber) with sent := s.sent ++ [sent] } := by
  have hcount : s.sent.length = completed := by
    rcases hs.count with ⟨hcount, -⟩ | ⟨-, j, hj⟩
    · exact hcount
    · exact absurd hj (hnone j)
  -- the sender is now the only call in progress
  have hself : ((s.setPhase i (.sent packet sequenceNumber)).phase i).InProgress := by
    rw [phase_setPhase_self]
    trivial
  have honly (j : ι)
      (hj : ((s.setPhase i (.sent packet sequenceNumber)).phase j).InProgress) : j = i := by
    by_contra hne
    rw [phase_setPhase, if_neg hne] at hj
    exact hnone j hj
  refine
    { counter := hs.counter
      numbers := ?_
      few := ?_
      read := ?_
      carried := ?_
      through := ?_
      one := fun j k hj hk => (honly j hj).trans (honly k hk).symm
      count := .inr ⟨by simp [hcount], i, hself⟩ }
  · rw [List.map_append, hs.numbers, List.length_append, List.length_singleton,
      numbersFrom_succ, List.map_singleton, hsent, hnumber, hs.counter, hcount]
  · rw [List.length_append, List.length_singleton]
    omega
  · intro j packet' bytes sequenceNumber' h
    change (s.setPhase i _).phase j = _ at h
    exact hs.read_setPhase (fun _ _ _ h => by cases h) j packet' bytes sequenceNumber' h
  · intro j packet' sequenceNumber' h
    change (s.setPhase i _).phase j = _ ∨ (s.setPhase i _).phase j = _ at h
    rw [phase_setPhase] at h
    split at h
    · rcases h with h | h
      · obtain ⟨-, rfl⟩ := DispatchPhase.sent.inj h
        exact hnumber.trans hs.counter
      · cases h
    · exact hs.carried j packet' sequenceNumber' h
  · intro j packet' sequenceNumber' h
    change (s.setPhase i _).phase j = _ at h
    exact hs.through_setPhase (fun _ h => by cases h) j packet' sequenceNumber' h

/-- The receipt of a call that sent alone. -/
theorem InOrder.store (hs : InOrder first completed s) {packet : OutgoingPacket}
    {sequenceNumber : UInt32} (hphase : s.phase i = .sent packet sequenceNumber)
    {dispatcher : PacketDispatcher}
    (hcounter : dispatcher.nextOutgoingSequenceNumber =
      s.dispatcher.nextOutgoingSequenceNumber) :
    InOrder first completed
      { s.setPhase i (.stored packet sequenceNumber) with dispatcher } := by
  -- the call was in progress and stays so
  have hprogress (j : ι) :
      ((s.setPhase i (.stored packet sequenceNumber)).phase j).InProgress ↔
        (s.phase j).InProgress := by
    rw [phase_setPhase]
    split
    · rename_i hj
      rw [hj, hphase]
      rfl
    · rfl
  refine
    { counter := hcounter.trans hs.counter
      numbers := hs.numbers
      few := hs.few
      read := ?_
      carried := ?_
      through := ?_
      one := fun j k hj hk => hs.one j k ((hprogress j).mp hj) ((hprogress k).mp hk)
      count := ?_ }
  · intro j packet' bytes sequenceNumber' h
    change (s.setPhase i _).phase j = _ at h
    exact hs.read_setPhase (fun _ _ _ h => by cases h) j packet' bytes sequenceNumber' h
  · intro j packet' sequenceNumber' h
    change (s.setPhase i _).phase j = _ ∨ (s.setPhase i _).phase j = _ at h
    rw [phase_setPhase] at h
    split at h
    · rcases h with h | h
      · cases h
      · obtain ⟨-, rfl⟩ := DispatchPhase.stored.inj h
        exact hs.carried i packet sequenceNumber (.inl hphase)
    · exact hs.carried j packet' sequenceNumber' h
  · intro j packet' sequenceNumber' h
    change (s.setPhase i _).phase j = _ at h
    exact hs.through_setPhase (fun _ h => by cases h) j packet' sequenceNumber' h
  · rcases hs.count with ⟨hlength, hnone⟩ | ⟨hlength, j, hj⟩
    · exact .inl ⟨hlength, fun j hj => hnone j ((hprogress j).mp hj)⟩
    · exact .inr ⟨hlength, j, (hprogress j).mpr hj⟩

/-- The increment of a call that sent alone. -/
theorem InOrder.increment (hs : InOrder first completed s) {packet : OutgoingPacket}
    {sequenceNumber : UInt32} (hphase : s.phase i = .stored packet sequenceNumber) :
    InOrder first (completed + 1)
      { s.setPhase i (.finished (some (packet, sequenceNumber))) with
        dispatcher :=
          { s.dispatcher with
            nextOutgoingSequenceNumber := s.dispatcher.nextOutgoingSequenceNumber + 1 } } := by
  have hself : (s.phase i).InProgress := by
    rw [hphase]
    trivial
  -- the only call in progress is through
  have hnone (j : ι) : ¬ ((s.setPhase i
      (.finished (some (packet, sequenceNumber)))).phase j).InProgress := by
    rw [phase_setPhase]
    split
    · exact fun h => h
    · rename_i hne
      exact fun hj => hne (hs.one j i hj hself)
  refine
    { counter := ?_
      numbers := hs.numbers
      few := hs.few
      read := ?_
      carried := ?_
      through := ?_
      one := fun j k hj _ => absurd hj (hnone j)
      count := ?_ }
  · show s.dispatcher.nextOutgoingSequenceNumber + 1 = _
    rw [hs.counter, UInt32.add_assoc]
    congr 1
    apply UInt32.toNat_inj.mp
    simp
  · intro j packet' bytes sequenceNumber' h
    change (s.setPhase i _).phase j = _ at h
    rw [phase_setPhase] at h
    split at h
    · cases h
    · obtain ⟨m, hm, heq⟩ := hs.read j packet' bytes sequenceNumber' h
      exact ⟨m, Nat.le_succ_of_le hm, heq⟩
  · intro j packet' sequenceNumber' h
    have hj : ((s.setPhase i
        (.finished (some (packet, sequenceNumber)))).phase j).InProgress := by
      change (s.setPhase i _).phase j = _ ∨ (s.setPhase i _).phase j = _ at h
      rcases h with h | h <;> rw [h] <;> trivial
    exact absurd hj (hnone j)
  · intro j packet' sequenceNumber' h
    change (s.setPhase i _).phase j = _ at h
    rw [phase_setPhase] at h
    split at h
    · obtain ⟨-, rfl⟩ := Prod.mk.inj (Option.some.inj (DispatchPhase.finished.inj h))
      exact ⟨completed, Nat.lt_succ_self _, hs.carried i packet _ (.inr hphase)⟩
    · obtain ⟨m, hm, heq⟩ := hs.through j packet' sequenceNumber' h
      exact ⟨m, Nat.lt_succ_of_lt hm, heq⟩
  · rcases hs.count with ⟨-, hnone⟩ | ⟨hlength, -⟩
    · exact absurd hself (hnone i)
    · exact .inl ⟨hlength, hnone⟩

omit [DecidableEq ι] in
/-- The counter's number has no receipt while a call stands between send and receipt. -/
theorem InOrder.lookup_counter (hs : InOrder first completed s) (hreceipts : s.ReceiptsMatch calls)
    {packet : OutgoingPacket} {sequenceNumber : UInt32}
    (hphase : s.phase i = .sent packet sequenceNumber) :
    s.dispatcher.awaitingAckPackets.lookup sequenceNumber = none := by
  have hself : (s.phase i).InProgress := by
    rw [hphase]
    trivial
  have hlength : s.sent.length = completed + 1 := by
    rcases hs.count with ⟨-, hnone⟩ | ⟨hlength, -⟩
    · exact absurd hself (hnone i)
    · exact hlength
  have hfew := hs.few
  by_contra hsome
  obtain ⟨receipt, hreceipt⟩ := Option.ne_none_iff_exists'.mp hsome
  obtain ⟨j, packet', hreceipted, -⟩ := hreceipts.sent _ _ hreceipt
  cases hj : s.phase j with
  | ready =>
      rw [hj] at hreceipted
      cases hreceipted
  | built =>
      rw [hj] at hreceipted
      cases hreceipted
  | sent =>
      rw [hj] at hreceipted
      cases hreceipted
  -- two calls in progress are one, and this one has no receipt
  | stored packet' number =>
      have hprogress : (s.phase j).InProgress := by
        rw [hj]
        trivial
      obtain rfl := hs.one i j hself hprogress
      rw [hphase] at hj
      cases hj
  | finished outcome =>
      rw [hj] at hreceipted
      obtain rfl : outcome = _ := hreceipted
      -- a call that is through has an older number, and numbers have not wrapped
      obtain ⟨m, hm, hsame⟩ := hs.through j _ _ hj
      rw [hs.carried i packet sequenceNumber (.inl hphase)] at hsame
      exact absurd (add_ofNat_inj (by omega) (by omega) hsame) (by omega)

/-- The receipt goes under the number that was sent. -/
theorem ReceiptsMatch.store (hreceipts : s.ReceiptsMatch calls)
    (hs : InOrder first completed s) {packet : OutgoingPacket} {sequenceNumber : UInt32}
    (hphase : s.phase i = .sent packet sequenceNumber) :
    ReceiptsMatch calls
      { s.setPhase i (.stored packet sequenceNumber) with
        dispatcher := s.dispatcher.addReceiptIfNeeded (calls i).env
          { (calls i).queued with packet } } := by
  -- nothing lies under the number yet, so the insertion overwrites no receipt
  have hfree := hs.lookup_counter hreceipts hphase
  have hnumber : sequenceNumber = s.dispatcher.nextOutgoingSequenceNumber :=
    (hs.carried i packet sequenceNumber (.inl hphase)).trans hs.counter.symm
  have hother (j : ι) (hj : j ≠ i) :
      ((s.setPhase i (.stored packet sequenceNumber)).phase j).receipted =
        (s.phase j).receipted := by rw [phase_setPhase_of_ne hj]
  have hbefore (j : ι) (found : OutgoingPacket × UInt32)
      (h : (s.phase j).receipted = some found) : j ≠ i := by
    rintro rfl
    rw [hphase] at h
    cases h
  by_cases hneeds : NeedsReceipt packet
  · have hadd : (s.dispatcher.addReceiptIfNeeded (calls i).env
        { (calls i).queued with packet }).awaitingAckPackets =
        s.dispatcher.awaitingAckPackets.insert sequenceNumber (receiptOf (calls i) packet) := by
      have habsent : s.dispatcher.nextOutgoingSequenceNumber ∉
          s.dispatcher.awaitingAckPackets := by
        rw [← hnumber, ← AList.lookup_eq_none]
        exact hfree
      unfold addReceiptIfNeeded
      simp only
      rw [if_pos (show _ ∧ _ ∧ _ from hneeds), if_neg habsent, hnumber]
      rfl
    refine ⟨fun j packet' number h hneeds' => ?_, fun k receipt h => ?_⟩
    · change ((s.setPhase i _).phase j).receipted = _ at h
      show (PacketDispatcher.awaitingAckPackets _).lookup number = _
      rw [hadd]
      by_cases hj : j = i
      · subst hj
        rw [phase_setPhase_self] at h
        obtain ⟨rfl, rfl⟩ := Prod.mk.inj (Option.some.inj h)
        exact AList.lookup_insert _
      · rw [hother j hj] at h
        have hlookup := hreceipts.stored j packet' number h hneeds'
        rw [AList.lookup_insert_ne]
        · exact hlookup
        · rintro rfl
          rw [hfree] at hlookup
          cases hlookup
    · change (PacketDispatcher.awaitingAckPackets _).lookup k = _ at h
      rw [hadd] at h
      by_cases hk : k = sequenceNumber
      · subst hk
        rw [AList.lookup_insert] at h
        exact ⟨i, packet, by rw [phase_setPhase_self]; rfl, (Option.some.inj h).symm⟩
      · rw [AList.lookup_insert_ne hk] at h
        obtain ⟨j, packet', hj, heq⟩ := hreceipts.sent k receipt h
        exact ⟨j, packet', (hother j (hbefore j _ hj)).trans hj, heq⟩
  -- an unreliable packet leaves the receipts alone
  · have hadd : s.dispatcher.addReceiptIfNeeded (calls i).env { (calls i).queued with packet } =
        s.dispatcher := by
      unfold addReceiptIfNeeded
      exact if_neg hneeds
    rw [hadd]
    refine ⟨fun j packet' number h hneeds' => ?_, fun k receipt h => ?_⟩
    · change ((s.setPhase i _).phase j).receipted = _ at h
      by_cases hj : j = i
      · subst hj
        rw [phase_setPhase_self] at h
        obtain ⟨rfl, rfl⟩ := Prod.mk.inj (Option.some.inj h)
        exact absurd hneeds' hneeds
      · rw [hother j hj] at h
        exact hreceipts.stored j packet' number h hneeds'
    · obtain ⟨j, packet', hj, heq⟩ := hreceipts.sent k receipt h
      exact ⟨j, packet', (hother j (hbefore j _ hj)).trans hj, heq⟩

/-- A step keeps the numbers and receipts in order exactly if the call sends alone, and then the
calls stand in order after it. -/
theorem numbersOk_step (hs : InOrder first completed s) (hok : s.NumbersOk calls)
    (hstep : s.advance lz4 gcm crypto calls i = some s') :
    (s'.NumbersOk calls ↔ s.SendsAlone calls i) ∧
      (s.SendsAlone calls i → ∃ completed', InOrder first completed' s') := by
  -- every step but a successful send leaves the numbers as they are
  have vacuous {next : Dispatching ι A} (halone : s.SendsAlone calls i)
      (hnumbers : next.sent = s.sent) (hreceipts : next.ReceiptsMatch calls)
      (horder : ∃ completed', InOrder first completed' next) :
      (next.NumbersOk calls ↔ s.SendsAlone calls i) ∧
        (s.SendsAlone calls i → ∃ completed', InOrder first completed' next) :=
    ⟨iff_of_true ⟨hnumbers ▸ hok.unique, hreceipts⟩ halone, fun _ => horder⟩
  have notBuilt (h : ∀ packet bytes number, s.phase i ≠ .built packet bytes number) :
      s.SendsAlone calls i := fun packet bytes number heq => absurd heq (h packet bytes number)
  cases hphase : s.phase i with
  | ready =>
      have halone := notBuilt (by rw [hphase]; rintro _ _ _ ⟨⟩)
      have hbefore : ¬ (s.phase i).InProgress := by
        rw [hphase]
        exact fun h => h
      rcases hbuilt : buildPacket lz4 gcm crypto (calls i).env.build (calls i).queued.packet
        s.dispatcher.nextOutgoingSequenceNumber with ⟨packet, bytes⟩
      rw [advance_ready hphase hbuilt] at hstep
      split at hstep
      · obtain rfl := Option.some.inj hstep
        refine vacuous halone rfl (hok.receipts.congr ?_ rfl) ⟨completed, ?_⟩
        · exact receipted_setPhase (by rw [hphase]; rfl)
        · exact hs.setPhase hbefore (fun h => h) (by rintro _ _ _ ⟨⟩) (by rintro _ ⟨⟩)
      · obtain rfl := Option.some.inj hstep
        refine vacuous halone rfl (hok.receipts.congr ?_ rfl) ⟨completed, ?_⟩
        · exact receipted_setPhase (by rw [hphase]; rfl)
        · refine hs.setPhase hbefore (fun h => h) ?_ (by rintro _ ⟨⟩)
          intro _ _ _ h
          exact (DispatchPhase.built.inj h).2.2.symm
  | built packet bytes number =>
      have hbefore : ¬ (s.phase i).InProgress := by
        rw [hphase]
        exact fun h => h
      rw [advance_built hphase] at hstep
      split at hstep
      -- the socket refused
      · rename_i hfailed
        obtain rfl := Option.some.inj hstep
        have halone : s.SendsAlone calls i := fun _ _ _ _ hok => by
          rw [hfailed] at hok
          cases hok
        refine vacuous halone rfl (hok.receipts.congr ?_ rfl) ⟨completed, ?_⟩
        · exact receipted_setPhase (by rw [hphase]; rfl)
        · exact hs.setPhase hbefore (fun h => h) (by rintro _ _ _ ⟨⟩) (by rintro _ ⟨⟩)
      · rename_i hsent
        obtain rfl := Option.some.inj hstep
        -- being alone is the one thing this step depends on
        have halone : s.SendsAlone calls i ↔
            number = s.dispatcher.nextOutgoingSequenceNumber ∧
              (∀ j, ¬ (s.phase j).InProgress) ∧ s.sent.length < 2 ^ 32 := by
          constructor
          · exact fun h => h packet bytes number hphase (Bool.not_eq_false _ ▸ hsent)
          · intro h packet' bytes' number' heq _
            obtain ⟨-, -, rfl⟩ := DispatchPhase.built.inj (hphase.symm.trans heq)
            exact h
        rw [halone]
        refine ⟨?_, fun ⟨hnumber, hnone, hfew⟩ =>
          ⟨completed, hs.send rfl hnumber hnone hfew⟩⟩
        rw [← hs.notMem_iff hphase]
        constructor
        · intro hnext
          have hunique := hnext.unique
          rw [List.map_append, List.map_singleton, List.nodup_append] at hunique
          exact fun hmem => hunique.2.2 _ hmem _ (List.mem_singleton.mpr rfl) rfl
        · intro hnew
          refine ⟨?_, hok.receipts.congr (receipted_setPhase (by rw [hphase]; rfl)) rfl⟩
          rw [List.map_append, List.map_singleton, List.nodup_append]
          refine ⟨hok.unique, List.nodup_singleton _, fun a ha b hb => ?_⟩
          have hb : b = number := List.mem_singleton.mp hb
          rw [hb]
          rintro rfl
          exact hnew ha
  | sent packet number =>
      have halone := notBuilt (by rw [hphase]; rintro _ _ _ ⟨⟩)
      rw [advance_sent hphase] at hstep
      obtain rfl := Option.some.inj hstep
      exact vacuous halone rfl (hok.receipts.store hs hphase)
        ⟨completed, hs.store hphase (nextOutgoingSequenceNumber_addReceiptIfNeeded ..)⟩
  | stored packet number =>
      have halone := notBuilt (by rw [hphase]; rintro _ _ _ ⟨⟩)
      rw [advance_stored hphase] at hstep
      obtain rfl := Option.some.inj hstep
      refine vacuous halone rfl (hok.receipts.congr ?_ rfl) ⟨completed + 1, hs.increment hphase⟩
      exact receipted_setPhase (by rw [hphase]; rfl)
  | finished outcome =>
      unfold advance at hstep
      simp only [hphase] at hstep
      cases hstep

/-- In every interleaving of any number of calls, no two packets are sent with one number and
every receipt lies under the number its packet carries, exactly as long as every send is alone. -/
theorem numbersOk_iff_alone {events : List ι}
    (hexec : (machine lz4 gcm crypto calls).exec (start first) events = some s') :
    (machine lz4 gcm crypto calls).Always (NumbersOk calls) (start first) events ↔
      (machine lz4 gcm crypto calls).Along (SendsAlone calls) (start first) events := by
  have hstart : NumbersOk calls (start first : Dispatching ι A) :=
    ⟨List.nodup_nil, ⟨fun _ _ _ h => (by cases h), fun _ _ h => (by cases h)⟩⟩
  have preserved (s : Dispatching ι A) (i : ι) (s' : Dispatching ι A)
      (hs : NumbersOk calls s → ∃ completed, InOrder first completed s)
      (hok : NumbersOk calls s) (hstep : (machine lz4 gcm crypto calls).step s i = some s') :
      (NumbersOk calls s' → ∃ completed, InOrder first completed s') ∧
        (NumbersOk calls s' ↔ SendsAlone calls s i) := by
    obtain ⟨completed, horder⟩ := hs hok
    obtain ⟨hiff, hnext⟩ := numbersOk_step horder hok hstep
    exact ⟨fun hok' => hnext (hiff.mp hok'), hiff⟩
  exact Machine.always_iff_along preserved (fun _ => ⟨0, inOrder_start first⟩) hstart hexec

/-! ## Two tasks -/

/-- Two reliable packets to the server. -/
def twoCalls (i : Bool) : DispatchCall Unit where
  target := .server
  env := ⟨⟨10, none⟩, 10, true⟩
  queued := ⟨OutgoingPacket.ofData ZPeerId.toServer 101 .data
    { reliable := true, encrypted := false, compressed := false, priority := .high }
    [if i then 8 else 7], some i.toNat⟩

/-- Both tasks read the counter before either increments it, and send with one number; then the
second receipt lands under a number that was never sent. -/
theorem number_sent_twice :
    ∃ s, (machine literalLz4 maskGcm none twoCalls).exec (start 0)
        [false, true, false, true, false, false, true, true] = some s ∧
      s.sent.map Sent.sequenceNumber = [0, 0] ∧
      (s.dispatcher.awaitingAckPackets.lookup 1).isSome ∧ ¬ s.NumbersOk twoCalls := by
  have heval : ((machine literalLz4 maskGcm none twoCalls).exec (start 0)
      [false, true, false, true, false, false, true, true]).map (fun s =>
        (s.sent.map Sent.sequenceNumber, (s.dispatcher.awaitingAckPackets.lookup 1).isSome)) =
      some ([0, 0], true) := by decide +kernel
  obtain ⟨s, hexec, hfacts⟩ := Option.map_eq_some_iff.mp heval
  obtain ⟨hnumbers, hreceipt⟩ := Prod.mk.inj hfacts
  refine ⟨s, hexec, hnumbers, hreceipt, fun hok => ?_⟩
  have hunique := hok.unique
  rw [hnumbers] at hunique
  exact absurd hunique (by decide)

/-- One task after the other. -/
theorem numbersOk_iff_alone_sequential :
    ∃ s, (machine literalLz4 maskGcm none twoCalls).exec (start 0)
        [false, false, false, false, true, true, true, true] = some s ∧
      s.sent.map Sent.sequenceNumber = [0, 1] ∧
      (machine literalLz4 maskGcm none twoCalls).Always (NumbersOk twoCalls) (start 0)
        [false, false, false, false, true, true, true, true] := by
  have heval : ((machine literalLz4 maskGcm none twoCalls).exec (start 0)
      [false, false, false, false, true, true, true, true]).map (fun s =>
        s.sent.map Sent.sequenceNumber) = some [0, 1] := by decide +kernel
  have halone : (machine literalLz4 maskGcm none twoCalls).Along (SendsAlone twoCalls) (start 0)
      [false, false, false, false, true, true, true, true] := by decide +kernel
  obtain ⟨s, hexec, hnumbers⟩ := Option.map_eq_some_iff.mp heval
  exact ⟨s, hexec, hnumbers, (numbersOk_iff_alone hexec).mpr halone⟩

end Step

end Dispatching

end ZetaNet
