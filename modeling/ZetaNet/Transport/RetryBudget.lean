import ZetaNet.Transport.Retransmit

/-!
# The retry budget

Dispatches, acknowledgements and retry scans of one queue, with the times of them kept beside the
code's own state. The scan measures an entry's age from `last_send_time`, which its own
retransmissions rewrite. An invariant ties that field, and whether there is an entry at all, to
the times of the dispatch and of the scans since; it says which schedules of scans keep an entry
beyond its budget.
-/

namespace ZetaNet

variable {K A : Type} (lz4 : Lz4) (gcm : AesGcm K)

/-! ## Schedules -/

/-- When a packet that was sent at some time has last been sent after scans at the given times;
none if one of them has dropped it. A scan up to a second later leaves it alone, and one up to
five seconds later sends it again; the differences are of 32 bits. -/
def lastSent (sent : UInt64) : List UInt64 → Option UInt64
  | [] => some sent
  | scan :: scans =>
      let age := scan.toUInt32 - sent.toUInt32
      if age > kDropAfterSeconds then none
      else if age > kResendIntervalSeconds then lastSent scan scans
      else lastSent sent scans

theorem lastSent_append (sent : UInt64) (scans more : List UInt64) :
    lastSent sent (scans ++ more) = (lastSent sent scans).bind (lastSent · more) := by
  induction scans generalizing sent with
  | nil => rfl
  | cons scan scans ih =>
      rw [List.cons_append, lastSent, lastSent]
      split
      · rfl
      split
      · exact ih scan
      · exact ih sent

/-- A packet was last sent when it was dispatched or by one of the scans. -/
theorem lastSent_mem {sent last : UInt64} {scans : List UInt64}
    (h : lastSent sent scans = some last) : last = sent ∨ last ∈ scans := by
  induction scans generalizing sent with
  | nil => exact .inl (Option.some.inj h).symm
  | cons scan scans ih =>
      rw [lastSent] at h
      split at h
      · cases h
      split at h
      · exact .inr (List.mem_cons.mpr (ih h))
      · exact (ih h).imp id (List.mem_cons_of_mem scan)

theorem isSome_lastSent_singleton {sent scan : UInt64} :
    (lastSent sent [scan]).isSome ↔ ¬ scan.toUInt32 - sent.toUInt32 > kDropAfterSeconds := by
  rw [lastSent]
  split
  · rename_i hdrop
    exact iff_of_false (by decide) (not_not_intro hdrop)
  · rename_i hkeep
    refine iff_of_true ?_ hkeep
    split <;> rfl

/-- A scan that keeps a packet past its budget was preceded, in the last five seconds, by one that
sent the packet again. -/
theorem lastSent_recent {sent now : UInt64} {scans : List UInt64}
    (hkept : (lastSent sent (scans ++ [now])).isSome)
    (hlate : sent.toNat + kDropAfterSeconds.toNat < now.toNat)
    (hscans : ∀ scan ∈ scans, sent ≤ scan ∧ scan ≤ now) (hwrap : now.toNat < sent.toNat + 2 ^ 32) :
    ∃ scan ∈ scans, lastSent sent scans = some scan ∧
      now.toNat ≤ scan.toNat + kDropAfterSeconds.toNat := by
  rw [lastSent_append] at hkept
  obtain ⟨last, hlast, hkept⟩ : ∃ last, lastSent sent scans = some last ∧
      (lastSent last [now]).isSome := by
    cases hcase : lastSent sent scans with
    | none => rw [hcase] at hkept; cases hkept
    | some last => exact ⟨last, rfl, by rwa [hcase] at hkept⟩
  have hage := isSome_lastSent_singleton.mp hkept
  have hfive : kDropAfterSeconds.toNat = 5 := rfl
  -- within 2^32 seconds the difference of the two times is the age
  have hbound {time : UInt64} (hle : sent ≤ time) (hage : ¬ now.toUInt32 - time.toUInt32 >
      kDropAfterSeconds) (htime : time ≤ now) : now.toNat ≤ time.toNat + 5 := by
    have hle := UInt64.le_iff_toNat_le.mp hle
    have htime := UInt64.le_iff_toNat_le.mp htime
    rw [gt_iff_lt, UInt32.lt_iff_toNat_lt, UInt32.toNat_sub, UInt64.toNat_toUInt32,
      UInt64.toNat_toUInt32, hfive] at hage
    omega
  rcases lastSent_mem hlast with rfl | hmem
  · have hle : last ≤ now := UInt64.le_iff_toNat_le.mpr (by omega)
    have := hbound (UInt64.le_refl last) hage hle
    omega
  · obtain ⟨hle, htime⟩ := hscans last hmem
    exact ⟨last, hmem, hlast, hbound hle hage htime⟩

/-- Scans that follow one another, and the dispatch, within four seconds never drop a packet. -/
theorem isSome_lastSent_of_isChain {sent : UInt64} {scans : List UInt64}
    (h : (sent :: scans).IsChain fun before after => before ≤ after ∧
      after.toNat + kResendIntervalSeconds.toNat ≤ before.toNat + kDropAfterSeconds.toNat) :
    (lastSent sent scans).isSome := by
  have hfive : kDropAfterSeconds.toNat = 5 := rfl
  have hone : kResendIntervalSeconds.toNat = 1 := rfl
  -- at each scan the packet was last sent by the scan before it, or up to a second before that
  have hgeneral : ∀ (scans : List UInt64) (last before : UInt64), last ≤ before →
      before.toNat ≤ last.toNat + kResendIntervalSeconds.toNat →
      (before :: scans).IsChain (fun before after => before ≤ after ∧
        after.toNat + kResendIntervalSeconds.toNat ≤ before.toNat + kDropAfterSeconds.toNat) →
      (lastSent last scans).isSome := by
    intro scans
    induction scans with
    | nil => exact fun _ _ _ _ _ => rfl
    | cons scan scans ih =>
        intro last before hle hnear hchain
        obtain ⟨⟨hstep, hgap⟩, hrest⟩ := List.isChain_cons_cons.mp hchain
        have hle := UInt64.le_iff_toNat_le.mp hle
        have hstep := UInt64.le_iff_toNat_le.mp hstep
        have hage : (scan.toUInt32 - last.toUInt32).toNat = scan.toNat - last.toNat := by
          rw [UInt32.toNat_sub, UInt64.toNat_toUInt32, UInt64.toNat_toUInt32]
          omega
        rw [lastSent]
        rw [if_neg (by rw [gt_iff_lt, UInt32.lt_iff_toNat_lt, hage]; omega)]
        split
        · exact ih scan scan (UInt64.le_refl scan) (Nat.le_add_right ..) hrest
        · rename_i hyoung
          rw [gt_iff_lt, UInt32.lt_iff_toNat_lt, hage] at hyoung
          exact ih last scan (UInt64.le_iff_toNat_le.mpr (by omega)) (by omega) hrest
  exact hgeneral scans sent sent (UInt64.le_refl sent) (Nat.le_add_right ..) h

/-! ## What a scan leaves -/

/-- `last_send_time` of an entry after a scan, by what it was before. -/
def rescan (now last : UInt32) : Option UInt32 :=
  let age := now - last
  if age > kDropAfterSeconds then none
  else if age > kResendIntervalSeconds then some now
  else some last

theorem map_lastSent_singleton (last now : UInt64) :
    (lastSent last [now]).map UInt64.toUInt32 = rescan now.toUInt32 last.toUInt32 := by
  rw [lastSent, rescan]
  split
  · rfl
  split
  · rfl
  · rfl

/-- The `last_send_time` of the entry under a number. -/
def ZPacketQueue.lastSendTime (k : UInt32) (queue : ZPacketQueue) : Option UInt32 :=
  (queue.dispatcher.awaitingAckPackets.lookup k).map (·.packet.lastSendTime)

theorem ZPacketQueue.mem_iff_lastSendTime {k : UInt32} {queue : ZPacketQueue} :
    k ∈ queue.dispatcher.awaitingAckPackets ↔ (queue.lastSendTime k).isSome := by
  rw [lastSendTime, Option.isSome_map, AList.lookup_isSome]

section Scan

variable (crypto : Option K) (peerList : ZPeerMapping A) (now : UInt32) {k : UInt32}

theorem lastSendTime_retryEntry (env : UInt32 → SendEnv) (queue : ZPacketQueue) (k' : UInt32) :
    (queue.retryEntry lz4 gcm crypto peerList now k env).1.lastSendTime k' =
      if k' = k then (queue.lastSendTime k).bind (rescan now) else queue.lastSendTime k' := by
  unfold ZPacketQueue.lastSendTime
  split
  · rename_i heq
    subst heq
    unfold ZPacketQueue.retryEntry
    cases hlookup : queue.dispatcher.awaitingAckPackets.lookup k' with
    | none => simp only [hlookup]; rfl
    | some queued =>
        simp only [hlookup, Option.map_some, Option.bind_some, rescan]
        split
        · rw [AList.lookup_erase]
          rfl
        split
        · rw [AList.lookup_insert]
          rfl
        · rw [hlookup]
          rfl
  · rename_i hne
    rcases retryEntry_cases lz4 gcm crypto peerList now k env queue with
      hsame | ⟨_, -, -, hdropped⟩ | ⟨queued, -, -, hresent⟩
    · rw [hsame]
    · rw [hdropped, AList.lookup_erase_ne hne]
    · rw [hresent _ _ rfl, AList.lookup_insert_ne hne]

/-- A scan that visits every entry once does to each what it does to one. -/
theorem lastSendTime_retryScan {seqNums : List UInt32} (hnodup : seqNums.Nodup)
    (env : UInt32 → UInt32 → SendEnv) (queue : ZPacketQueue) (k : UInt32) :
    (queue.retryScan lz4 gcm crypto peerList now env seqNums).1.lastSendTime k =
      if k ∈ seqNums then (queue.lastSendTime k).bind (rescan now)
      else queue.lastSendTime k := by
  induction seqNums generalizing queue with
  | nil => rfl
  | cons seqNum seqNums ih =>
      obtain ⟨hfresh, hnodup⟩ := List.nodup_cons.mp hnodup
      refine (ih hnodup
        (queue.retryEntry lz4 gcm crypto peerList now seqNum (env seqNum)).1).trans ?_
      rw [lastSendTime_retryEntry]
      by_cases heq : k = seqNum
      · subst heq
        rw [if_neg hfresh, if_pos rfl, if_pos List.mem_cons_self]
      · rw [if_neg heq]
        exact if_congr (List.mem_cons.trans (or_iff_right heq)).symm rfl rfl

end Scan

/-! ## Runs -/

/-- When a packet was dispatched, and when the queue has been scanned since. -/
structure Sending where
  dispatchedAt : UInt64
  scans : List UInt64
  deriving DecidableEq

/-- When the packet has last been sent. -/
def Sending.lastSent (sending : Sending) : Option UInt64 :=
  ZetaNet.lastSent sending.dispatchedAt sending.scans

/-- A host with the clock and, beside the code's own state, the times: under each number those of
the last packet that got a receipt with it and has not been acknowledged, and, right after a
scan, the time of that scan. -/
structure Retrying (K A : Type) where
  host : Host K A
  clock : UInt64
  history : UInt32 → Option Sending
  scannedAt : Option UInt64

namespace Retrying

inductive Event (A : Type)
  /-- `DispatchToOne` or `DispatchToServer` of a packet, its receipt stamped at `env.unixTime` -/
  | dispatch (target : Target A) (env : SendEnv) (queued : Queued)
  /-- the acknowledgement of a number by a peer -/
  | acknowledge (source seqNum : UInt32)
  /-- a retry scan at a time, over the entries in the order of the hash buckets -/
  | scan (now : UInt64) (env : UInt32 → UInt32 → SendEnv) (seqNums : List UInt32)

/-- A fresh queue with any peers and any key. -/
def start (peerList : ZPeerMapping A) (crypto : Option K) : Retrying K A where
  host := { queue := ZPacketQueue.init 0, peerList, crypto }
  clock := 0
  history _ := none
  scannedAt := none

/-- When the packet under a number has last been sent, by the times alone. -/
def pending (k : UInt32) (s : Retrying K A) : Option UInt64 := (s.history k).bind Sending.lastSent

def setQueue (queue : ZPacketQueue) (s : Retrying K A) : Retrying K A :=
  { s with host := { s.host with queue }, scannedAt := none }

/-- A new receipt is under the number the send uses, unless a packet is pending there. -/
def dispatch (target : Target A) (env : SendEnv) (queued : Queued) (s : Retrying K A) :
    Retrying K A :=
  let dispatcher := s.host.queue.dispatcher
  let k := dispatcher.nextOutgoingSequenceNumber
  let (dispatcher, sent) :=
    PacketDispatcher.dispatchTo lz4 gcm s.host.crypto target env queued dispatcher
  { s.setQueue { s.host.queue with dispatcher } with
    clock := env.unixTime
    history :=
      if sent.isEmpty = false ∧ NeedsReceipt queued.packet ∧ s.pending k = none then
        Function.update s.history k (some ⟨env.unixTime, []⟩)
      else s.history }

/-- An acknowledgement of the peer the packet went to ends its history. -/
def acknowledge (source seqNum : UInt32) (s : Retrying K A) : Retrying K A :=
  let (queue, settled) := s.host.queue.settleReceipt source seqNum
  { s.setQueue queue with
    history := if settled.isSome then Function.update s.history seqNum none else s.history }

def scan (now : UInt64) (env : UInt32 → UInt32 → SendEnv) (seqNums : List UInt32)
    (s : Retrying K A) : Retrying K A :=
  let (queue, _) := s.host.queue.retryScan lz4 gcm s.host.crypto s.host.peerList
    now.toUInt32 env seqNums
  { s.setQueue queue with
    clock := now
    history k := (s.history k).map fun sending =>
      { sending with scans := sending.scans ++ [now] }
    scannedAt := some now }

/-- The clock does not run backwards, and a scan visits every entry once. -/
def machine : Machine (Retrying K A) (Event A) where
  step s
    | .dispatch target env queued =>
        if env.unixTime < s.clock then none else some (s.dispatch lz4 gcm target env queued)
    | .acknowledge source seqNum => some (s.acknowledge source seqNum)
    | .scan now env seqNums =>
        if now < s.clock ∨ ¬ seqNums.Perm s.host.queue.dispatcher.awaitingAckPackets.keys then none
        else some (s.scan lz4 gcm now env seqNums)

/-- Right after a scan, every entry was first dispatched within the budget. -/
def WithinBudget (s : Retrying K A) : Prop :=
  ∀ now, s.scannedAt = some now → ∀ k ∈ s.host.queue.dispatcher.awaitingAckPackets,
    ∃ sending, s.history k = some sending ∧
      now.toNat ≤ sending.dispatchedAt.toNat + kDropAfterSeconds.toNat

/-- A scan comes past the budget of a packet that was dispatched, and not acknowledged, and that
by the times of the dispatch and the scans since was last sent not long enough before. -/
def Outlives (s : Retrying K A) : Event A → Prop
  | .scan now _ _ =>
      ∃ k sending last, s.history k = some sending ∧
        sending.dispatchedAt.toNat + kDropAfterSeconds.toNat < now.toNat ∧
        sending.lastSent = some last ∧ ¬ now.toUInt32 - last.toUInt32 > kDropAfterSeconds
  | _ => False

/-- There is an entry where the times say that a packet is pending, and its `last_send_time` is
the one they say. -/
def Tracks (s : Retrying K A) : Prop :=
  ∀ k, s.host.queue.lastSendTime k = (s.pending k).map UInt64.toUInt32

theorem tracks_start (peerList : ZPeerMapping A) (crypto : Option K) :
    (start peerList crypto).Tracks := fun _ => rfl

variable {lz4 gcm} {s s' : Retrying K A}

theorem Tracks.mem_iff (h : s.Tracks) {k : UInt32} :
    k ∈ s.host.queue.dispatcher.awaitingAckPackets ↔ (s.pending k).isSome := by
  rw [ZPacketQueue.mem_iff_lastSendTime, h k, Option.isSome_map]

/-- A dispatch adds an entry where it needs one and none is pending. -/
theorem Tracks.dispatch (h : s.Tracks) (target : Target A) (env : SendEnv) (queued : Queued) :
    (s.dispatch lz4 gcm target env queued).Tracks := by
  set number := s.host.queue.dispatcher.nextOutgoingSequenceNumber with hnumber
  have hmem := h.mem_iff (k := number)
  intro k
  rcases dispatchTo_cases lz4 gcm s.host.crypto target env queued
      s.host.queue.dispatcher with hcall | ⟨packet, bytes, hbuilt, -, hcall⟩
  -- nothing was sent
  · have hsame : (s.dispatch lz4 gcm target env queued).history = s.history := by
      unfold Retrying.dispatch
      simp [hcall]
    have hqueue : (s.dispatch lz4 gcm target env queued).host.queue = s.host.queue := by
      unfold Retrying.dispatch
      simp [hcall, setQueue]
    rw [hqueue, pending, hsame]
    exact h k
  · obtain ⟨b, hb⟩ :=
      buildPacket_packet lz4 gcm s.host.crypto env.build queued.packet number
    rw [hnumber, hbuilt] at hb
    obtain rfl : packet = queued.packet.withCompressed b := hb
    have hqueue : (s.dispatch lz4 gcm target env queued).host.queue.lastSendTime k =
        (((s.host.queue.dispatcher.addReceiptIfNeeded env
          { queued with packet := queued.packet.withCompressed b }).awaitingAckPackets.lookup
            k).map (·.packet.lastSendTime)) := by
      unfold Retrying.dispatch
      simp only [hcall]
      rfl
    have hhistory : (s.dispatch lz4 gcm target env queued).history =
        if NeedsReceipt queued.packet ∧ s.pending number = none then
          Function.update s.history number (some ⟨env.unixTime, []⟩)
        else s.history := by
      unfold Retrying.dispatch
      simp [hcall, hnumber]
    rw [hqueue, pending, hhistory]
    unfold PacketDispatcher.addReceiptIfNeeded
    by_cases hneeds : NeedsReceipt queued.packet
    · have hneeds' : (queued.packet.withCompressed b).flags.reliable = true ∧
          (queued.packet.withCompressed b).type ≠ PacketType.acknowledgement ∧
          (queued.packet.withCompressed b).lastSendTime = 0 := hneeds
      dsimp only
      rw [if_pos hneeds', ← hnumber]
      by_cases hold : number ∈ s.host.queue.dispatcher.awaitingAckPackets
      -- the old entry stays
      · obtain ⟨last, hlast⟩ := Option.isSome_iff_exists.mp (hmem.mp hold)
        rw [if_pos hold, if_neg (by rw [hlast]; simp)]
        exact h k
      · have hnone : s.pending number = none :=
          Option.not_isSome_iff_eq_none.mp (mt hmem.mpr hold)
        rw [if_neg hold, if_pos ⟨hneeds, hnone⟩]
        by_cases heq : k = number
        · subst heq
          rw [Function.update_self, AList.lookup_insert]
          rfl
        · rw [Function.update_of_ne heq, AList.lookup_insert_ne heq]
          exact h k
    · have hneeds' : ¬ ((queued.packet.withCompressed b).flags.reliable = true ∧
          (queued.packet.withCompressed b).type ≠ PacketType.acknowledgement ∧
          (queued.packet.withCompressed b).lastSendTime = 0) := hneeds
      dsimp only
      rw [if_neg hneeds', if_neg fun hnew => hneeds hnew.1]
      exact h k

/-- An acknowledgement removes the entry it settles. -/
theorem Tracks.acknowledge (h : s.Tracks) (source seqNum : UInt32) :
    (s.acknowledge source seqNum).Tracks := by
  intro k
  unfold Retrying.acknowledge ZPacketQueue.settleReceipt
  cases hlookup : s.host.queue.dispatcher.awaitingAckPackets.lookup seqNum with
  | none =>
      simp only [hlookup]
      exact h k
  | some queued =>
      simp only [hlookup]
      split
      · show ((s.host.queue.dispatcher.awaitingAckPackets.erase seqNum).lookup k).map _ =
          ((Function.update s.history seqNum none k).bind Sending.lastSent).map _
        by_cases heq : k = seqNum
        · subst heq
          rw [AList.lookup_erase, Function.update_self]
          rfl
        · rw [AList.lookup_erase_ne heq, Function.update_of_ne heq]
          exact h k
      · exact h k

theorem pending_scan (now : UInt64) (env : UInt32 → UInt32 → SendEnv) (seqNums : List UInt32)
    (k : UInt32) :
    (s.scan lz4 gcm now env seqNums).pending k = (s.pending k).bind (lastSent · [now]) := by
  show ((s.history k).map _).bind Sending.lastSent = ((s.history k).bind Sending.lastSent).bind _
  cases s.history k with
  | none => rfl
  | some sending => exact lastSent_append ..

/-- A scan drops and stamps the entries as the times say. -/
theorem Tracks.scan (h : s.Tracks) (now : UInt64) (env : UInt32 → UInt32 → SendEnv)
    {seqNums : List UInt32}
    (hperm : seqNums.Perm s.host.queue.dispatcher.awaitingAckPackets.keys) :
    (s.scan lz4 gcm now env seqNums).Tracks := by
  intro k
  have hnodup : seqNums.Nodup :=
    hperm.nodup_iff.mpr s.host.queue.dispatcher.awaitingAckPackets.nodupKeys
  rw [pending_scan]
  show (s.host.queue.retryScan lz4 gcm s.host.crypto s.host.peerList now.toUInt32 env
    seqNums).1.lastSendTime k = _
  rw [lastSendTime_retryScan _ _ _ _ _ hnodup]
  have hmem : k ∈ seqNums ↔ (s.host.queue.lastSendTime k).isSome := by
    rw [hperm.mem_iff, ← ZPacketQueue.mem_iff_lastSendTime]
    rfl
  rw [h k] at hmem ⊢
  cases hpending : s.pending k with
  | none =>
      rw [hpending] at hmem
      rw [if_neg (mt hmem.mp (by decide))]
      rfl
  | some last =>
      rw [hpending] at hmem
      rw [if_pos (hmem.mpr rfl), Option.map_some, Option.bind_some, Option.bind_some,
        map_lastSent_singleton]

/-- The invariant of every step, and what it says of the budget: only a scan can leave an entry
beyond it, and it does where the times say so. -/
theorem withinBudget_step (h : s.Tracks) {e : Event A}
    (hstep : (machine lz4 gcm).step s e = some s') :
    s'.Tracks ∧ (s'.WithinBudget ↔ ¬ s.Outlives e) := by
  cases e with
  | dispatch target env queued =>
      simp only [machine] at hstep
      split at hstep
      · cases hstep
      · obtain rfl := Option.some.inj hstep
        -- nothing but a scan is asked about the budget
        exact ⟨h.dispatch target env queued, iff_of_true (fun now hnow => by cases hnow) id⟩
  | acknowledge source seqNum =>
      obtain rfl := Option.some.inj hstep
      exact ⟨h.acknowledge source seqNum, iff_of_true (fun now hnow => by cases hnow) id⟩
  | scan now env seqNums =>
      simp only [machine] at hstep
      split at hstep
      · cases hstep
      rename_i hadmitted
      obtain ⟨-, hperm⟩ := not_or.mp hadmitted
      obtain rfl := Option.some.inj hstep
      have htracks : (s.scan lz4 gcm now env seqNums).Tracks :=
        h.scan now env (Classical.not_not.mp hperm)
      refine ⟨htracks, ?_⟩
      constructor
      · rintro hwithin ⟨k, sending, last, hhistory, hlate, hlast, hkept⟩
        have hpending : s.pending k = some last := by
          rw [pending, hhistory, Option.bind_some, hlast]
        have hmem := htracks.mem_iff.mpr (by
          rw [pending_scan, hpending]
          exact isSome_lastSent_singleton.mpr hkept)
        obtain ⟨sending', hsending', hbound⟩ := hwithin now rfl k hmem
        obtain rfl := Option.some.inj
          (hsending'.symm.trans (congrArg (Option.map _) hhistory))
        exact absurd hlate (Nat.not_lt.mpr hbound)
      · intro hnone now' hnow k hk
        obtain rfl := Option.some.inj hnow
        have hpending := htracks.mem_iff.mp hk
        rw [pending_scan] at hpending
        obtain ⟨kept, hkept⟩ := Option.isSome_iff_exists.mp hpending
        obtain ⟨last, hlast, hkept⟩ := Option.bind_eq_some_iff.mp hkept
        obtain ⟨sending, hhistory, hlast⟩ := Option.bind_eq_some_iff.mp hlast
        refine ⟨_, congrArg (Option.map _) hhistory, Nat.le_of_not_lt fun hlate => ?_⟩
        exact hnone ⟨k, sending, last, hhistory, hlate, hlast,
          isSome_lastSent_singleton.mp (by rw [hkept]; rfl)⟩

/-- Right after every scan of a run all entries are within the budget, exactly if no scan comes
more than five seconds after the dispatch of a packet that has not been acknowledged and that, by
the times of the dispatch and of the scans since, was last sent within the last five. -/
theorem retry_budget_iff (peerList : ZPeerMapping A) (crypto : Option K) {events : List (Event A)}
    (hexec : (machine lz4 gcm).exec (start peerList crypto) events = some s') :
    (machine lz4 gcm).Always WithinBudget (start peerList crypto) events ↔
      (machine lz4 gcm).Along (fun s e => ¬ s.Outlives e) (start peerList crypto) events :=
  Machine.always_iff_along (fun _ _ _ h _ hstep => withinBudget_step h hstep)
    (tracks_start peerList crypto) (fun now hnow => by cases hnow) hexec

/-! ## What keeps a packet -/

/-- The times of a history are in the order of the run. -/
def Ordered (s : Retrying K A) : Prop :=
  ∀ k sending, s.history k = some sending → sending.dispatchedAt ≤ s.clock ∧
    ∀ scan ∈ sending.scans, sending.dispatchedAt ≤ scan ∧ scan ≤ s.clock

theorem history_dispatch {target : Target A} {env : SendEnv} {queued : Queued} {k : UInt32}
    {sending : Sending}
    (h : (s.dispatch lz4 gcm target env queued).history k = some sending) :
    sending = ⟨env.unixTime, []⟩ ∨ s.history k = some sending := by
  unfold Retrying.dispatch at h
  dsimp only at h
  split at h
  · by_cases heq : k = s.host.queue.dispatcher.nextOutgoingSequenceNumber
    · subst heq
      rw [Function.update_self] at h
      exact .inl (Option.some.inj h).symm
    · rw [Function.update_of_ne heq] at h
      exact .inr h
  · exact .inr h

theorem history_acknowledge {source seqNum k : UInt32} {sending : Sending}
    (h : (s.acknowledge source seqNum).history k = some sending) :
    s.history k = some sending := by
  unfold Retrying.acknowledge at h
  dsimp only at h
  split at h
  · by_cases heq : k = seqNum
    · subst heq
      rw [Function.update_self] at h
      cases h
    · rw [Function.update_of_ne heq] at h
      exact h
  · exact h

theorem Ordered.step (h : s.Ordered) {e : Event A}
    (hstep : (machine lz4 gcm).step s e = some s') : s'.Ordered := by
  intro k sending hhistory
  have hlater {clock : UInt64} (hclock : s.clock ≤ clock) (hold : s.history k = some sending) :
      sending.dispatchedAt ≤ clock ∧
        ∀ scan ∈ sending.scans, sending.dispatchedAt ≤ scan ∧ scan ≤ clock := by
    obtain ⟨hdispatched, hscans⟩ := h k sending hold
    exact ⟨UInt64.le_trans hdispatched hclock,
      fun scan hscan => ⟨(hscans scan hscan).1, UInt64.le_trans (hscans scan hscan).2 hclock⟩⟩
  cases e with
  | dispatch target env queued =>
      simp only [machine] at hstep
      split at hstep
      · cases hstep
      rename_i hclock
      obtain rfl := Option.some.inj hstep
      rcases history_dispatch hhistory with rfl | hold
      · exact ⟨UInt64.le_refl _, fun scan hscan => absurd hscan List.not_mem_nil⟩
      · exact hlater (UInt64.not_lt.mp hclock) hold
  | acknowledge source seqNum =>
      obtain rfl := Option.some.inj hstep
      exact hlater (UInt64.le_refl _) (history_acknowledge hhistory)
  | scan now env seqNums =>
      simp only [machine] at hstep
      split at hstep
      · cases hstep
      rename_i hadmitted
      have hclock := UInt64.not_lt.mp (not_or.mp hadmitted).1
      obtain rfl := Option.some.inj hstep
      obtain ⟨old, hold, rfl⟩ := Option.map_eq_some_iff.mp hhistory
      obtain ⟨hdispatched, hscans⟩ := h k old hold
      refine ⟨UInt64.le_trans hdispatched hclock, fun scan hscan => ?_⟩
      rcases List.mem_append.mp hscan with hscan | hscan
      · exact ⟨(hscans scan hscan).1, UInt64.le_trans (hscans scan hscan).2 hclock⟩
      · rw [List.mem_singleton.mp hscan]
        exact ⟨UInt64.le_trans hdispatched hclock, UInt64.le_refl now⟩

/-- Along every run the code's table is what the times say, and these are in order. -/
theorem tracks_of_exec (peerList : ZPeerMapping A) (crypto : Option K) {events : List (Event A)}
    (hexec : (machine lz4 gcm).exec (start peerList crypto) events = some s) :
    s.Tracks ∧ s.Ordered := by
  have hstart : (start peerList crypto).Ordered := fun _ _ hnone => by cases hnone
  constructor
  · exact @Machine.invariant_of_exec _ _ (machine lz4 gcm) Tracks
      (fun _ _ _ h hstep => (withinBudget_step h hstep).1) _ _ _ (tracks_start peerList crypto)
      hexec
  · exact @Machine.invariant_of_exec _ _ (machine lz4 gcm) Ordered
      (fun _ _ _ h hstep => h.step hstep) _ _ _ hstart hexec

/-- A packet that outlives its budget was sent again by a scan of the last five seconds. -/
theorem Outlives.exists_scan (peerList : ZPeerMapping A) (crypto : Option K)
    {events : List (Event A)}
    (hexec : (machine lz4 gcm).exec (start peerList crypto) events = some s) {now : UInt64}
    {env : UInt32 → UInt32 → SendEnv} {seqNums : List UInt32} (hclock : s.clock ≤ now)
    (h : s.Outlives (.scan now env seqNums)) :
    ∃ k sending, s.history k = some sending ∧
      (now.toNat < sending.dispatchedAt.toNat + 2 ^ 32 →
        ∃ scan ∈ sending.scans, sending.lastSent = some scan ∧
          now.toNat ≤ scan.toNat + kDropAfterSeconds.toNat) := by
  obtain ⟨k, sending, last, hhistory, hlate, hlast, hkept⟩ := h
  obtain ⟨-, hscans⟩ := (tracks_of_exec peerList crypto hexec).2 k sending hhistory
  refine ⟨k, sending, hhistory, fun hwrap => lastSent_recent ?_ hlate
    (fun scan hscan => ⟨(hscans scan hscan).1, UInt64.le_trans (hscans scan hscan).2 hclock⟩)
    hwrap⟩
  rw [lastSent_append, show ZetaNet.lastSent sending.dispatchedAt sending.scans = some last from
    hlast]
  exact isSome_lastSent_singleton.mpr hkept

/-- Scans at most four seconds apart keep a packet that nobody acknowledges for ever. -/
theorem mem_of_isChain (peerList : ZPeerMapping A) (crypto : Option K) {events : List (Event A)}
    (hexec : (machine lz4 gcm).exec (start peerList crypto) events = some s) {k : UInt32}
    {sending : Sending} (hhistory : s.history k = some sending)
    (hchain : (sending.dispatchedAt :: sending.scans).IsChain fun before after =>
      before ≤ after ∧
        after.toNat + kResendIntervalSeconds.toNat ≤ before.toNat + kDropAfterSeconds.toNat) :
    k ∈ s.host.queue.dispatcher.awaitingAckPackets := by
  rw [(tracks_of_exec peerList crypto hexec).1.mem_iff, pending, hhistory]
  exact isSome_lastSent_of_isChain hchain

/-! ## A peer that never answers -/

/-- A reliable packet to the server, dispatched at 10, and scans at the given times. -/
def silentEvents (times : List UInt64) : List (Event Bool) :=
  let env (time : UInt64) : SendEnv := ⟨⟨time, none⟩, time, true⟩
  let packet := OutgoingPacket.ofData ZPeerId.toServer 101 .data
    { reliable := true, encrypted := false, compressed := false, priority := .high } [7, 8, 9]
  .dispatch .server (env 10) ⟨packet, some 0⟩ ::
    times.map fun time => .scan time (fun _ _ => env time) [0]

/-- Six seconds after its dispatch the packet is still there. -/
theorem entry_outlives_budget :
    ∃ s', (machine literalLz4 maskGcm).exec (start ZPeerMapping.empty none)
        (silentEvents [12, 14, 16]) = some s' ∧
      s'.scannedAt = some 16 ∧ s'.history 0 = some ⟨10, [12, 14, 16]⟩ ∧
      0 ∈ s'.host.queue.dispatcher.awaitingAckPackets ∧ ¬ s'.WithinBudget := by
  have heval : ((machine literalLz4 maskGcm).exec (start ZPeerMapping.empty none)
      (silentEvents [12, 14, 16])).map (fun s => decide (s.scannedAt = some 16 ∧
        s.history 0 = some ⟨10, [12, 14, 16]⟩ ∧
        0 ∈ s.host.queue.dispatcher.awaitingAckPackets)) = some true := by decide +kernel
  obtain ⟨s', hexec, hfacts⟩ := Option.map_eq_some_iff.mp heval
  obtain ⟨hscanned, hhistory, hmem⟩ := of_decide_eq_true hfacts
  refine ⟨s', hexec, hscanned, hhistory, hmem, fun hwithin => ?_⟩
  obtain ⟨sending, hsending, hbound⟩ := hwithin 16 hscanned 0 hmem
  obtain rfl := Option.some.inj (hhistory.symm.trans hsending)
  revert hbound
  decide

/-- Where the scan at 12 is followed by one at 18 only, the packet is sent again and dropped in
time. -/
theorem retry_budget_iff_silentEvents :
    ∃ s', (machine literalLz4 maskGcm).exec (start ZPeerMapping.empty none)
        (silentEvents [12, 18]) = some s' ∧
      (machine literalLz4 maskGcm).Always WithinBudget (start ZPeerMapping.empty none)
        (silentEvents [12, 18]) := by
  have hsome : ((machine literalLz4 maskGcm).exec (start ZPeerMapping.empty none)
      (silentEvents [12, 18])).isSome = true := by decide +kernel
  obtain ⟨s', hexec⟩ := Option.isSome_iff_exists.mp hsome
  refine ⟨s', hexec, (retry_budget_iff ZPeerMapping.empty none hexec).mpr ?_⟩
  refine ⟨id, fun sent hdispatch => ?_⟩
  have hsent {k : UInt32} {sending : Sending} (h : sent.history k = some sending) :
      sending = ⟨10, []⟩ := by
    obtain rfl := Option.some.inj hdispatch
    rcases history_dispatch h with rfl | hnone
    · rfl
    · cases hnone
  refine ⟨?_, fun scanned hscan => ⟨?_, fun _ _ => trivial⟩⟩
  -- at 12 the budget is not used up
  · rintro ⟨k, sending, last, hhistory, hlate, -⟩
    obtain rfl := hsent hhistory
    revert hlate
    decide
  -- at 18 the packet was last sent six seconds before
  · simp only [machine] at hscan
    split at hscan
    · cases hscan
    obtain rfl := Option.some.inj hscan
    rintro ⟨k, sending, last, hhistory, -, hlast, hkept⟩
    obtain ⟨old, hold, rfl⟩ := Option.map_eq_some_iff.mp hhistory
    obtain rfl := hsent hold
    obtain rfl : 12 = last := Option.some.inj hlast
    exact hkept (by decide)

end Retrying

end ZetaNet
