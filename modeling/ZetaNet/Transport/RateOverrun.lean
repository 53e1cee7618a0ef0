import ZetaNet.Lib.Tickets
import ZetaNet.Transport.RateThreads

/-!
# What concurrent calls overrun

`CheckRateLimit` looks at the counters before it charges them, so several threads can pass on the
same last packet. What they overrun the limits by is one packet for each further thread: a call
that found room holds a ticket until it is counted.
-/

namespace ZetaNet

/-! ## What a call holds -/

namespace CheckPc

variable (config : RateLimitConfig)

/-- A call that passed the packet limit, by the count or by a token, until it is counted. -/
def packetTicket : CheckPc → Nat
  | .loadBytes _ currentPackets | .loadBurst _ currentPackets _ =>
      if currentPackets < config.maxPacketsPerSecond then 1 else 0
  | .checkBytes _ _ | .addPackets _ => 1
  | _ => 0

/-- The payload, from the load of the byte counter that leaves room for it. -/
def byteTicket : CheckPc → Nat
  | .loadBurst payloadBytes _ currentBytes | .loadTokens payloadBytes currentBytes
  | .swapTokens payloadBytes currentBytes _ | .checkBytes payloadBytes currentBytes =>
      if currentBytes + payloadBytes ≤ config.maxBytesPerSecond then payloadBytes.toNat else 0
  | .addPackets payloadBytes | .addBytes payloadBytes => payloadBytes.toNat
  | _ => 0

/-- The call is counted and has not returned. -/
def returning : CheckPc → Nat
  | .addBytes _ => 1
  | _ => 0

/-- The call has not found the window over, and will not. -/
def Quiet (windowStart : Nat) : CheckPc → Prop
  | .compare now _ => now < windowStart + kNanosecondsPerSecond
  | .storePackets _ _ | .storeBytes _ _ | .storeTokens _ _ | .storeWindow _ _ => False
  | _ => True

/-- What the call may still add to the packet counter. -/
def packetsDue : CheckPc → Nat
  | .idle | .addBytes _ => 0
  | _ => 1

/-- What the call may still add to the byte counter. -/
def bytesDue : CheckPc → Nat
  | .idle => 0
  | .compare _ payloadBytes | .storePackets _ payloadBytes | .storeBytes _ payloadBytes
  | .storeTokens _ payloadBytes | .storeWindow _ payloadBytes | .loadPackets payloadBytes
  | .loadBytes payloadBytes _ | .loadBurst payloadBytes _ _ | .loadTokens payloadBytes _
  | .swapTokens payloadBytes _ _ | .checkBytes payloadBytes _ | .addPackets payloadBytes
  | .addBytes payloadBytes => payloadBytes.toNat

end CheckPc

namespace SharedLimiter

open Tickets

variable {Thread : Type} [Fintype Thread]

/-! ## No counter wraps -/

/-- What the packet counter can come to without another call. -/
def packetsAhead (s : SharedLimiter Thread) : Nat :=
  s.limiter.packetsSentThisSecond.toNat + ∑ t, (s.pc t).packetsDue

/-- What the byte counter can come to without another call. -/
def bytesAhead (s : SharedLimiter Thread) : Nat :=
  s.limiter.bytesSentThisSecond.toNat + ∑ t, (s.pc t).bytesDue

theorem packetsDue_le (s : SharedLimiter Thread) (t : Thread) :
    s.limiter.packetsSentThisSecond.toNat + (s.pc t).packetsDue ≤ s.packetsAhead :=
  Nat.add_le_add_left (Finset.single_le_sum (f := fun t => (s.pc t).packetsDue)
    (fun _ _ => Nat.zero_le _) (Finset.mem_univ t)) _

theorem bytesDue_le (s : SharedLimiter Thread) (t : Thread) :
    s.limiter.bytesSentThisSecond.toNat + (s.pc t).bytesDue ≤ s.bytesAhead :=
  Nat.add_le_add_left (Finset.single_le_sum (f := fun t => (s.pc t).bytesDue)
    (fun _ _ => Nat.zero_le _) (Finset.mem_univ t)) _

theorem toNat_add_packet {s : SharedLimiter Thread} {t : Thread} {payloadBytes : UInt64}
    (hpc : s.pc t = .addPackets payloadBytes) (hroom : s.packetsAhead < 2 ^ 64) :
    (s.limiter.packetsSentThisSecond + 1).toNat = s.limiter.packetsSentThisSecond.toNat + 1 := by
  have hdue := s.packetsDue_le t
  rw [hpc] at hdue
  replace hdue : s.limiter.packetsSentThisSecond.toNat + 1 ≤ s.packetsAhead := hdue
  rw [UInt64.toNat_add, UInt64.toNat_one, Nat.mod_eq_of_lt (by omega)]

theorem toNat_add_bytes {s : SharedLimiter Thread} {t : Thread} {payloadBytes : UInt64}
    (hdue : (s.pc t).bytesDue = payloadBytes.toNat) (hroom : s.bytesAhead < 2 ^ 64) :
    (s.limiter.bytesSentThisSecond + payloadBytes).toNat =
      s.limiter.bytesSentThisSecond.toNat + payloadBytes.toNat := by
  have hle := s.bytesDue_le t
  rw [UInt64.toNat_add, Nat.mod_eq_of_lt (by omega)]

variable [DecidableEq Thread] {s s' : SharedLimiter Thread} {t : Thread} {spurious : Bool}
  {pc : CheckPc}

theorem packetsAhead_le {amount : Nat} (hpc : s'.pc = Function.update s.pc t pc)
    (hdue : s'.limiter.packetsSentThisSecond.toNat + pc.packetsDue ≤
      s.limiter.packetsSentThisSecond.toNat + (s.pc t).packetsDue + amount) :
    s'.packetsAhead ≤ s.packetsAhead + amount := by
  have hsum := Finset.sum_update_add CheckPc.packetsDue s.pc t pc
  unfold packetsAhead
  rw [hpc]
  omega

theorem bytesAhead_le {amount : Nat} (hpc : s'.pc = Function.update s.pc t pc)
    (hdue : s'.limiter.bytesSentThisSecond.toNat + pc.bytesDue ≤
      s.limiter.bytesSentThisSecond.toNat + (s.pc t).bytesDue + amount) :
    s'.bytesAhead ≤ s.bytesAhead + amount := by
  have hsum := Finset.sum_update_add CheckPc.bytesDue s.pc t pc
  unfold bytesAhead
  rw [hpc]
  omega

/-- A step of a call adds nothing to what the counters can come to. -/
theorem stepCheck_ahead (hpc : s.pc t = pc) (hstep : s.stepCheck t spurious pc = some s')
    (hpackets : s.packetsAhead < 2 ^ 64) (hbytes : s.bytesAhead < 2 ^ 64) :
    s'.packetsAhead ≤ s.packetsAhead ∧ s'.bytesAhead ≤ s.bytesAhead := by
  have hgoto {limiter : RateLimiter} {pc' : CheckPc} (hs' : s'.limiter = limiter)
      (hpc' : s'.pc = Function.update s.pc t pc')
      (hpacket : limiter.packetsSentThisSecond.toNat + pc'.packetsDue ≤
        s.limiter.packetsSentThisSecond.toNat + pc.packetsDue)
      (hbyte : limiter.bytesSentThisSecond.toNat + pc'.bytesDue ≤
        s.limiter.bytesSentThisSecond.toNat + pc.bytesDue) :
      s'.packetsAhead ≤ s.packetsAhead ∧ s'.bytesAhead ≤ s.bytesAhead := by
    have hpacketsAhead : s'.packetsAhead ≤ s.packetsAhead + 0 := packetsAhead_le hpc' (by
      rw [hs', hpc]
      exact hpacket)
    have hbytesAhead : s'.bytesAhead ≤ s.bytesAhead + 0 := bytesAhead_le hpc' (by
      rw [hs', hpc]
      exact hbyte)
    exact ⟨hpacketsAhead, hbytesAhead⟩
  cases pc with
  | idle => cases hstep
  | compare now payloadBytes =>
      rw [stepCheck] at hstep
      split at hstep <;> cases hstep <;> exact hgoto rfl rfl le_rfl le_rfl
  | storePackets now payloadBytes =>
      cases hstep
      exact hgoto rfl rfl (Nat.add_le_add_right (Nat.zero_le _) _) le_rfl
  | storeBytes now payloadBytes =>
      cases hstep
      exact hgoto rfl rfl le_rfl (Nat.add_le_add_right (Nat.zero_le _) _)
  | storeTokens | storeWindow | loadPackets | loadBytes | loadTokens =>
      cases hstep
      exact hgoto rfl rfl le_rfl le_rfl
  | loadBurst payloadBytes currentPackets currentBytes =>
      rw [stepCheck] at hstep
      split at hstep <;> cases hstep <;> exact hgoto rfl rfl le_rfl le_rfl
  | swapTokens payloadBytes currentBytes currentBurst =>
      rw [stepCheck] at hstep
      split at hstep
      · cases hstep
        exact hgoto rfl rfl (Nat.add_le_add_left (Nat.zero_le _) _)
          (Nat.add_le_add_left (Nat.zero_le _) _)
      · split at hstep <;> cases hstep <;> exact hgoto rfl rfl le_rfl le_rfl
  | checkBytes payloadBytes currentBytes =>
      rw [stepCheck] at hstep
      split at hstep <;> cases hstep
      · exact hgoto rfl rfl (Nat.add_le_add_left (Nat.zero_le _) _)
          (Nat.add_le_add_left (Nat.zero_le _) _)
      · exact hgoto rfl rfl le_rfl le_rfl
  | addPackets payloadBytes =>
      have hadd := toNat_add_packet hpc hpackets
      cases hstep
      exact hgoto rfl rfl hadd.le le_rfl
  | addBytes payloadBytes =>
      have hdue : (s.pc t).bytesDue = payloadBytes.toNat := by rw [hpc, CheckPc.bytesDue]
      have hadd := toNat_add_bytes hdue hbytes
      cases hstep
      exact hgoto rfl rfl le_rfl hadd.le

/-! ## The invariant -/

/-- How the counters stand to what was admitted, in a run that began with `limiter` and has
payloads of at most `most` bytes. `added` calls are counted, `taken` tokens are taken. -/
structure Charged (limiter : RateLimiter) (most added taken : Nat) (s : SharedLimiter Thread) :
    Prop where
  config : s.limiter.config = limiter.config
  payload_le : ∀ t, (s.pc t).bytesDue ≤ most
  packets : Within limiter.config.maxPacketsPerSecond.toNat 1 s.packetStores taken added
    s.limiter.packetsSentThisSecond.toNat (CheckPc.packetTicket limiter.config) s.pc
  bytes : Within limiter.config.maxBytesPerSecond.toNat most s.byteStores 0
    (s.admitted.map UInt64.toNat).sum s.limiter.bytesSentThisSecond.toNat
    (CheckPc.byteTicket limiter.config) s.pc
  tokens : taken + s.limiter.burstTokens.toNat ≤
    limiter.burstTokens.toNat + s.tokenStores * limiter.config.burstAllowance.toNat
  admitted : s.admitted.length + ∑ t, (s.pc t).returning = added

omit [DecidableEq Thread] in
theorem charged_init (limiter : RateLimiter) (most : Nat) :
    (init Thread limiter).Charged limiter most 0 0 where
  config := rfl
  payload_le _ := Nat.zero_le _
  packets := within_start _ _ _ fun _ => rfl
  bytes := within_start _ _ _ fun _ => rfl
  tokens := (Nat.zero_add _).le.trans (Nat.le_add_right _ _)
  admitted := (Nat.zero_add _).trans (Finset.sum_eq_zero fun _ _ => rfl)

section Charged

variable {limiter : RateLimiter} {most added taken : Nat}

theorem sum_returning_goto (s : SharedLimiter Thread) (t : Thread) (pc : CheckPc) :
    ∑ u, (Function.update s.pc t pc u).returning + (s.pc t).returning =
      ∑ u, (s.pc u).returning + pc.returning :=
  Finset.sum_update_add CheckPc.returning s.pc t pc

theorem sum_returning_same (h : pc.returning = (s.pc t).returning) :
    ∑ u, (Function.update s.pc t pc u).returning = ∑ u, (s.pc u).returning := by
  have hsum := sum_returning_goto s t pc
  omega

/-- The call gets further with the tickets it has, or gives some back. -/
theorem Charged.goto (h : s.Charged limiter most added taken)
    (hpayload : pc.bytesDue ≤ (s.pc t).bytesDue)
    (hpacket : pc.packetTicket limiter.config ≤ (s.pc t).packetTicket limiter.config)
    (hbyte : pc.byteTicket limiter.config ≤ (s.pc t).byteTicket limiter.config)
    (hreturning : pc.returning = (s.pc t).returning) :
    (s.goto t pc).Charged limiter most added taken where
  config := h.config
  payload_le := weight_update_le h.payload_le (hpayload.trans (h.payload_le t))
  packets := h.packets.move hpacket
  bytes := h.bytes.move hbyte
  tokens := h.tokens
  admitted := (congrArg _ (sum_returning_same hreturning)).trans h.admitted

omit [DecidableEq Thread] in
theorem Charged.storePackets (h : s.Charged limiter most added taken) :
    { s with
      limiter := { s.limiter with packetsSentThisSecond := 0 }
      packetStores := s.packetStores + 1 }.Charged limiter most added taken where
  config := h.config
  payload_le := h.payload_le
  packets := h.packets.refill
  bytes := h.bytes
  tokens := h.tokens
  admitted := h.admitted

omit [DecidableEq Thread] in
theorem Charged.storeBytes (h : s.Charged limiter most added taken) :
    { s with
      limiter := { s.limiter with bytesSentThisSecond := 0 }
      byteStores := s.byteStores + 1 }.Charged limiter most added taken where
  config := h.config
  payload_le := h.payload_le
  packets := h.packets
  bytes := h.bytes.refill
  tokens := h.tokens
  admitted := h.admitted

omit [DecidableEq Thread] in
theorem Charged.storeTokens (h : s.Charged limiter most added taken) :
    { s with
      limiter := { s.limiter with burstTokens := s.limiter.config.burstAllowance }
      tokenStores := s.tokenStores + 1 }.Charged limiter most added taken where
  config := h.config
  payload_le := h.payload_le
  packets := h.packets
  bytes := h.bytes
  tokens := by
    have htokens := h.tokens
    have hround : (s.tokenStores + 1) * limiter.config.burstAllowance.toNat =
        s.tokenStores * limiter.config.burstAllowance.toNat +
          limiter.config.burstAllowance.toNat := Nat.succ_mul _ _
    show taken + s.limiter.config.burstAllowance.toNat ≤
      limiter.burstTokens.toNat + (s.tokenStores + 1) * limiter.config.burstAllowance.toNat
    rw [h.config]
    omega
  admitted := h.admitted

omit [DecidableEq Thread] in
theorem Charged.storeWindow (h : s.Charged limiter most added taken) (now : Nat) :
    { s with limiter := { s.limiter with windowStart := now } }.Charged limiter most added
      taken where
  config := h.config
  payload_le := h.payload_le
  packets := h.packets
  bytes := h.bytes
  tokens := h.tokens
  admitted := h.admitted

/-- The packet counter is read: below the limit there is room for one packet. -/
theorem Charged.loadPackets (h : s.Charged limiter most added taken) {payloadBytes : UInt64}
    (hpc : s.pc t = .loadPackets payloadBytes) :
    (s.goto t (.loadBytes payloadBytes s.limiter.packetsSentThisSecond)).Charged limiter most
      added taken where
  config := h.config
  payload_le := weight_update_le h.payload_le (by
    have hpayload := h.payload_le t
    rwa [hpc] at hpayload)
  packets := by
    by_cases hbelow : s.limiter.packetsSentThisSecond < limiter.config.maxPacketsPerSecond
    · have hticket : (CheckPc.loadBytes payloadBytes
          s.limiter.packetsSentThisSecond).packetTicket limiter.config = 1 := if_pos hbelow
      refine h.packets.take hticket.le ?_
      rw [hticket]
      exact UInt64.lt_iff_toNat_lt.mp hbelow
    · have hticket : (CheckPc.loadBytes payloadBytes
          s.limiter.packetsSentThisSecond).packetTicket limiter.config = 0 := if_neg hbelow
      exact h.packets.move (hticket.le.trans (Nat.zero_le _))
  bytes := h.bytes.move (Nat.zero_le _)
  tokens := h.tokens
  admitted := (congrArg _ (sum_returning_same (by rw [hpc]; rfl))).trans h.admitted

/-- The byte counter is read: there may be room for the payload. -/
theorem Charged.loadBytes (h : s.Charged limiter most added taken)
    {payloadBytes currentPackets : UInt64} (hpc : s.pc t = .loadBytes payloadBytes currentPackets)
    (hroom : s.bytesAhead < 2 ^ 64) :
    (s.goto t (.loadBurst payloadBytes currentPackets s.limiter.bytesSentThisSecond)).Charged
      limiter most added taken where
  config := h.config
  payload_le := weight_update_le h.payload_le (by
    have hpayload := h.payload_le t
    rwa [hpc] at hpayload)
  packets := h.packets.move (by rw [hpc]; rfl)
  bytes := by
    have hdue : (s.pc t).bytesDue = payloadBytes.toNat := by rw [hpc, CheckPc.bytesDue]
    have hsum := toNat_add_bytes hdue hroom
    by_cases hfits : s.limiter.bytesSentThisSecond + payloadBytes ≤
        limiter.config.maxBytesPerSecond
    · have hticket : (CheckPc.loadBurst payloadBytes currentPackets
          s.limiter.bytesSentThisSecond).byteTicket limiter.config = payloadBytes.toNat :=
        if_pos hfits
      refine h.bytes.take (hticket.le.trans (hdue.ge.trans (h.payload_le t))) ?_
      rw [hticket, ← hsum]
      exact UInt64.le_iff_toNat_le.mp hfits
    · have hticket : (CheckPc.loadBurst payloadBytes currentPackets
          s.limiter.bytesSentThisSecond).byteTicket limiter.config = 0 := if_neg hfits
      exact h.bytes.move (hticket.le.trans (Nat.zero_le _))
  tokens := h.tokens
  admitted := (congrArg _ (sum_returning_same (by rw [hpc]; rfl))).trans h.admitted

/-- A token is taken: the call may go beyond the packet limit. -/
theorem Charged.swapTokens (h : s.Charged limiter most added taken)
    {payloadBytes currentBytes : UInt64}
    (hpc : s.pc t = .swapTokens payloadBytes currentBytes s.limiter.burstTokens)
    (htokens : s.limiter.burstTokens ≠ 0) :
    ({ s with limiter := { s.limiter with burstTokens := s.limiter.burstTokens - 1 } }.goto t
      (.checkBytes payloadBytes currentBytes)).Charged limiter most added (taken + 1) where
  config := h.config
  payload_le := weight_update_le h.payload_le (by
    have hpayload := h.payload_le t
    rwa [hpc] at hpayload)
  packets := h.packets.grant 1 le_rfl (Nat.le_add_left _ _)
  bytes := h.bytes.move (by rw [hpc]; rfl)
  tokens := by
    have hspent := RateLimiter.toNat_spent_token htokens
    have hle := h.tokens
    show taken + 1 + (s.limiter.burstTokens - 1).toNat ≤ _
    exact Nat.le_trans (by omega) hle
  admitted := (congrArg _ (sum_returning_same (by rw [hpc]; rfl))).trans h.admitted

/-- The packet is counted. -/
theorem Charged.addPackets (h : s.Charged limiter most added taken) {payloadBytes : UInt64}
    (hpc : s.pc t = .addPackets payloadBytes) (hroom : s.packetsAhead < 2 ^ 64) :
    ({ s with
      limiter :=
        { s.limiter with packetsSentThisSecond := s.limiter.packetsSentThisSecond + 1 } }.goto t
      (.addBytes payloadBytes)).Charged limiter most (added + 1) taken where
  config := h.config
  payload_le := weight_update_le h.payload_le (by
    have hpayload := h.payload_le t
    rwa [hpc] at hpayload)
  packets := by
    show Within _ 1 s.packetStores taken (added + 1)
      (s.limiter.packetsSentThisSecond + 1).toNat _ _
    rw [toNat_add_packet hpc hroom]
    exact h.packets.spend 1 (by rw [hpc]; rfl)
  bytes := h.bytes.move (by rw [hpc]; rfl)
  tokens := h.tokens
  admitted := by
    have hsum := sum_returning_goto s t (.addBytes payloadBytes)
    rw [hpc] at hsum
    have hadmitted := h.admitted
    show s.admitted.length + ∑ u, (Function.update s.pc t (.addBytes payloadBytes) u).returning =
      added + 1
    replace hsum : _ = ∑ u, (s.pc u).returning + 1 := hsum
    rw [← hadmitted, Nat.add_assoc, ← hsum]
    rfl

/-- The payload is counted, and the call returns `true`. -/
theorem Charged.addBytes (h : s.Charged limiter most added taken) {payloadBytes : UInt64}
    (hpc : s.pc t = .addBytes payloadBytes) (hroom : s.bytesAhead < 2 ^ 64) :
    ({ s with
      limiter :=
        { s.limiter with bytesSentThisSecond := s.limiter.bytesSentThisSecond + payloadBytes }
      admitted := s.admitted ++ [payloadBytes] }.goto t .idle).Charged limiter most added
      taken where
  config := h.config
  payload_le := weight_update_le h.payload_le (Nat.zero_le _)
  packets := h.packets.move (Nat.zero_le _)
  bytes := by
    have hdue : (s.pc t).bytesDue = payloadBytes.toNat := by rw [hpc, CheckPc.bytesDue]
    show Within _ most s.byteStores 0 ((s.admitted ++ [payloadBytes]).map UInt64.toNat).sum
      (s.limiter.bytesSentThisSecond + payloadBytes).toNat _ _
    rw [toNat_add_bytes hdue hroom, List.map_append, List.sum_append, List.map_singleton,
      List.sum_singleton]
    exact h.bytes.spend payloadBytes.toNat (by rw [hpc]; exact (Nat.zero_add _).le)
  tokens := h.tokens
  admitted := by
    have hsum := sum_returning_goto s t .idle
    rw [hpc] at hsum
    have hadmitted := h.admitted
    show (s.admitted ++ [payloadBytes]).length +
      ∑ u, (Function.update s.pc t .idle u).returning = added
    replace hsum : ∑ u, (Function.update s.pc t .idle u).returning + 1 =
      ∑ u, (s.pc u).returning := hsum
    rw [List.length_append, List.length_singleton]
    omega

/-- One step of a call. -/
theorem Charged.stepCheck (h : s.Charged limiter most added taken) (hpc : s.pc t = pc)
    (hpackets : s.packetsAhead < 2 ^ 64) (hbytes : s.bytesAhead < 2 ^ 64)
    (hstep : s.stepCheck t spurious pc = some s') :
    ∃ added taken, s'.Charged limiter most added taken := by
  have hgoto {s₁ : SharedLimiter Thread} (h₁ : s₁.Charged limiter most added taken)
      (hpc₁ : s₁.pc = s.pc) (pc' : CheckPc) (hpayload : pc'.bytesDue ≤ pc.bytesDue)
      (hpacket : pc'.packetTicket limiter.config ≤ pc.packetTicket limiter.config)
      (hbyte : pc'.byteTicket limiter.config ≤ pc.byteTicket limiter.config)
      (hreturning : pc'.returning = pc.returning) :
      ∃ added taken, (s₁.goto t pc').Charged limiter most added taken := by
    obtain rfl : pc = s₁.pc t := by rw [hpc₁, hpc]
    exact ⟨added, taken, h₁.goto hpayload hpacket hbyte hreturning⟩
  cases pc with
  | idle => cases hstep
  | compare now payloadBytes =>
      rw [SharedLimiter.stepCheck] at hstep
      split at hstep <;> cases hstep <;> exact hgoto h rfl _ le_rfl le_rfl le_rfl rfl
  | storePackets now payloadBytes =>
      cases hstep
      exact hgoto h.storePackets rfl _ le_rfl le_rfl le_rfl rfl
  | storeBytes now payloadBytes =>
      cases hstep
      exact hgoto h.storeBytes rfl _ le_rfl le_rfl le_rfl rfl
  | storeTokens now payloadBytes =>
      cases hstep
      exact hgoto h.storeTokens rfl _ le_rfl le_rfl le_rfl rfl
  | storeWindow now payloadBytes =>
      cases hstep
      exact hgoto (h.storeWindow now) rfl _ le_rfl le_rfl le_rfl rfl
  | loadPackets payloadBytes =>
      cases hstep
      exact ⟨added, taken, h.loadPackets hpc⟩
  | loadBytes payloadBytes currentPackets =>
      cases hstep
      exact ⟨added, taken, h.loadBytes hpc hbytes⟩
  | loadBurst payloadBytes currentPackets currentBytes =>
      rw [SharedLimiter.stepCheck, h.config] at hstep
      split at hstep <;> cases hstep
      · exact hgoto h rfl _ le_rfl (Nat.zero_le _) le_rfl rfl
      · -- below the limit the ticket is there
        rename_i hbelow
        have hticket : (CheckPc.loadBurst payloadBytes currentPackets currentBytes).packetTicket
            limiter.config = 1 := if_pos (UInt64.not_le.mp hbelow)
        exact hgoto h rfl _ le_rfl hticket.ge le_rfl rfl
  | loadTokens payloadBytes currentBytes =>
      cases hstep
      exact hgoto h rfl _ le_rfl le_rfl le_rfl rfl
  | swapTokens payloadBytes currentBytes currentBurst =>
      rw [SharedLimiter.stepCheck] at hstep
      split at hstep
      · cases hstep
        exact hgoto h rfl _ (Nat.zero_le _) le_rfl (Nat.zero_le _) rfl
      · rename_i htokens
        split at hstep
        · rename_i hswap
          obtain ⟨rfl, -⟩ := hswap
          cases hstep
          exact ⟨added, taken + 1, h.swapTokens hpc htokens⟩
        · cases hstep
          exact hgoto h rfl _ le_rfl le_rfl le_rfl rfl
  | checkBytes payloadBytes currentBytes =>
      rw [SharedLimiter.stepCheck, h.config] at hstep
      split at hstep <;> cases hstep
      · exact hgoto h rfl _ (Nat.zero_le _) (Nat.zero_le _) (Nat.zero_le _) rfl
      · -- the ticket holds the payload
        rename_i hfits
        have hticket : (CheckPc.checkBytes payloadBytes currentBytes).byteTicket
            limiter.config = payloadBytes.toNat := if_pos (UInt64.not_lt.mp hfits)
        exact hgoto h rfl _ le_rfl le_rfl hticket.ge rfl
  | addPackets payloadBytes =>
      cases hstep
      exact ⟨added + 1, taken, h.addPackets hpc hpackets⟩
  | addBytes payloadBytes =>
      cases hstep
      exact ⟨added, taken, h.addBytes hpc hbytes⟩

/-- A call begins. -/
theorem Charged.call (h : s.Charged limiter most added taken) (hpc : s.pc t = .idle) (now : Nat)
    {payloadBytes : UInt64} (hmost : payloadBytes.toNat ≤ most) :
    (s.goto t (.compare now payloadBytes)).Charged limiter most added taken where
  config := h.config
  payload_le := weight_update_le h.payload_le hmost
  packets := h.packets.move (Nat.zero_le _)
  bytes := h.bytes.move (Nat.zero_le _)
  tokens := h.tokens
  admitted := (congrArg _ (sum_returning_same (by rw [hpc]; rfl))).trans h.admitted

end Charged

/-! ## Runs -/

variable {limiter : RateLimiter} {most : Nat} {events : List (CheckEvent Thread)}

/-- A run of any calls keeps the counters charged. -/
theorem run_charged (h : ∃ added taken, s.Charged limiter most added taken)
    (hmost : ∀ payloadBytes ∈ payloads events, payloadBytes.toNat ≤ most)
    (hpackets : s.packetsAhead + (payloads events).length < 2 ^ 64)
    (hbytes : s.bytesAhead + ((payloads events).map UInt64.toNat).sum < 2 ^ 64)
    (hexec : machine.exec s events = some s') :
    ∃ added taken, s'.Charged limiter most added taken := by
  induction events generalizing s with
  | nil =>
      obtain rfl := Option.some.inj hexec
      exact h
  | cons e events ih =>
      obtain ⟨mid, hstep, hrest⟩ := (machine.exec_cons_eq_some).mp hexec
      obtain ⟨added, taken, hcharged⟩ := h
      rcases step_cases hstep with
        ⟨t, now, payloadBytes, rfl, hidle, rfl⟩ | ⟨t, spurious, rfl, hcheck⟩
      · have hpayloads : payloads (.call t now payloadBytes :: events) =
            payloadBytes :: payloads events := rfl
        rw [hpayloads] at hmost hpackets hbytes
        rw [List.length_cons] at hpackets
        rw [List.map_cons, List.sum_cons] at hbytes
        have hfirst := hmost payloadBytes List.mem_cons_self
        have haheadPackets : (s.goto t (.compare now payloadBytes)).packetsAhead ≤
            s.packetsAhead + 1 := packetsAhead_le rfl (by
          rw [hidle]
          exact le_rfl)
        have haheadBytes : (s.goto t (.compare now payloadBytes)).bytesAhead ≤
            s.bytesAhead + payloadBytes.toNat := bytesAhead_le rfl (by
          rw [hidle]
          exact le_rfl)
        exact ih ⟨added, taken, hcharged.call hidle now hfirst⟩
          (fun p hp => hmost p (List.mem_cons_of_mem _ hp)) (by omega) (by omega) hrest
      · have hpayloads : payloads (.step t spurious :: events) = payloads events := rfl
        rw [hpayloads] at hmost hpackets hbytes
        have hroomPackets : s.packetsAhead < 2 ^ 64 := by omega
        have hroomBytes : s.bytesAhead < 2 ^ 64 := by omega
        obtain ⟨haheadPackets, haheadBytes⟩ :=
          stepCheck_ahead rfl hcheck hroomPackets hroomBytes
        exact ih (hcharged.stepCheck rfl hroomPackets hroomBytes hcheck) hmost (by omega)
          (by omega) hrest

/-! ## Within a window -/

/-- No counter has been set back. -/
structure QuietWindow (limiter : RateLimiter) (s : SharedLimiter Thread) : Prop where
  windowStart : s.limiter.windowStart = limiter.windowStart
  quiet : ∀ t, (s.pc t).Quiet limiter.windowStart
  packetStores : s.packetStores = 0
  byteStores : s.byteStores = 0
  tokenStores : s.tokenStores = 0

omit [Fintype Thread] in
theorem QuietWindow.goto {s₁ : SharedLimiter Thread} (h : s.QuietWindow limiter)
    (hpc : s₁.pc = s.pc) (hwindow : s₁.limiter.windowStart = s.limiter.windowStart)
    (hpackets : s₁.packetStores = s.packetStores) (hbytes : s₁.byteStores = s.byteStores)
    (htokens : s₁.tokenStores = s.tokenStores) (hquiet : pc.Quiet limiter.windowStart) :
    (s₁.goto t pc).QuietWindow limiter where
  windowStart := hwindow.trans h.windowStart
  quiet u := by
    show (Function.update s₁.pc t pc u).Quiet _
    by_cases hu : u = t
    · rw [hu, Function.update_self]
      exact hquiet
    · rw [Function.update_of_ne hu, hpc]
      exact h.quiet u
  packetStores := hpackets.trans h.packetStores
  byteStores := hbytes.trans h.byteStores
  tokenStores := htokens.trans h.tokenStores

omit [Fintype Thread] in
theorem QuietWindow.stepCheck (h : s.QuietWindow limiter)
    (hstep : s.stepCheck t spurious (s.pc t) = some s') : s'.QuietWindow limiter := by
  have hquiet := h.quiet t
  cases hpc : s.pc t with
  | idle =>
      rw [hpc] at hstep
      cases hstep
  | compare now payloadBytes =>
      rw [hpc] at hstep hquiet
      rw [SharedLimiter.stepCheck] at hstep
      -- the call comes before the window is over
      have hearly : ¬ (now - s.limiter.windowStart) / kNanosecondsPerSecond ≥ 1 := by
        rw [h.windowStart]
        replace hquiet : now < limiter.windowStart + kNanosecondsPerSecond := hquiet
        have hlt : now - limiter.windowStart < kNanosecondsPerSecond := by
          unfold kNanosecondsPerSecond at *
          omega
        rw [Nat.div_eq_of_lt hlt]
        exact Nat.not_succ_le_zero 0
      rw [if_neg hearly] at hstep
      cases hstep
      exact h.goto rfl rfl rfl rfl rfl trivial
  | storePackets | storeBytes | storeTokens | storeWindow =>
      rw [hpc] at hquiet
      exact hquiet.elim
  | loadPackets | loadBytes | loadTokens | addPackets | addBytes =>
      rw [hpc] at hstep
      cases hstep
      exact h.goto rfl rfl rfl rfl rfl trivial
  | loadBurst | checkBytes =>
      rw [hpc, SharedLimiter.stepCheck] at hstep
      split at hstep <;> cases hstep <;> exact h.goto rfl rfl rfl rfl rfl trivial
  | swapTokens =>
      rw [hpc, SharedLimiter.stepCheck] at hstep
      split at hstep
      · cases hstep
        exact h.goto rfl rfl rfl rfl rfl trivial
      · split at hstep <;> cases hstep <;> exact h.goto rfl rfl rfl rfl rfl trivial

omit [Fintype Thread] in
theorem run_quiet (h : s.QuietWindow limiter)
    (hclock : ∀ t now payloadBytes, .call t now payloadBytes ∈ events →
      now < limiter.windowStart + kNanosecondsPerSecond)
    (hexec : machine.exec s events = some s') : s'.QuietWindow limiter := by
  have halong : machine.Along (fun _ e => ∀ t now payloadBytes, e = .call t now payloadBytes →
      now < limiter.windowStart + kNanosecondsPerSecond) s events :=
    machine.along_of_forall
      (fun e he t now payloadBytes (hcall : e = .call t now payloadBytes) =>
        hclock t now payloadBytes (hcall ▸ he)) s
  refine machine.invariant_of_along (fun s e s' hs hcondition hstep => ?_) h halong hexec
  rcases step_cases hstep with ⟨t, now, payloadBytes, rfl, -, rfl⟩ | ⟨t, spurious, rfl, hcheck⟩
  · exact hs.goto rfl rfl rfl rfl rfl (hcondition t now payloadBytes rfl)
  · exact hs.stepCheck hcheck

/-! ## The bounds -/

/-- Whatever the threads do, the packets admitted stay within the packet limit, once for the
start and once for each time the counter is set back, and the tokens handed out; the bytes stay
within the byte limit in the same way; and each further thread can overrun a limit by one packet.
In calls that all come before the window is over no counter is set back. -/
theorem concurrent_bound (limiter : RateLimiter)
    (hmost : ∀ payloadBytes ∈ payloads events, payloadBytes.toNat ≤ most)
    (hpackets : limiter.packetsSentThisSecond.toNat + (payloads events).length < 2 ^ 64)
    (hbytes : limiter.bytesSentThisSecond.toNat +
      ((payloads events).map UInt64.toNat).sum < 2 ^ 64)
    (hexec : machine.exec (init Thread limiter) events = some s) :
    s.admitted.length ≤
        (s.packetStores + 1) *
            (limiter.config.maxPacketsPerSecond.toNat + (Fintype.card Thread - 1)) +
          (limiter.burstTokens.toNat + s.tokenStores * limiter.config.burstAllowance.toNat) ∧
      (s.admitted.map UInt64.toNat).sum ≤
        (s.byteStores + 1) *
          (limiter.config.maxBytesPerSecond.toNat + (Fintype.card Thread - 1) * most) ∧
      ((∀ t now payloadBytes, .call t now payloadBytes ∈ events →
          now < limiter.windowStart + kNanosecondsPerSecond) →
        s.packetStores = 0 ∧ s.byteStores = 0 ∧ s.tokenStores = 0) := by
  have hsumPackets : ∑ t : Thread, ((init Thread limiter).pc t).packetsDue = 0 :=
    Finset.sum_eq_zero fun _ _ => rfl
  have hsumBytes : ∑ t : Thread, ((init Thread limiter).pc t).bytesDue = 0 :=
    Finset.sum_eq_zero fun _ _ => rfl
  have haheadPackets : (init Thread limiter).packetsAhead =
      limiter.packetsSentThisSecond.toNat := by
    rw [packetsAhead, hsumPackets]
    rfl
  have haheadBytes : (init Thread limiter).bytesAhead =
      limiter.bytesSentThisSecond.toNat := by
    rw [bytesAhead, hsumBytes]
    rfl
  obtain ⟨added, taken, h⟩ := run_charged ⟨0, 0, charged_init limiter most⟩ hmost
    (by rwa [haheadPackets]) (by rwa [haheadBytes]) hexec
  refine ⟨?_, ?_, fun hclock => ?_⟩
  · have htotal := (Nat.le_add_right _ _).trans h.packets.total_le
    have htokens := h.tokens
    have hadmitted := h.admitted
    unfold share at htotal
    rw [Nat.mul_one] at htotal
    omega
  · exact (Nat.le_add_right _ _).trans h.bytes.total_le
  · have hquiet : (init Thread limiter).QuietWindow limiter :=
      ⟨rfl, fun _ => trivial, rfl, rfl, rfl⟩
    have hlast := run_quiet hquiet hclock hexec
    exact ⟨hlast.packetStores, hlast.byteStores, hlast.tokenStores⟩

/-- One packet and ten bytes a second, no burst. -/
def singleLimiter : RateLimiter := ⟨⟨1, 10, 0⟩, 0, 0, 0, 0⟩

/-- Both threads load the counters before either of them adds to them. -/
def overrun : List (CheckEvent Bool) :=
  [.call true 3 10, .call false 4 10] ++ List.replicate 5 (.step true false) ++
    List.replicate 7 (.step false false) ++ List.replicate 2 (.step true false)

/-- The two threads admit two packets of ten bytes, as much as the bounds allow. -/
theorem concurrent_bound_overrun :
    ∃ s, machine.exec (init Bool singleLimiter) overrun = some s ∧ s.admitted = [10, 10] ∧
      s.admitted.length ≤ (0 + 1) * (1 + (2 - 1)) + (0 + 0 * 0) ∧
      (s.admitted.map UInt64.toNat).sum ≤ (0 + 1) * (10 + (2 - 1) * 10) := by
  have hpayloads : payloads overrun = [10, 10] := rfl
  have hmost : ∀ payloadBytes ∈ payloads overrun, payloadBytes.toNat ≤ 10 := by
    simp [hpayloads]
  have hbound := concurrent_bound singleLimiter hmost (by decide) (by decide) rfl
  exact ⟨_, rfl, rfl, hbound.1, hbound.2.1⟩

end SharedLimiter

end ZetaNet
