import ZetaNet.Lib.Machine
import ZetaNet.Transport.RateLimit

/-!
# What the rate limiter admits in a window

A window runs from one reset of the counters to the next. The three counters have their own
rules: packets and bytes are charged for an admitted packet, a burst token is taken by every
packet beyond the packet limit, before the bytes are looked at. `Decision` says once what a call
can do; the bound of a window and the effect of refused packets are read off from it.
-/

namespace ZetaNet

namespace RateLimiter

/-- A call of `CheckRateLimit`: the clock it reads and its argument. -/
structure Call where
  now : Nat
  payloadBytes : UInt64
  deriving DecidableEq, Repr

/-- The call starts a new window. -/
def Resets (limiter : RateLimiter) (now : Nat) : Prop :=
  (now - limiter.windowStart) / kNanosecondsPerSecond ≥ 1

instance (limiter : RateLimiter) (now : Nat) : Decidable (limiter.Resets now) :=
  inferInstanceAs (Decidable (_ ≥ _))

def admits (limiter : RateLimiter) (call : Call) : Bool :=
  (limiter.checkRateLimit call.now call.payloadBytes).1

def after (limiter : RateLimiter) (call : Call) : RateLimiter :=
  (limiter.checkRateLimit call.now call.payloadBytes).2

/-- One call after the other. -/
def checking : Machine RateLimiter Call := ⟨fun limiter call => some (limiter.after call)⟩

/-- The calls that return `true`. -/
def admitted : RateLimiter → List Call → List Call
  | _, [] => []
  | limiter, call :: calls =>
      if limiter.admits call then call :: admitted (limiter.after call) calls
      else admitted (limiter.after call) calls

/-! ## One call -/

/-- The count limit is reached. -/
def AtCount (limiter : RateLimiter) : Prop :=
  limiter.packetsSentThisSecond ≥ limiter.config.maxPacketsPerSecond

/-- The payload is over the byte limit. -/
def OverBytes (limiter : RateLimiter) (payloadBytes : UInt64) : Prop :=
  limiter.bytesSentThisSecond + payloadBytes > limiter.config.maxBytesPerSecond

instance (limiter : RateLimiter) : Decidable limiter.AtCount :=
  inferInstanceAs (Decidable (_ ≥ _))

instance (limiter : RateLimiter) (payloadBytes : UInt64) :
    Decidable (limiter.OverBytes payloadBytes) := inferInstanceAs (Decidable (_ > _))

def spendToken (limiter : RateLimiter) : RateLimiter :=
  { limiter with burstTokens := limiter.burstTokens - 1 }

def charge (limiter : RateLimiter) (payloadBytes : UInt64) : RateLimiter :=
  { limiter with
    packetsSentThisSecond := limiter.packetsSentThisSecond + 1
    bytesSentThisSecond := limiter.bytesSentThisSecond + payloadBytes }

/-- Everything a call can do to the limiter once a reset that was due is made. -/
inductive Decision (limiter : RateLimiter) (payloadBytes : UInt64) : Bool → RateLimiter → Prop
  /-- beyond the count and no token left -/
  | starved (count : limiter.AtCount) (tokens : limiter.burstTokens = 0) :
      Decision limiter payloadBytes false limiter
  /-- too many bytes, within the count -/
  | oversized (count : ¬ limiter.AtCount) (bytes : limiter.OverBytes payloadBytes) :
      Decision limiter payloadBytes false limiter
  /-- too many bytes, and the token is gone already -/
  | wasted (count : limiter.AtCount) (tokens : limiter.burstTokens ≠ 0)
      (bytes : limiter.OverBytes payloadBytes) :
      Decision limiter payloadBytes false limiter.spendToken
  | counted (count : ¬ limiter.AtCount) (bytes : ¬ limiter.OverBytes payloadBytes) :
      Decision limiter payloadBytes true (limiter.charge payloadBytes)
  | burst (count : limiter.AtCount) (tokens : limiter.burstTokens ≠ 0)
      (bytes : ¬ limiter.OverBytes payloadBytes) :
      Decision limiter payloadBytes true (limiter.spendToken.charge payloadBytes)

theorem decision (limiter : RateLimiter) (call : Call) :
    Decision (limiter.refresh call.now) call.payloadBytes (limiter.admits call)
      (limiter.after call) := by
  unfold admits after checkRateLimit
  generalize limiter.refresh call.now = current
  by_cases hcount : current.packetsSentThisSecond ≥ current.config.maxPacketsPerSecond
  · by_cases htokens : current.burstTokens = 0
    · have htake : current.takeBurstToken = none := by
        rw [takeBurstToken, if_pos hcount, if_pos htokens]
      simp only [htake]
      exact .starved hcount htokens
    · have htake : current.takeBurstToken = some current.spendToken := by
        rw [takeBurstToken, if_pos hcount, if_neg htokens]
        rfl
      simp only [htake]
      by_cases hbytes : current.spendToken.bytesSentThisSecond + call.payloadBytes >
        current.spendToken.config.maxBytesPerSecond
      · rw [if_pos hbytes]
        exact .wasted hcount htokens hbytes
      · rw [if_neg hbytes]
        exact .burst hcount htokens hbytes
  · have htake : current.takeBurstToken = some current := by
      rw [takeBurstToken, if_neg hcount]
    simp only [htake]
    by_cases hbytes : current.bytesSentThisSecond + call.payloadBytes >
      current.config.maxBytesPerSecond
    · rw [if_pos hbytes]
      exact .oversized hcount hbytes
    · rw [if_neg hbytes]
      exact .counted hcount hbytes

namespace Decision

variable {limiter limiter' : RateLimiter} {payloadBytes : UInt64} {admitted : Bool}

/-- What no decision changes: the configuration and the start of the window. -/
theorem fixed (h : Decision limiter payloadBytes admitted limiter') :
    limiter'.config = limiter.config ∧ limiter'.windowStart = limiter.windowStart := by
  cases h <;> exact ⟨rfl, rfl⟩

end Decision

theorem toNat_spent_token {limiter : RateLimiter} (h : limiter.burstTokens ≠ 0) :
    (limiter.burstTokens - 1).toNat + 1 = limiter.burstTokens.toNat := by
  have hpos : limiter.burstTokens.toNat ≠ 0 := fun h0 => h (UInt64.toNat_inj.mp h0)
  have hone : (1 : UInt64) ≤ limiter.burstTokens := UInt64.le_iff_toNat_le.mpr (by
    rw [UInt64.toNat_one]
    omega)
  rw [UInt64.toNat_sub_of_le _ _ hone, UInt64.toNat_one]
  omega

/-- The tokens never wrap: a call that takes one finds one. -/
theorem Decision.tokens_le {limiter limiter' : RateLimiter} {payloadBytes : UInt64}
    {admitted : Bool} (h : Decision limiter payloadBytes admitted limiter') :
    limiter'.burstTokens.toNat ≤ limiter.burstTokens.toNat := by
  cases h with
  | starved | oversized | counted => exact le_rfl
  | wasted _ htokens | burst _ htokens => exact Nat.le_of_lt (toNat_spent_token htokens).le

/-! ## The window -/

theorem refresh_of_resets {limiter : RateLimiter} {now : Nat} (h : limiter.Resets now) :
    limiter.refresh now =
      { limiter with
        packetsSentThisSecond := 0
        bytesSentThisSecond := 0
        burstTokens := limiter.config.burstAllowance
        windowStart := now } := if_pos h

theorem refresh_of_not_resets {limiter : RateLimiter} {now : Nat} (h : ¬ limiter.Resets now) :
    limiter.refresh now = limiter := if_neg h

/-- What has been admitted in the window so far, against the counters. -/
structure Spent (limiter : RateLimiter) (sent : List Call) : Prop where
  packets : limiter.packetsSentThisSecond.toNat = sent.length
  bytes : limiter.bytesSentThisSecond.toNat = (sent.map (·.payloadBytes.toNat)).sum
  bytes_le : limiter.bytesSentThisSecond.toNat ≤ limiter.config.maxBytesPerSecond.toNat
  /-- a token is gone for each packet beyond the count -/
  tokens : limiter.burstTokens.toNat +
      (sent.length - limiter.config.maxPacketsPerSecond.toNat) ≤
    limiter.config.burstAllowance.toNat

theorem spent_refresh {limiter : RateLimiter} {now : Nat} (h : limiter.Resets now) :
    (limiter.refresh now).Spent [] := by
  rw [refresh_of_resets h]
  exact ⟨rfl, rfl, Nat.zero_le _, Nat.le_of_eq (by simp)⟩

/-- The sums that the limiter forms fit their words. -/
structure Fits (config : RateLimitConfig) : Prop where
  bytes : config.maxBytesPerSecond.toNat + 2 ^ 32 < 2 ^ 64
  packets : config.maxPacketsPerSecond.toNat + config.burstAllowance.toNat < 2 ^ 64

theorem Spent.length_le {limiter : RateLimiter} {sent : List Call} (h : limiter.Spent sent) :
    sent.length ≤ limiter.config.maxPacketsPerSecond.toNat +
      limiter.config.burstAllowance.toNat := by
  have htokens := h.tokens
  omega

/-- Charging an admitted packet, with the token it took if it is beyond the count. -/
theorem Spent.charge {limiter : RateLimiter} {sent : List Call} {call : Call} {tokens : UInt64}
    (h : limiter.Spent sent) (hfits : Fits limiter.config)
    (hsize : call.payloadBytes.toNat < 2 ^ 32) (hbytes : ¬ limiter.OverBytes call.payloadBytes)
    (htokens : tokens.toNat + (sent.length + 1 - limiter.config.maxPacketsPerSecond.toNat) ≤
      limiter.config.burstAllowance.toNat) :
    ({ limiter with burstTokens := tokens }.charge call.payloadBytes).Spent
      (sent ++ [call]) := by
  have hpackets := h.packets
  have hroom := hfits.packets
  have hbytesRoom := hfits.bytes
  have hle := h.bytes_le
  -- neither sum wraps
  have hsum : (limiter.bytesSentThisSecond + call.payloadBytes).toNat =
      limiter.bytesSentThisSecond.toNat + call.payloadBytes.toNat := by
    rw [UInt64.toNat_add, Nat.mod_eq_of_lt (by omega)]
  have hcount : (limiter.packetsSentThisSecond + 1).toNat =
      limiter.packetsSentThisSecond.toNat + 1 := by
    rw [UInt64.toNat_add, UInt64.toNat_one, Nat.mod_eq_of_lt (by omega)]
  have hmax : (limiter.bytesSentThisSecond + call.payloadBytes).toNat ≤
      limiter.config.maxBytesPerSecond.toNat :=
    UInt64.le_iff_toNat_le.mp (UInt64.not_lt.mp hbytes)
  refine ⟨?_, ?_, hmax, ?_⟩
  · rw [List.length_append, List.length_singleton, ← hpackets]
    exact hcount
  · rw [List.map_append, List.sum_append, ← h.bytes, List.map_singleton, List.sum_singleton]
    exact hsum
  · rw [List.length_append, List.length_singleton]
    exact htokens

/-- One call inside the window. -/
theorem Spent.decide {limiter limiter' : RateLimiter} {sent : List Call} {call : Call}
    {admitted : Bool} (h : limiter.Spent sent) (hfits : Fits limiter.config)
    (hsize : call.payloadBytes.toNat < 2 ^ 32)
    (hdecision : Decision limiter call.payloadBytes admitted limiter') :
    limiter'.Spent (if admitted then sent ++ [call] else sent) := by
  have htokens := h.tokens
  cases hdecision with
  | starved | oversized => exact h
  | wasted _ hleft =>
      have hspent := toNat_spent_token hleft
      refine ⟨h.packets, h.bytes, h.bytes_le, ?_⟩
      show (limiter.burstTokens - 1).toNat +
        (sent.length - limiter.config.maxPacketsPerSecond.toNat) ≤ _
      exact Nat.le_trans (by omega) htokens
  | counted hcount hbytes =>
      have hbelow := UInt64.lt_iff_toNat_lt.mp (UInt64.not_le.mp hcount)
      rw [h.packets] at hbelow
      exact h.charge hfits hsize hbytes (by omega)
  | burst _ hleft hbytes =>
      have hspent := toNat_spent_token hleft
      exact h.charge hfits hsize hbytes (by omega)

/-- All calls of a window. -/
theorem Spent.run {limiter : RateLimiter} {sent calls : List Call} (h : limiter.Spent sent)
    (hfits : Fits limiter.config)
    (hquiet : checking.Along (fun limiter call => ¬ limiter.Resets call.now) limiter calls)
    (hsize : ∀ call ∈ calls, call.payloadBytes.toNat < 2 ^ 32) :
    ∃ last : RateLimiter, last.Spent (sent ++ limiter.admitted calls) ∧
      last.config = limiter.config := by
  induction calls generalizing limiter sent with
  | nil => exact ⟨limiter, by rwa [admitted, List.append_nil], rfl⟩
  | cons call calls ih =>
      obtain ⟨hnow, hlater⟩ := hquiet
      have hdecision := decision limiter call
      rw [refresh_of_not_resets hnow] at hdecision
      have hconfig := hdecision.fixed.1
      have hstep := h.decide hfits (hsize call List.mem_cons_self) hdecision
      obtain ⟨last, hlast, hlastConfig⟩ := ih hstep (hconfig ▸ hfits) (hlater _ rfl)
        fun call hcall => hsize call (List.mem_cons_of_mem _ hcall)
      refine ⟨last, ?_, hlastConfig.trans hconfig⟩
      rw [admitted]
      cases hadmits : limiter.admits call with
      | false =>
          rw [hadmits, if_neg Bool.false_ne_true] at hlast
          rwa [if_neg Bool.false_ne_true]
      | true =>
          rw [hadmits, if_pos rfl, List.append_assoc] at hlast
          rwa [if_pos rfl]

/-- In a window, from the call that resets the counters to the last one before the next reset,
the limiter admits at most the packet limit and the burst allowance, and the bytes of what it
admits are within the byte limit. No call makes more tokens than there were. -/
theorem window_bound (limiter : RateLimiter) (opening : Call) (calls : List Call)
    (hopens : limiter.Resets opening.now)
    (hquiet : checking.Along (fun limiter call => ¬ limiter.Resets call.now)
      (limiter.after opening) calls)
    (hsize : ∀ call ∈ opening :: calls, call.payloadBytes.toNat < 2 ^ 32)
    (hbytes : limiter.config.maxBytesPerSecond.toNat + 2 ^ 32 < 2 ^ 64)
    (hpackets : limiter.config.maxPacketsPerSecond.toNat +
      limiter.config.burstAllowance.toNat < 2 ^ 64) :
    (limiter.admitted (opening :: calls)).length ≤
        limiter.config.maxPacketsPerSecond.toNat + limiter.config.burstAllowance.toNat ∧
      ((limiter.admitted (opening :: calls)).map (·.payloadBytes.toNat)).sum ≤
        limiter.config.maxBytesPerSecond.toNat ∧
      checking.Along (fun limiter call => (limiter.after call).burstTokens.toNat ≤
        (limiter.refresh call.now).burstTokens.toNat) limiter (opening :: calls) := by
  have hconfig : (limiter.refresh opening.now).config = limiter.config := by
    rw [refresh_of_resets hopens]
  have hfits : Fits limiter.config := ⟨hbytes, hpackets⟩
  have hdecision := decision limiter opening
  have hafter := hdecision.fixed.1.trans hconfig
  have hfirst := (spent_refresh hopens).decide (hconfig ▸ hfits)
    (hsize opening List.mem_cons_self) hdecision
  obtain ⟨last, hlast, hlastConfig⟩ := hfirst.run (hafter ▸ hfits) hquiet
    fun call hcall => hsize call (List.mem_cons_of_mem _ hcall)
  have hall : (if limiter.admits opening then [] ++ [opening] else []) ++
      (limiter.after opening).admitted calls = limiter.admitted (opening :: calls) := by
    rw [admitted]
    split <;> rfl
  rw [hall] at hlast
  rw [← hlastConfig.trans hafter]
  refine ⟨hlast.length_le, hlast.bytes ▸ hlast.bytes_le, ?_⟩
  refine Machine.Along.imp (fun _ _ _ _ _ _ => trivial) (fun limiter call _ _ => ?_) trivial
    (Machine.along_of_forall (fun _ _ => trivial) limiter)
  exact (decision limiter call).tokens_le

/-- No call resets the window if all of them read the clock within a second of its start. -/
theorem quiet_of_forall {limiter : RateLimiter} {calls : List Call}
    (h : ∀ call ∈ calls, ¬ limiter.Resets call.now) :
    checking.Along (fun limiter call => ¬ limiter.Resets call.now) limiter calls := by
  induction calls generalizing limiter with
  | nil => trivial
  | cons call calls ih =>
      have hnow := h call List.mem_cons_self
      refine ⟨hnow, fun limiter' hstep => ih fun later hlater => ?_⟩
      obtain rfl := Option.some.inj hstep
      have hstart := (decision limiter call).fixed.2
      rw [refresh_of_not_resets hnow] at hstart
      rw [Resets, hstart]
      exact h later (List.mem_cons_of_mem _ hlater)

/-- Two packets a second with one more in a burst, and ten bytes. -/
def narrowLimiter : RateLimiter := ⟨⟨2, 10, 1⟩, 0, 0, 0, 0⟩

theorem window_bound_narrowLimiter :
    (narrowLimiter.admitted [⟨kNanosecondsPerSecond, 4⟩, ⟨kNanosecondsPerSecond, 4⟩,
      ⟨kNanosecondsPerSecond + 5, 2⟩, ⟨kNanosecondsPerSecond + 7, 0⟩]).length ≤ 2 + 1 :=
  (window_bound narrowLimiter ⟨kNanosecondsPerSecond, 4⟩ _ (by decide)
    (quiet_of_forall (by decide)) (by decide) (by decide) (by decide)).1

/-! ### A count that wraps -/

theorem not_overBytes_zero {limiter : RateLimiter} (h : limiter.bytesSentThisSecond = 0) :
    ¬ limiter.OverBytes 0 := by
  rw [OverBytes, h]
  exact UInt64.not_lt.mpr (UInt64.le_iff_toNat_le.mpr (Nat.zero_le _))

theorem charge_zero (limiter : RateLimiter) :
    limiter.charge 0 =
      { limiter with packetsSentThisSecond := limiter.packetsSentThisSecond + 1 } := by
  rw [charge, UInt64.add_zero]

section Empty

variable {limiter current : RateLimiter} {now : Nat} (hcurrent : limiter.refresh now = current)
  (hbytes : current.bytesSentThisSecond = 0)

include hcurrent hbytes

/-- An empty payload below the count limit. -/
theorem counted_empty (hbelow : ¬ current.AtCount) :
    limiter.admits ⟨now, 0⟩ = true ∧ limiter.after ⟨now, 0⟩ =
      { current with packetsSentThisSecond := current.packetsSentThisSecond + 1 } := by
  have h := decision limiter ⟨now, 0⟩
  rw [hcurrent] at h
  generalize limiter.admits ⟨now, 0⟩ = admitted at h ⊢
  generalize limiter.after ⟨now, 0⟩ = limiter' at h ⊢
  cases h with
  | starved hcount | wasted hcount | burst hcount => exact absurd hcount hbelow
  | oversized _ hover => exact absurd hover (not_overBytes_zero hbytes)
  | counted => exact ⟨rfl, charge_zero current⟩

/-- An empty payload at the count limit takes a token. -/
theorem burst_empty (hcount : current.AtCount) (htokens : current.burstTokens ≠ 0) :
    limiter.admits ⟨now, 0⟩ = true ∧ limiter.after ⟨now, 0⟩ =
      { current.spendToken with
        packetsSentThisSecond := current.packetsSentThisSecond + 1 } := by
  have h := decision limiter ⟨now, 0⟩
  rw [hcurrent] at h
  generalize limiter.admits ⟨now, 0⟩ = admitted at h ⊢
  generalize limiter.after ⟨now, 0⟩ = limiter' at h ⊢
  cases h with
  | starved _ hnone => exact absurd hnone htokens
  | oversized hbelow | counted hbelow => exact absurd hcount hbelow
  | wasted _ _ hover => exact absurd hover (not_overBytes_zero hbytes)
  | burst => exact ⟨rfl, charge_zero current.spendToken⟩

end Empty

/-- Empty payloads are admitted one after the other as long as the count is below its limit. -/
theorem admitted_replicate (limiter : RateLimiter) {now n : Nat} (rest : List Call)
    (hnow : ¬ limiter.Resets now) (hbytes : limiter.bytesSentThisSecond = 0)
    (hroom : limiter.packetsSentThisSecond.toNat + n ≤
      limiter.config.maxPacketsPerSecond.toNat) :
    limiter.admitted (List.replicate n ⟨now, 0⟩ ++ rest) =
      List.replicate n ⟨now, 0⟩ ++
        { limiter with
          packetsSentThisSecond :=
            limiter.packetsSentThisSecond + UInt64.ofNat n }.admitted rest := by
  have hmax := limiter.config.maxPacketsPerSecond.toNat_lt
  induction n generalizing limiter with
  | zero =>
      rw [List.replicate_zero, List.nil_append, List.nil_append]
      congr 1
      exact congrArg (fun sent => { limiter with packetsSentThisSecond := sent })
        (UInt64.add_zero _).symm
  | succ n ih =>
      have hbelow : ¬ limiter.AtCount := fun hcount => by
        have := UInt64.le_iff_toNat_le.mp hcount
        omega
      obtain ⟨hadmits, hafter⟩ :=
        counted_empty (refresh_of_not_resets hnow) hbytes hbelow
      have hnext : (limiter.packetsSentThisSecond + 1).toNat =
          limiter.packetsSentThisSecond.toNat + 1 := by
        rw [UInt64.toNat_add, UInt64.toNat_one, Nat.mod_eq_of_lt (by omega)]
      rw [List.replicate_succ, List.cons_append, admitted, if_pos hadmits, hafter,
        ih { limiter with
          packetsSentThisSecond := limiter.packetsSentThisSecond + 1 } hnow hbytes
          (by
            show (limiter.packetsSentThisSecond + 1).toNat + n ≤
              limiter.config.maxPacketsPerSecond.toNat
            omega) hmax, List.cons_append]
      congr 3
      rw [UInt64.add_assoc, UInt64.ofNat_add, UInt64.add_comm 1]
      rfl

/-- The largest packet limit there is, and one burst token. -/
def wideLimiter : RateLimiter := ⟨⟨0xFFFFFFFFFFFFFFFF, 0, 1⟩, 0, 0, 0, 0⟩

/-- An empty payload one second in. -/
def emptyCall : Call := ⟨kNanosecondsPerSecond, 0⟩

/-- The limiter with `sent` empty payloads in its window. -/
def wideAfter (sent tokens : UInt64) : RateLimiter :=
  ⟨⟨0xFFFFFFFFFFFFFFFF, 0, 1⟩, sent, 0, tokens, kNanosecondsPerSecond⟩

theorem admitted_cons_of_admits {limiter limiter' : RateLimiter} {call : Call}
    {calls : List Call} (h : limiter.admits call = true ∧ limiter.after call = limiter') :
    limiter.admitted (call :: calls) = call :: limiter'.admitted calls := by
  rw [admitted, if_pos h.1, h.2]

/-- All of them are admitted, the one that takes the token and the first one after it too. -/
theorem admitted_wideLimiter {n : Nat} (hn : n + 2 = 2 ^ 64) :
    wideLimiter.admitted (emptyCall :: (List.replicate n emptyCall ++ [emptyCall, emptyCall])) =
      emptyCall :: (List.replicate n emptyCall ++ [emptyCall, emptyCall]) := by
  have hnow (sent tokens : UInt64) : ¬ (wideAfter sent tokens).Resets kNanosecondsPerSecond := by
    simp [Resets, wideAfter]
  have hsent : 1 + UInt64.ofNat n = 0xFFFFFFFFFFFFFFFF := by
    apply UInt64.toNat_inj.mp
    rw [UInt64.toNat_add, UInt64.toNat_ofNat', UInt64.toNat_one, Nat.mod_eq_of_lt (by omega)]
    show 1 + n % 2 ^ 64 = 2 ^ 64 - 1
    rw [Nat.mod_eq_of_lt (by omega)]
    omega
  have hopening : wideLimiter.admits emptyCall = true ∧
      wideLimiter.after emptyCall = wideAfter 1 1 :=
    @counted_empty wideLimiter (wideAfter 0 1) _ rfl rfl (by decide)
  have htoken : (wideAfter 0xFFFFFFFFFFFFFFFF 1).admits emptyCall = true ∧
      (wideAfter 0xFFFFFFFFFFFFFFFF 1).after emptyCall = wideAfter 0 0 :=
    burst_empty (refresh_of_not_resets (hnow _ _)) rfl (by decide) (by decide)
  have hagain : (wideAfter 0 0).admits emptyCall = true ∧
      (wideAfter 0 0).after emptyCall = wideAfter 1 0 :=
    counted_empty (refresh_of_not_resets (hnow _ _)) rfl (by decide)
  have hroom : (wideAfter 1 1).packetsSentThisSecond.toNat + n ≤
      (wideAfter 1 1).config.maxPacketsPerSecond.toNat := by
    show 1 + n ≤ 2 ^ 64 - 1
    omega
  have hcounted := admitted_replicate (wideAfter 1 1) [emptyCall, emptyCall] (hnow 1 1) rfl hroom
  rw [admitted_cons_of_admits hopening]
  refine congrArg _ (hcounted.trans (congrArg _ ?_))
  show (wideAfter (1 + UInt64.ofNat n) 1).admitted _ = _
  rw [hsent, admitted_cons_of_admits htoken, admitted_cons_of_admits hagain]
  rfl

/-- Where limit and allowance do not fit a word together, the packet that takes the last token
wraps the count, and the window starts over without one. -/
theorem window_bound_fails_wideLimiter :
    ∃ (opening : Call) (calls : List Call),
      wideLimiter.Resets opening.now ∧
      checking.Along (fun limiter call => ¬ limiter.Resets call.now)
        (wideLimiter.after opening) calls ∧
      (∀ call ∈ opening :: calls, call.payloadBytes.toNat < 2 ^ 32) ∧
      wideLimiter.config.maxBytesPerSecond.toNat + 2 ^ 32 < 2 ^ 64 ∧
      ¬ (wideLimiter.admitted (opening :: calls)).length ≤
        wideLimiter.config.maxPacketsPerSecond.toNat +
          wideLimiter.config.burstAllowance.toNat := by
  obtain ⟨n, hn⟩ : ∃ n, n + 2 = 2 ^ 64 := ⟨_, Nat.sub_add_cancel (by norm_num)⟩
  have hcall : ∀ call ∈ List.replicate n emptyCall ++ [emptyCall, emptyCall],
      call = emptyCall := by
    intro call hmem
    rcases List.mem_append.mp hmem with h | h
    · exact List.eq_of_mem_replicate h
    · simpa using h
  refine ⟨emptyCall, List.replicate n emptyCall ++ [emptyCall, emptyCall], by decide, ?_, ?_,
    by decide, ?_⟩
  · refine quiet_of_forall fun call hmem => ?_
    rw [hcall call hmem]
    decide
  · intro call hmem
    rcases List.mem_cons.mp hmem with rfl | hmem
    · decide
    · rw [hcall call hmem]
      decide
  · rw [admitted_wideLimiter hn, List.length_cons, List.length_append, List.length_replicate]
    show ¬ n + 2 + 1 ≤ 2 ^ 64 - 1 + 1
    omega

end RateLimiter

end ZetaNet
