import Mathlib.Tactic

/-!
# The rate limiter

`RateLimitConfig` of `z_packet_queues.h` and `CheckRateLimit` of `z_packet_queues.cc`.
Times of the steady clock are in nanoseconds.
-/

namespace ZetaNet

structure RateLimitConfig where
  maxPacketsPerSecond : UInt64 := 1000
  maxBytesPerSecond : UInt64 := 10 * 1024 * 1024
  burstAllowance : UInt64 := 2000
  deriving DecidableEq, Repr

/-- The members `CheckRateLimit` works on. -/
structure RateLimiter where
  config : RateLimitConfig
  packetsSentThisSecond : UInt64
  bytesSentThisSecond : UInt64
  burstTokens : UInt64
  windowStart : Nat
  deriving DecidableEq, Repr

def kNanosecondsPerSecond : Nat := 1000000000

namespace RateLimiter

/-- The limiter as the queue's constructor leaves it. -/
def init (now : Nat) : RateLimiter where
  config := {}
  packetsSentThisSecond := 0
  bytesSentThisSecond := 0
  burstTokens := ({} : RateLimitConfig).burstAllowance
  windowStart := now

/-- The reset at the start of a new window, if it is due. -/
def refresh (now : Nat) (limiter : RateLimiter) : RateLimiter :=
  if (now - limiter.windowStart) / kNanosecondsPerSecond ≥ 1 then
    { limiter with
      packetsSentThisSecond := 0
      bytesSentThisSecond := 0
      burstTokens := limiter.config.burstAllowance
      windowStart := now }
  else limiter

/-- The token a packet beyond the per-second count takes; `none` is the exit without one. -/
def takeBurstToken (limiter : RateLimiter) : Option RateLimiter :=
  if limiter.packetsSentThisSecond ≥ limiter.config.maxPacketsPerSecond then
    if limiter.burstTokens = 0 then none
    else some { limiter with burstTokens := limiter.burstTokens - 1 }
  else some limiter

/-- `CheckRateLimit`. -/
def checkRateLimit (now : Nat) (payloadBytes : UInt64) (limiter : RateLimiter) :
    Bool × RateLimiter :=
  let limiter := limiter.refresh now
  match limiter.takeBurstToken with
  | none => (false, limiter)
  | some limiter =>
      if limiter.bytesSentThisSecond + payloadBytes > limiter.config.maxBytesPerSecond then
        (false, limiter)
      else
        (true,
          { limiter with
            packetsSentThisSecond := limiter.packetsSentThisSecond + 1
            bytesSentThisSecond := limiter.bytesSentThisSecond + payloadBytes })

/-- The packet is within the per-second count or a burst token is left, and its bytes are within
the per-second bytes. -/
def HasRoom (payloadBytes : UInt64) (limiter : RateLimiter) : Prop :=
  (limiter.packetsSentThisSecond < limiter.config.maxPacketsPerSecond ∨
      limiter.burstTokens ≠ 0) ∧
    limiter.bytesSentThisSecond + payloadBytes ≤ limiter.config.maxBytesPerSecond

instance (payloadBytes : UInt64) (limiter : RateLimiter) :
    Decidable (limiter.HasRoom payloadBytes) :=
  inferInstanceAs (Decidable (_ ∧ _))

theorem checkRateLimit_fst {now : Nat} {payloadBytes : UInt64} {limiter : RateLimiter} :
    (limiter.checkRateLimit now payloadBytes).1 = true ↔
      (limiter.refresh now).HasRoom payloadBytes := by
  unfold checkRateLimit HasRoom takeBurstToken
  generalize limiter.refresh now = current
  by_cases hcount : current.packetsSentThisSecond ≥ current.config.maxPacketsPerSecond
  · have hfull : ¬ current.packetsSentThisSecond < current.config.maxPacketsPerSecond :=
      UInt64.not_lt.mpr hcount
    by_cases htoken : current.burstTokens = 0
    · simp [hcount, htoken, hfull]
    · by_cases hbytes : current.bytesSentThisSecond + payloadBytes >
        current.config.maxBytesPerSecond
      · simp [hcount, htoken, hfull, hbytes]
      · simpa [hcount, htoken, hfull, hbytes] using UInt64.not_lt.mp hbytes
  · have hroom : current.packetsSentThisSecond < current.config.maxPacketsPerSecond :=
      UInt64.not_le.mp hcount
    by_cases hbytes : current.bytesSentThisSecond + payloadBytes > current.config.maxBytesPerSecond
    · simp [hcount, hroom, hbytes]
    · simpa [hcount, hroom, hbytes] using UInt64.not_lt.mp hbytes

end RateLimiter

end ZetaNet
