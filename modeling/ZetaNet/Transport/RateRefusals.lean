import ZetaNet.Transport.RateWindow

/-!
# What a refused packet costs

A call that is refused leaves the budget of the window as it was, with one exception: at the
packet limit a burst token is taken before the bytes are looked at, and a payload that is then
over the byte limit keeps it. Without such a call refused packets can be removed from a run, and
every other call gets the answer it got with them.
-/

namespace ZetaNet

namespace RateLimiter

/-- What is left in the window: packets within the limit, bytes and burst tokens. -/
def available (limiter : RateLimiter) : Nat × Nat × Nat :=
  (limiter.config.maxPacketsPerSecond.toNat - limiter.packetsSentThisSecond.toNat,
    limiter.config.maxBytesPerSecond.toNat - limiter.bytesSentThisSecond.toNat,
    limiter.burstTokens.toNat)

/-- If the call is refused, the budget is what it was when the decision was made. -/
def RefusalIsFree (limiter : RateLimiter) (call : Call) : Prop :=
  limiter.admits call = false →
    (limiter.after call).available = (limiter.refresh call.now).available

/-- The call is at the packet limit with a token left, and over the byte limit. -/
def Wastes (limiter : RateLimiter) (call : Call) : Prop :=
  (limiter.refresh call.now).AtCount ∧ (limiter.refresh call.now).burstTokens ≠ 0 ∧
    (limiter.refresh call.now).OverBytes call.payloadBytes

instance (limiter : RateLimiter) (call : Call) : Decidable (limiter.Wastes call) :=
  inferInstanceAs (Decidable (_ ∧ _))

/-- A refused call that wastes no token changes nothing at all. -/
theorem after_of_refused {limiter : RateLimiter} {call : Call}
    (hrefused : limiter.admits call = false) (hwastes : ¬ limiter.Wastes call) :
    limiter.after call = limiter.refresh call.now := by
  have h := decision limiter call
  rw [hrefused] at h
  generalize limiter.after call = limiter' at h ⊢
  cases h with
  | starved | oversized => rfl
  | wasted hcount htokens hbytes => exact absurd ⟨hcount, htokens, hbytes⟩ hwastes

theorem refusalIsFree_iff (limiter : RateLimiter) (call : Call) :
    limiter.RefusalIsFree call ↔ ¬ limiter.Wastes call := by
  constructor
  · rintro hfree ⟨hcount, htokens, hbytes⟩
    have h := decision limiter call
    rw [RefusalIsFree] at hfree
    generalize limiter.admits call = admitted at h hfree
    generalize limiter.after call = limiter' at h hfree
    cases h with
    | starved _ hnone => exact htokens hnone
    | oversized hbelow => exact hbelow hcount
    | counted hbelow => exact hbelow hcount
    | burst _ _ hfits => exact hfits hbytes
    | wasted =>
        -- the token is gone
        have hspent := toNat_spent_token htokens
        have htokens := congrArg (·.2.2) (hfree rfl)
        simp only [available, spendToken] at htokens
        omega
  · intro hwastes hrefused
    rw [after_of_refused hrefused hwastes]

/-! ## Runs without the refused packets -/

/-- A call and whether it stays in the run. -/
abbrev Marked := Call × Bool

def marking : Machine RateLimiter Marked := ⟨fun limiter marked => some (limiter.after marked.1)⟩

/-- The answers to the calls, one after the other. -/
def answers : RateLimiter → List Call → List Bool
  | _, [] => []
  | limiter, call :: calls => limiter.admits call :: answers (limiter.after call) calls

/-- The calls that stay. -/
def staying (calls : List Marked) : List Call := (calls.filter (·.2)).map (·.1)

/-- The answers that the calls that stay get in the run of all of them. -/
def stayingAnswers : RateLimiter → List Marked → List Bool
  | _, [] => []
  | limiter, (call, stays) :: calls =>
      if stays then limiter.admits call :: stayingAnswers (limiter.after call) calls
      else stayingAnswers (limiter.after call) calls

/-- What a run in one window has to meet for its removed calls: no call resets the window, only
refused calls are removed, and none of the calls wastes a token. -/
structure Removable (limiter : RateLimiter) (marked : Marked) : Prop where
  quiet : ¬ limiter.Resets marked.1.now
  refused : marked.2 = false → limiter.admits marked.1 = false
  free : ¬ limiter.Wastes marked.1

theorem answers_staying {limiter : RateLimiter} {calls : List Marked}
    (h : marking.Along Removable limiter calls) :
    limiter.answers (staying calls) = limiter.stayingAnswers calls := by
  induction calls generalizing limiter with
  | nil => rfl
  | cons marked calls ih =>
      obtain ⟨call, stays⟩ := marked
      obtain ⟨hfirst, hlater⟩ := h
      have hrest := ih (hlater _ rfl)
      cases stays with
      | true => exact congrArg _ hrest
      | false =>
          -- the removed call left the limiter alone
          have hafter := after_of_refused (hfirst.refused rfl) hfirst.free
          rw [refresh_of_not_resets hfirst.quiet] at hafter
          show limiter.answers (staying calls) = (limiter.after call).stayingAnswers calls
          rw [← hrest]
          exact congrArg (fun current : RateLimiter => current.answers (staying calls))
            hafter.symm

/-- A refused packet costs nothing exactly if it wastes no token; and in a window in which no
call does, the refused packets can be removed and every other call is answered as before. -/
theorem refused_free_iff (limiter : RateLimiter) :
    (∀ call : Call, limiter.RefusalIsFree call ↔ ¬ limiter.Wastes call) ∧
    ∀ calls : List Marked, marking.Along Removable limiter calls →
      limiter.answers (staying calls) = limiter.stayingAnswers calls :=
  ⟨refusalIsFree_iff limiter, fun _ => answers_staying⟩

/-- `maxPackets` packets and ten bytes a second and one packet in a burst; a packet of four bytes
has been sent. -/
def sentFour (maxPackets : UInt64) : RateLimiter := ⟨⟨maxPackets, 10, 1⟩, 1, 4, 1, 0⟩

theorem refused_free_iff_sentFour :
    (sentFour 2).answers (staying [(⟨3, 100⟩, false), (⟨4, 5⟩, true)]) =
      (sentFour 2).stayingAnswers [(⟨3, 100⟩, false), (⟨4, 5⟩, true)] := by
  refine (refused_free_iff (sentFour 2)).2 _
    ⟨⟨by decide, by decide, by decide⟩, fun _ hstep => ?_⟩
  obtain rfl := Option.some.inj hstep
  exact ⟨⟨by decide, by decide, by decide⟩, fun _ _ => trivial⟩

/-- At the packet limit a payload of a hundred bytes is refused and takes the last token: the
packet behind it, which is admitted without it, is refused as well. -/
theorem refused_free_fails_sentFour :
    ¬ (sentFour 1).RefusalIsFree ⟨3, 100⟩ ∧
    ∃ calls : List Marked,
      marking.Along (fun limiter marked => ¬ limiter.Resets marked.1.now ∧
          (marked.2 = false → limiter.admits marked.1 = false)) (sentFour 1) calls ∧
        (sentFour 1).answers (staying calls) = [true] ∧
        (sentFour 1).stayingAnswers calls = [false] := by
  refine ⟨fun hfree => (refusalIsFree_iff (sentFour 1) ⟨3, 100⟩).mp hfree (by decide), ?_⟩
  refine ⟨[(⟨3, 100⟩, false), (⟨4, 5⟩, true)], ⟨by decide, fun _ hstep => ?_⟩, by decide,
    by decide⟩
  obtain rfl := Option.some.inj hstep
  exact ⟨by decide, fun _ _ => trivial⟩

end RateLimiter

end ZetaNet
