import ZetaNet.Transport.RateWindow

/-!
# The rate limiter under many threads

`CheckRateLimit` cut into steps of at most one atomic load, store, `fetch_add` or
compare-and-swap each, called by any number of threads in any order. Memory is sequentially
consistent, `rate_limit_window_start_` included, and `rate_limit_config_` stays as it is. A weak
compare-and-swap may fail for no reason; the event of the step says whether it does.

A call that no other thread interrupts is answered as `checkRateLimit` answers it.
-/

namespace ZetaNet

/-- Where a call of `CheckRateLimit` stands; the words are its local variables. -/
inductive CheckPc
  | idle
  /-- the clock is read, the window is not looked at yet -/
  | compare (now : Nat) (payloadBytes : UInt64)
  | storePackets (now : Nat) (payloadBytes : UInt64)
  | storeBytes (now : Nat) (payloadBytes : UInt64)
  | storeTokens (now : Nat) (payloadBytes : UInt64)
  | storeWindow (now : Nat) (payloadBytes : UInt64)
  | loadPackets (payloadBytes : UInt64)
  | loadBytes (payloadBytes currentPackets : UInt64)
  /-- the load into `burst`, which nothing reads, and the test of `current_packets` -/
  | loadBurst (payloadBytes currentPackets currentBytes : UInt64)
  | loadTokens (payloadBytes currentBytes : UInt64)
  | swapTokens (payloadBytes currentBytes currentBurst : UInt64)
  | checkBytes (payloadBytes currentBytes : UInt64)
  | addPackets (payloadBytes : UInt64)
  | addBytes (payloadBytes : UInt64)
  deriving DecidableEq

/-- A thread calls `CheckRateLimit` at some time, or takes the next step of the call it is in.
`spurious` makes a weak compare-and-swap fail. -/
inductive CheckEvent (Thread : Type)
  | call (thread : Thread) (now : Nat) (payloadBytes : UInt64)
  | step (thread : Thread) (spurious : Bool)

/-- The payload of a call. -/
def CheckEvent.payload? {Thread : Type} : CheckEvent Thread → Option UInt64
  | .call _ _ payloadBytes => some payloadBytes
  | .step _ _ => none

/-- The payloads of the calls. -/
def payloads {Thread : Type} (events : List (CheckEvent Thread)) : List UInt64 :=
  events.filterMap CheckEvent.payload?

/-- The limiter, where the threads stand, and a history: the payloads of the calls that returned
`true`, and how often each counter was set back. -/
structure SharedLimiter (Thread : Type) where
  limiter : RateLimiter
  pc : Thread → CheckPc
  admitted : List UInt64
  packetStores : Nat
  byteStores : Nat
  tokenStores : Nat

namespace SharedLimiter

variable {Thread : Type}

def init (Thread : Type) (limiter : RateLimiter) : SharedLimiter Thread :=
  ⟨limiter, fun _ => .idle, [], 0, 0, 0⟩

section Steps

variable [DecidableEq Thread] (t : Thread) (spurious : Bool)

/-- Thread `t` gets to `pc`. -/
def goto (pc : CheckPc) (s : SharedLimiter Thread) : SharedLimiter Thread :=
  { s with pc := Function.update s.pc t pc }

/-- A step of `CheckRateLimit`. -/
def stepCheck (pc : CheckPc) (s : SharedLimiter Thread) : Option (SharedLimiter Thread) :=
  match pc with
  | .idle => none
  | .compare now payloadBytes =>
      if (now - s.limiter.windowStart) / kNanosecondsPerSecond ≥ 1 then
        some (s.goto t (.storePackets now payloadBytes))
      else some (s.goto t (.loadPackets payloadBytes))
  | .storePackets now payloadBytes =>
      some ({ s with
        limiter := { s.limiter with packetsSentThisSecond := 0 }
        packetStores := s.packetStores + 1 }.goto t (.storeBytes now payloadBytes))
  | .storeBytes now payloadBytes =>
      some ({ s with
        limiter := { s.limiter with bytesSentThisSecond := 0 }
        byteStores := s.byteStores + 1 }.goto t (.storeTokens now payloadBytes))
  | .storeTokens now payloadBytes =>
      some ({ s with
        limiter := { s.limiter with burstTokens := s.limiter.config.burstAllowance }
        tokenStores := s.tokenStores + 1 }.goto t (.storeWindow now payloadBytes))
  | .storeWindow now payloadBytes =>
      some ({ s with limiter := { s.limiter with windowStart := now } }.goto t
        (.loadPackets payloadBytes))
  | .loadPackets payloadBytes =>
      some (s.goto t (.loadBytes payloadBytes s.limiter.packetsSentThisSecond))
  | .loadBytes payloadBytes currentPackets =>
      some (s.goto t (.loadBurst payloadBytes currentPackets s.limiter.bytesSentThisSecond))
  | .loadBurst payloadBytes currentPackets currentBytes =>
      if currentPackets ≥ s.limiter.config.maxPacketsPerSecond then
        some (s.goto t (.loadTokens payloadBytes currentBytes))
      else some (s.goto t (.checkBytes payloadBytes currentBytes))
  | .loadTokens payloadBytes currentBytes =>
      some (s.goto t (.swapTokens payloadBytes currentBytes s.limiter.burstTokens))
  | .swapTokens payloadBytes currentBytes currentBurst =>
      if currentBurst = 0 then some (s.goto t .idle)
      else if s.limiter.burstTokens = currentBurst ∧ spurious = false then
        some ({ s with
          limiter := { s.limiter with burstTokens := currentBurst - 1 } }.goto t
          (.checkBytes payloadBytes currentBytes))
      else some (s.goto t (.swapTokens payloadBytes currentBytes s.limiter.burstTokens))
  | .checkBytes payloadBytes currentBytes =>
      if currentBytes + payloadBytes > s.limiter.config.maxBytesPerSecond then
        some (s.goto t .idle)
      else some (s.goto t (.addPackets payloadBytes))
  | .addPackets payloadBytes =>
      some ({ s with
        limiter :=
          { s.limiter with packetsSentThisSecond := s.limiter.packetsSentThisSecond + 1 } }.goto t
        (.addBytes payloadBytes))
  | .addBytes payloadBytes =>
      some ({ s with
        limiter :=
          { s.limiter with bytesSentThisSecond := s.limiter.bytesSentThisSecond + payloadBytes }
        admitted := s.admitted ++ [payloadBytes] }.goto t .idle)

end Steps

/-- The threads over the limiter. -/
def machine [DecidableEq Thread] : Machine (SharedLimiter Thread) (CheckEvent Thread) where
  step s e :=
    match e with
    | .call t now payloadBytes =>
        match s.pc t with
        | .idle => some (s.goto t (.compare now payloadBytes))
        | _ => none
    | .step t spurious => s.stepCheck t spurious (s.pc t)

section Threads

variable [DecidableEq Thread] {s s' : SharedLimiter Thread} {t : Thread} {spurious : Bool}
  {pc : CheckPc} {limiter : RateLimiter}

/-- What an event does: a call begins, or a call gets one step further. -/
theorem step_cases {e : CheckEvent Thread} (hstep : machine.step s e = some s') :
    (∃ t now payloadBytes, e = .call t now payloadBytes ∧ s.pc t = .idle ∧
      s' = s.goto t (.compare now payloadBytes)) ∨
    ∃ t spurious, e = .step t spurious ∧ s.stepCheck t spurious (s.pc t) = some s' := by
  cases e with
  | call t now payloadBytes =>
      unfold machine at hstep
      dsimp only at hstep
      split at hstep
      · rename_i hidle
        exact .inl ⟨t, now, payloadBytes, rfl, hidle, (Option.some.inj hstep).symm⟩
      · cases hstep
  | step t spurious => exact .inr ⟨t, spurious, rfl, hstep⟩

/-! ## A call that no other thread interrupts -/

/-- Steps of thread `t` alone, no compare-and-swap failing. -/
def Reaches (t : Thread) (s s' : SharedLimiter Thread) : Prop :=
  ∃ n, machine.exec s (List.replicate n (.step t false)) = some s'

theorem reaches_refl (s : SharedLimiter Thread) : Reaches t s s := ⟨0, rfl⟩

theorem Reaches.step {mid : SharedLimiter Thread} (h : Reaches t mid s') (hpc : s.pc t = pc)
    (hstep : s.stepCheck t false pc = some mid) : Reaches t s s' := by
  obtain ⟨n, hexec⟩ := h
  refine ⟨n + 1, (machine.exec_cons_eq_some).mpr ⟨mid, ?_, hexec⟩⟩
  subst hpc
  exact hstep

@[simp] theorem goto_pc_self (t : Thread) (pc : CheckPc) (s : SharedLimiter Thread) :
    (s.goto t pc).pc t = pc :=
  Function.update_self ..

@[simp] theorem goto_limiter (t : Thread) (pc : CheckPc) (s : SharedLimiter Thread) :
    (s.goto t pc).limiter = s.limiter := rfl

/-- The call ends with this answer and leaves the limiter like this. -/
def Answers (t : Thread) (s : SharedLimiter Thread) (payloadBytes : UInt64) (admitted : Bool)
    (limiter : RateLimiter) : Prop :=
  ∃ s', Reaches t s s' ∧ s'.limiter = limiter ∧ s'.pc = Function.update s.pc t .idle ∧
    s'.admitted = s.admitted ++ if admitted then [payloadBytes] else []

theorem Answers.step {mid : SharedLimiter Thread} {payloadBytes : UInt64} {admitted : Bool}
    {next : CheckPc} (h : (mid.goto t next).Answers t payloadBytes admitted limiter)
    (hpc : s.pc t = pc) (hstep : s.stepCheck t false pc = some (mid.goto t next))
    (hmid : mid.pc = s.pc) (hhistory : mid.admitted = s.admitted) :
    s.Answers t payloadBytes admitted limiter := by
  obtain ⟨s', hreaches, hlimiter, hpc', hadmitted⟩ := h
  refine ⟨s', hreaches.step hpc hstep, hlimiter, hpc'.trans ?_, hhistory ▸ hadmitted⟩
  rw [← hmid]
  exact Function.update_idem ..

/-- A step that changes nothing but the place of the thread. -/
theorem Answers.goto {payloadBytes : UInt64} {admitted : Bool} {next : CheckPc}
    (h : (s.goto t next).Answers t payloadBytes admitted limiter) (hpc : s.pc t = pc)
    (hstep : s.stepCheck t false pc = some (s.goto t next)) :
    s.Answers t payloadBytes admitted limiter :=
  h.step hpc hstep rfl rfl

theorem answers_refused (hpc : s.pc t = pc) (payloadBytes : UInt64)
    (hstep : s.stepCheck t false pc = some (s.goto t .idle)) :
    s.Answers t payloadBytes false s.limiter :=
  ⟨s.goto t .idle, (reaches_refl _).step hpc hstep, rfl, rfl, (List.append_nil _).symm⟩

theorem answers_addPackets {payloadBytes : UInt64} (hpc : s.pc t = .addPackets payloadBytes) :
    s.Answers t payloadBytes true (s.limiter.charge payloadBytes) := by
  refine ⟨_, Reaches.step (Reaches.step (reaches_refl _) (goto_pc_self t _ _) rfl) hpc rfl, rfl,
    ?_, rfl⟩
  exact Function.update_idem ..

theorem answers_over {payloadBytes : UInt64} {current : RateLimiter}
    (hcurrent : s.limiter = current)
    (hpc : s.pc t = .checkBytes payloadBytes current.bytesSentThisSecond)
    (hbytes : current.OverBytes payloadBytes) : s.Answers t payloadBytes false current := by
  subst hcurrent
  exact answers_refused hpc payloadBytes (if_pos hbytes)

theorem answers_fits {payloadBytes : UInt64} {current : RateLimiter}
    (hcurrent : s.limiter = current)
    (hpc : s.pc t = .checkBytes payloadBytes current.bytesSentThisSecond)
    (hbytes : ¬ current.OverBytes payloadBytes) :
    s.Answers t payloadBytes true (current.charge payloadBytes) := by
  subst hcurrent
  exact (answers_addPackets (goto_pc_self t _ _)).goto hpc (if_neg hbytes)

theorem answers_loadPackets {payloadBytes : UInt64} {admitted : Bool} {limiter' : RateLimiter}
    (hpc : s.pc t = .loadPackets payloadBytes)
    (hdecision : RateLimiter.Decision s.limiter payloadBytes admitted limiter') :
    s.Answers t payloadBytes admitted limiter' := by
  refine Answers.goto (Answers.goto ?_ (goto_pc_self t _ _) rfl) hpc rfl
  have hburst := goto_pc_self t (.loadBurst payloadBytes s.limiter.packetsSentThisSecond
    s.limiter.bytesSentThisSecond) (s.goto t (.loadBytes payloadBytes
      s.limiter.packetsSentThisSecond))
  have hswap (htokens : s.limiter.burstTokens ≠ 0) (s₁ : SharedLimiter Thread)
      (hs₁ : s₁.limiter = s.limiter) :
      s₁.stepCheck t false (.swapTokens payloadBytes s.limiter.bytesSentThisSecond
          s.limiter.burstTokens) =
        some ({ s₁ with limiter := s₁.limiter.spendToken }.goto t
          (.checkBytes payloadBytes s.limiter.bytesSentThisSecond)) := by
    rw [stepCheck, if_neg htokens, hs₁, if_pos ⟨rfl, rfl⟩]
    rfl
  cases hdecision with
  | starved hcount htokens =>
      refine Answers.goto (Answers.goto ?_ (goto_pc_self t _ _) rfl) hburst (if_pos hcount)
      exact answers_refused (goto_pc_self t _ _) payloadBytes (if_pos htokens)
  | oversized hbelow hover =>
      refine Answers.goto ?_ hburst (if_neg hbelow)
      exact answers_over rfl (goto_pc_self t _ _) hover
  | wasted hcount htokens hover =>
      refine Answers.goto (Answers.goto ?_ (goto_pc_self t _ _) rfl) hburst (if_pos hcount)
      refine Answers.step ?_ (goto_pc_self t _ _) (hswap htokens _ rfl) rfl rfl
      exact answers_over rfl (goto_pc_self t _ _) hover
  | counted hbelow hfits =>
      refine Answers.goto ?_ hburst (if_neg hbelow)
      exact answers_fits rfl (goto_pc_self t _ _) hfits
  | burst hcount htokens hfits =>
      refine Answers.goto (Answers.goto ?_ (goto_pc_self t _ _) rfl) hburst (if_pos hcount)
      refine Answers.step ?_ (goto_pc_self t _ _) (hswap htokens _ rfl) rfl rfl
      exact answers_fits rfl (goto_pc_self t _ _) hfits

/-- A call that no other thread interrupts is answered as `checkRateLimit` answers it, and
leaves the limiter as it does. -/
theorem call_alone (s : SharedLimiter Thread) {t : Thread} (hidle : s.pc t = .idle)
    (call : RateLimiter.Call) :
    ∃ n s', machine.exec s
        (.call t call.now call.payloadBytes :: List.replicate n (.step t false)) = some s' ∧
      s'.limiter = s.limiter.after call ∧ s'.pc = s.pc ∧
      s'.admitted =
        s.admitted ++ if s.limiter.admits call then [call.payloadBytes] else [] := by
  have hcall : machine.step s (.call t call.now call.payloadBytes) =
      some (s.goto t (.compare call.now call.payloadBytes)) := by
    show (match s.pc t with
      | .idle => some (s.goto t (.compare call.now call.payloadBytes))
      | _ => none) = _
    rw [hidle]
  have hdecision := RateLimiter.decision s.limiter call
  have hanswers : (s.goto t (.compare call.now call.payloadBytes)).Answers t call.payloadBytes
      (s.limiter.admits call) (s.limiter.after call) := by
    by_cases hresets : s.limiter.Resets call.now
    · rw [RateLimiter.refresh_of_resets hresets] at hdecision
      -- the four stores of a reset
      refine Answers.goto ?_ (goto_pc_self t _ _) (if_pos hresets)
      refine Answers.step ?_ (goto_pc_self t _ _) rfl rfl rfl
      refine Answers.step ?_ (goto_pc_self t _ _) rfl rfl rfl
      refine Answers.step ?_ (goto_pc_self t _ _) rfl rfl rfl
      refine Answers.step ?_ (goto_pc_self t _ _) rfl rfl rfl
      exact answers_loadPackets (goto_pc_self t _ _) hdecision
    · rw [RateLimiter.refresh_of_not_resets hresets] at hdecision
      refine Answers.goto ?_ (goto_pc_self t _ _) (if_neg hresets)
      exact answers_loadPackets (goto_pc_self t _ _) hdecision
  obtain ⟨s', ⟨n, hexec⟩, hlimiter, hpc, hadmitted⟩ := hanswers
  refine ⟨n, s', (machine.exec_cons_eq_some).mpr ⟨_, hcall, hexec⟩, hlimiter, hpc.trans ?_,
    hadmitted⟩
  show Function.update (Function.update s.pc t _) t .idle = s.pc
  rw [Function.update_idem, ← hidle, Function.update_eq_self]

end Threads

end SharedLimiter

end ZetaNet
