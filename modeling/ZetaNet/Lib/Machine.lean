import Mathlib.Tactic

/-!
# Machines driven by events

A machine takes one event at a time and may refuse it. `exec` runs a list of events,
`Along` says that a condition on state and event holds at every step of a run, and the two
invariant rules pass from one step to a whole run.
-/

/-- A deterministic transition function; `none` is an event the state does not allow. -/
structure Machine (σ ε : Type*) where
  step : σ → ε → Option σ

namespace Machine

variable {σ ε : Type*} (machine : Machine σ ε)

/-- Take the events in order. -/
def exec : σ → List ε → Option σ
  | s, [] => some s
  | s, e :: events => (machine.step s e).bind fun s' => exec s' events

/-- `condition` holds at every step of the run, of the state before it and its event. -/
def Along (condition : σ → ε → Prop) : σ → List ε → Prop
  | _, [] => True
  | s, e :: events =>
      condition s e ∧ ∀ s', machine.step s e = some s' → Along condition s' events

/-- `good` holds in every state the run goes through. -/
def Always (good : σ → Prop) : σ → List ε → Prop
  | s, [] => good s
  | s, e :: events => good s ∧ ∀ s', machine.step s e = some s' → Always good s' events

@[simp] theorem exec_nil (s : σ) : machine.exec s [] = some s := rfl

theorem exec_cons_eq_some {s s' : σ} {e : ε} {events : List ε} :
    machine.exec s (e :: events) = some s' ↔
      ∃ mid, machine.step s e = some mid ∧ machine.exec mid events = some s' :=
  Option.bind_eq_some_iff

theorem exec_append (s : σ) (first second : List ε) :
    machine.exec s (first ++ second) =
      (machine.exec s first).bind fun s' => machine.exec s' second := by
  induction first generalizing s with
  | nil => rfl
  | cons e events ih =>
      show (machine.step s e).bind (fun s' => machine.exec s' (events ++ second)) =
        ((machine.step s e).bind fun s' => machine.exec s' events).bind _
      rw [Option.bind_assoc]
      exact congrArg _ (funext ih)

variable {machine}

/-- A condition along a run in two parts. -/
theorem along_append {condition : σ → ε → Prop} {s : σ} {first second : List ε}
    (hfirst : machine.Along condition s first)
    (hsecond : ∀ s', machine.exec s first = some s' → machine.Along condition s' second) :
    machine.Along condition s (first ++ second) := by
  induction first generalizing s with
  | nil => exact hsecond s rfl
  | cons e events ih =>
      obtain ⟨hcondition, htail⟩ := hfirst
      refine ⟨hcondition, fun mid hstep => ih (htail mid hstep) fun s' hexec => ?_⟩
      exact hsecond s' ((machine.exec_cons_eq_some).mpr ⟨mid, hstep, hexec⟩)

theorem Along.and {condition condition' : σ → ε → Prop} {s : σ} {events : List ε}
    (h : machine.Along condition s events) (h' : machine.Along condition' s events) :
    machine.Along (fun s e => condition s e ∧ condition' s e) s events := by
  induction events generalizing s with
  | nil => trivial
  | cons e events ih => exact ⟨⟨h.1, h'.1⟩, fun s' hstep => ih (h.2 s' hstep) (h'.2 s' hstep)⟩

/-- A condition holds along a run if it holds at the first step and along the rest. -/
theorem along_cons {condition : σ → ε → Prop} {s s' : σ} {e : ε} {events : List ε}
    (hstep : machine.step s e = some s') (hcondition : condition s e)
    (hrest : machine.Along condition s' events) : machine.Along condition s (e :: events) := by
  refine ⟨hcondition, fun mid hmid => ?_⟩
  obtain rfl := Option.some.inj (hstep.symm.trans hmid)
  exact hrest

/-- A condition on the events alone. -/
theorem along_of_forall {condition : ε → Prop} {events : List ε}
    (h : ∀ e ∈ events, condition e) (s : σ) :
    machine.Along (fun _ e => condition e) s events := by
  induction events generalizing s with
  | nil => trivial
  | cons e events ih =>
      have hlater : ∀ e ∈ events, condition e := fun e he => h e (List.mem_cons_of_mem _ he)
      exact ⟨h e List.mem_cons_self, fun s' _ => ih hlater s'⟩

/-- A condition along a run follows from another one that keeps an invariant. -/
theorem Along.imp {condition condition' : σ → ε → Prop} {invariant : σ → Prop}
    (preserved : ∀ s e s', invariant s → condition s e → machine.step s e = some s' →
      invariant s')
    (himp : ∀ s e, invariant s → condition s e → condition' s e) {s : σ} {events : List ε}
    (hs : invariant s) (h : machine.Along condition s events) :
    machine.Along condition' s events := by
  induction events generalizing s with
  | nil => trivial
  | cons e events ih =>
      obtain ⟨hcondition, htail⟩ := h
      exact ⟨himp s e hs hcondition,
        fun s' hstep => ih (preserved s e s' hs hcondition hstep) (htail s' hstep)⟩

instance decidableAlong {condition : σ → ε → Prop} [∀ s e, Decidable (condition s e)] :
    ∀ s events, Decidable (machine.Along condition s events)
  | _, [] => isTrue trivial
  | s, e :: events =>
      match hstep : machine.step s e with
      | none => decidable_of_iff (condition s e)
          ⟨fun h => ⟨h, fun s' hs' => by rw [hstep] at hs'; cases hs'⟩, fun h => h.1⟩
      | some mid =>
          have : Decidable (machine.Along condition mid events) := decidableAlong mid events
          decidable_of_iff (condition s e ∧ machine.Along condition mid events)
            ⟨fun h => ⟨h.1, fun s' hs' => by
                obtain rfl := Option.some.inj (hstep.symm.trans hs')
                exact h.2⟩,
              fun h => ⟨h.1, h.2 mid hstep⟩⟩

/-- What every admitted step preserves, every admitted run preserves. -/
theorem invariant_of_along {condition : σ → ε → Prop} {invariant : σ → Prop}
    (preserved : ∀ s e s', invariant s → condition s e → machine.step s e = some s' →
      invariant s')
    {s s' : σ} {events : List ε} (hs : invariant s) (halong : machine.Along condition s events)
    (hexec : machine.exec s events = some s') : invariant s' := by
  induction events generalizing s with
  | nil =>
      obtain rfl := Option.some.inj hexec
      exact hs
  | cons e events ih =>
      obtain ⟨mid, hstep, hrest⟩ := (machine.exec_cons_eq_some).mp hexec
      obtain ⟨hcondition, htail⟩ := halong
      exact ih (preserved s e mid hs hcondition hstep) (htail mid hstep) hrest

/-- A property that the admitted steps keep exactly under a condition holds after a run exactly
if the condition held all along. -/
theorem iff_along_of_exec {invariant good : σ → Prop} {admitted : ε → Prop}
    {condition : σ → ε → Prop}
    (preserved : ∀ s e s', invariant s → admitted e → machine.step s e = some s' →
      invariant s' ∧ (good s' ↔ good s ∧ condition s e))
    {s s' : σ} {events : List ε} (hs : invariant s) (hadmitted : ∀ e ∈ events, admitted e)
    (hexec : machine.exec s events = some s') :
    good s' ↔ good s ∧ machine.Along condition s events := by
  induction events generalizing s with
  | nil =>
      obtain rfl := Option.some.inj hexec
      exact (and_iff_left trivial).symm
  | cons e events ih =>
      obtain ⟨mid, hstep, hrest⟩ := (machine.exec_cons_eq_some).mp hexec
      obtain ⟨hmid, hgood⟩ := preserved s e mid hs (hadmitted e List.mem_cons_self) hstep
      rw [ih hmid (fun e he => hadmitted e (List.mem_cons_of_mem _ he)) hrest, hgood, and_assoc]
      refine and_congr_right fun _ => and_congr_right fun _ => ?_
      constructor
      · intro htail mid' hstep'
        rw [hstep] at hstep'
        obtain rfl := Option.some.inj hstep'
        exact htail
      · intro htail
        exact htail mid hstep

/-- If a step out of a good state leads to a good one exactly under a condition, all states of a
run are good exactly if the condition held all along. -/
theorem always_iff_along {invariant good : σ → Prop} {condition : σ → ε → Prop}
    (preserved : ∀ s e s', invariant s → good s → machine.step s e = some s' →
      invariant s' ∧ (good s' ↔ condition s e))
    {s s' : σ} {events : List ε} (hs : invariant s) (hgood : good s)
    (hexec : machine.exec s events = some s') :
    machine.Always good s events ↔ machine.Along condition s events := by
  induction events generalizing s with
  | nil => exact iff_of_true hgood trivial
  | cons e events ih =>
      obtain ⟨mid, hstep, hrest⟩ := (machine.exec_cons_eq_some).mp hexec
      obtain ⟨hmid, hkept⟩ := preserved s e mid hs hgood hstep
      have hnext {mid' : σ} (hstep' : machine.step s e = some mid') : mid' = mid :=
        Option.some.inj (hstep'.symm.trans hstep)
      have halways : machine.Always good mid events → good mid := by
        cases events with
        | nil => exact id
        | cons => exact And.left
      constructor
      · rintro ⟨-, htail⟩
        have hgood' := halways (htail mid hstep)
        refine ⟨hkept.mp hgood', fun mid' hstep' => ?_⟩
        rw [hnext hstep']
        exact (ih hmid hgood' hrest).mp (htail mid hstep)
      · rintro ⟨hcondition, htail⟩
        refine ⟨hgood, fun mid' hstep' => ?_⟩
        rw [hnext hstep']
        exact (ih hmid (hkept.mpr hcondition) hrest).mpr (htail mid hstep)

/-- What every step preserves, every run preserves. -/
theorem invariant_of_exec {invariant : σ → Prop}
    (preserved : ∀ s e s', invariant s → machine.step s e = some s' → invariant s')
    {s s' : σ} {events : List ε} (hs : invariant s)
    (hexec : machine.exec s events = some s') : invariant s' := by
  have halong : machine.Along (fun _ _ => True) s events :=
    machine.along_of_forall (fun _ _ => trivial) s
  exact machine.invariant_of_along (fun s e s' hs _ hstep => preserved s e s' hs hstep) hs halong
    hexec

end Machine

/-- Where no later item takes back what an item changed, a fold that ends where it began has
changed nothing on its way. -/
theorem List.foldl_eq_self_iff {σ α : Type*} {step : σ → α → σ} {Leads : σ → σ → Prop}
    (refl : ∀ s, Leads s s) (trans : ∀ s s' s'', Leads s s' → Leads s' s'' → Leads s s'')
    (leads : ∀ s item, Leads s (step s item))
    (settled : ∀ s item, Leads (step s item) s → step s item = s) (s : σ) (items : List α) :
    items.foldl step s = s ↔ ∀ item ∈ items, step s item = s := by
  have hfold : ∀ (items : List α) (s : σ), Leads s (items.foldl step s) := by
    intro items
    induction items with
    | nil => exact refl
    | cons item items ih => exact fun s => trans _ _ _ (leads s item) (ih (step s item))
  induction items with
  | nil => simp
  | cons item items ih =>
      rw [List.foldl_cons, List.forall_mem_cons]
      constructor
      · intro hend
        have hitem : step s item = s :=
          settled s item (by simpa only [hend] using hfold items (step s item))
        rw [hitem] at hend
        exact ⟨hitem, ih.mp hend⟩
      · rintro ⟨hitem, hrest⟩
        rw [hitem]
        exact ih.mpr hrest
