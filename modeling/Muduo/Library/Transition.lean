import Mathlib.Tactic

/-! # Runs of partial step functions

A system is a step function from a state and an action to the next state. A
step may have no next state: the action is not available, it aborts the
execution, or its behavior is undefined. The rules below lift what one step
preserves to complete runs. They know nothing about the states or the actions.
-/

/-- Why a step has no next state. -/
inductive Stop where
  /-- the action cannot happen in this state -/
  | disabled
  /-- the program has no defined behavior from here -/
  | undefined
  /-- an exception leaves the operation -/
  | thrown
  /-- the process terminates itself -/
  | exited
  deriving DecidableEq, Repr

namespace Except

universe u

variable {ε : Type*} {α β : Type u}

/-- A sequential composition that returns splits at its intermediate value. -/
theorem bind_eq_ok {first : Except ε α} {next : α → Except ε β} {result : β} :
    (first >>= next) = .ok result ↔ ∃ value, first = .ok value ∧ next value = .ok result := by
  cases first with
  | error _ => simp [bind, Except.bind]
  | ok value => simp [bind, Except.bind]

/-- A guarded operation that returns has met its guard. -/
theorem guard_eq_ok {condition : Prop} [Decidable condition] {value : Except ε α} {error : ε}
    {result : α} : (if condition then value else .error error) = .ok result ↔
      condition ∧ value = .ok result := by
  split
  next hcondition => simp [hcondition]
  next hcondition => simp [hcondition]

/-! ## Defined behavior -/

/-- The operation has defined behavior and does not terminate the process. -/
def Behaves (result : Except Stop α) : Prop :=
  result ≠ .error .undefined ∧ result ≠ .error .exited

variable {result : Except Stop α}

theorem Behaves.ok (value : α) : Behaves (.ok value) := by constructor <;> rintro ⟨⟩

theorem Behaves.disabled : Behaves (.error .disabled : Except Stop α) := by
  constructor <;> rintro ⟨⟩

theorem Behaves.thrown : Behaves (.error .thrown : Except Stop α) := by constructor <;> rintro ⟨⟩

/-- A sequential composition behaves if each operation does where it is reached. -/
theorem Behaves.bind {next : α → Except Stop β} (hresult : Behaves result)
    (hnext : ∀ value, result = .ok value → Behaves (next value)) : Behaves (result >>= next) := by
  cases result with
  | error stop =>
      obtain ⟨hundefined, hexited⟩ := hresult
      exact ⟨fun heq => hundefined (congrArg Except.error (Except.error.inj heq)),
        fun heq => hexited (congrArg Except.error (Except.error.inj heq))⟩
  | ok value => exact hnext value rfl

/-- A guard only disables. -/
theorem Behaves.guard {condition : Prop} [Decidable condition]
    (hresult : condition → Behaves result) :
    Behaves (if condition then result else .error .disabled) := by
  split
  next hcondition => exact hresult hcondition
  next => exact .disabled

/-- The operation returns a value or throws. -/
def Returns (result : Except Stop α) : Prop :=
  (∃ value, result = .ok value) ∨ result = .error .thrown

theorem Returns.ok (value : α) : Returns (.ok value) := Or.inl ⟨value, rfl⟩

theorem Returns.ne_disabled (hresult : Returns result) : result ≠ .error .disabled := by
  rcases hresult with ⟨value, rfl⟩ | rfl
  · rintro ⟨⟩
  · rintro ⟨⟩

/-- A sequential composition returns or throws if each operation does where it is reached. -/
theorem Returns.bind {next : α → Except Stop β} (hresult : Returns result)
    (hnext : ∀ value, result = .ok value → Returns (next value)) : Returns (result >>= next) := by
  rcases hresult with ⟨value, rfl⟩ | rfl
  · exact hnext value rfl
  · exact Or.inr rfl

/-! ## Matching results -/

/-- Where the first operation returns the second one does, with a related result. -/
def Matches {γ δ : Type*} (related : γ → δ → Prop) (first : Except Stop γ)
    (second : Except Stop δ) : Prop :=
  ∀ value, first = .ok value → ∃ other, second = .ok other ∧ related value other

section Matches

variable {γ δ : Type u} {related : α → γ → Prop} {final : β → δ → Prop}
  {first : Except Stop α} {second : Except Stop γ}

theorem Matches.ok {value : α} {other : γ} (hrelated : related value other) :
    Matches related (.ok value) (.ok other) := by
  intro result hresult
  obtain rfl := Except.ok.inj hresult
  exact ⟨other, rfl, hrelated⟩

theorem Matches.error (stop : Stop) (second : Except Stop γ) :
    Matches related (.error stop) second := by
  rintro value ⟨⟩

theorem Matches.mono {weaker : α → γ → Prop} (hmatches : Matches related first second)
    (hweaker : ∀ value other, related value other → weaker value other) :
    Matches weaker first second := by
  intro value hvalue
  obtain ⟨other, hother, hrelated⟩ := hmatches value hvalue
  exact ⟨other, hother, hweaker value other hrelated⟩

/-- Sequential compositions match if their operations do. -/
theorem Matches.bind {next : α → Except Stop β} {after : γ → Except Stop δ}
    (hmatches : Matches related first second)
    (hnext : ∀ value other, related value other → Matches final (next value) (after other)) :
    Matches final (first >>= next) (second >>= after) := by
  intro result hresult
  obtain ⟨value, hvalue, hresult⟩ := Except.bind_eq_ok.mp hresult
  obtain ⟨other, hother, hrelated⟩ := hmatches value hvalue
  obtain ⟨last, hlast, hfinal⟩ := hnext value other hrelated result hresult
  exact ⟨last, Except.bind_eq_ok.mpr ⟨other, hother, hlast⟩, hfinal⟩

/-- The same operation comes first. -/
theorem Matches.bind_self {next : α → Except Stop β} {after : α → Except Stop δ}
    (hnext : ∀ value, Matches final (next value) (after value)) :
    Matches final (first >>= next) (first >>= after) := by
  intro result hresult
  obtain ⟨value, hvalue, hresult⟩ := Except.bind_eq_ok.mp hresult
  obtain ⟨last, hlast, hfinal⟩ := hnext value result hresult
  exact ⟨last, Except.bind_eq_ok.mpr ⟨value, hvalue, hlast⟩, hfinal⟩

/-- Both take the same branch. -/
theorem Matches.ite {condition : Prop} [Decidable condition] {elseFirst : Except Stop α}
    {elseSecond : Except Stop γ} (hthen : condition → Matches related first second)
    (helse : ¬ condition → Matches related elseFirst elseSecond) :
    Matches related (if condition then first else elseFirst)
      (if condition then second else elseSecond) := by
  split
  next hcondition => exact hthen hcondition
  next hcondition => exact helse hcondition

end Matches

end Except

namespace Transition

variable {State Action : Type*} {step : State → Action → Except Stop State}

/-- Take the actions of a schedule in order. -/
def run (step : State → Action → Except Stop State) (state : State)
    (schedule : List Action) : Except Stop State :=
  schedule.foldlM step state

@[simp] theorem run_nil (state : State) : run step state [] = .ok state := rfl

@[simp] theorem run_cons (state : State) (action : Action) (rest : List Action) :
    run step state (action :: rest) = step state action >>= fun next => run step next rest :=
  List.foldlM_cons

theorem run_cons_eq_ok {state final : State} {action : Action} {rest : List Action} :
    run step state (action :: rest) = .ok final ↔
      ∃ middle, step state action = .ok middle ∧ run step middle rest = .ok final := by
  rw [run_cons, Except.bind_eq_ok]

/-- A run of two schedules splits between them. -/
theorem run_append {state final : State} {first second : List Action} :
    run step state (first ++ second) = .ok final ↔
      ∃ middle, run step state first = .ok middle ∧ run step middle second = .ok final := by
  unfold run
  rw [List.foldlM_append, Except.bind_eq_ok]

/-- Whether a run ends in a state that passes a check. -/
def ends (check : State → Bool) : Except Stop State → Bool
  | .ok state => check state
  | .error _ => false

theorem exists_of_ends {check : State → Bool} {result : Except Stop State}
    (hends : ends check result = true) : ∃ state, result = .ok state ∧ check state = true := by
  cases result with
  | error _ => cases hends
  | ok state => exact ⟨state, rfl, hends⟩

/-- A predicate preserved by every step is preserved by every run. -/
theorem run_invariant {invariant : State → Prop}
    (hpreserved : ∀ state action next, invariant state →
      step state action = .ok next → invariant next)
    {schedule : List Action} {state final : State} (hstate : invariant state)
    (hrun : run step state schedule = .ok final) : invariant final := by
  induction schedule generalizing state with
  | nil =>
      simp only [run_nil, Except.ok.injEq] at hrun
      exact hrun ▸ hstate
  | cons action rest ih =>
      obtain ⟨middle, hstep, hrest⟩ := run_cons_eq_ok.mp hrun
      exact ih (hpreserved state action middle hstate hstep) hrest

/-- Every action of the run meets the condition in the state it is taken from. -/
def EveryStep (step : State → Action → Except Stop State)
    (condition : State → Action → Prop) : State → List Action → Prop
  | _, [] => True
  | state, action :: rest => condition state action ∧
      ∀ next, step state action = .ok next → EveryStep step condition next rest

/-- The condition can be checked along the run. -/
instance EveryStep.decidable {condition : State → Action → Prop}
    [∀ state action, Decidable (condition state action)] :
    (state : State) → (schedule : List Action) →
      Decidable (EveryStep step condition state schedule)
  | _, [] => .isTrue trivial
  | state, action :: rest =>
      match hstep : step state action with
      | .error _ => decidable_of_iff (condition state action)
          ⟨fun hhead => ⟨hhead, fun _ hnext => by rw [hstep] at hnext; cases hnext⟩, And.left⟩
      | .ok next =>
          have : Decidable (EveryStep step condition next rest) := EveryStep.decidable next rest
          decidable_of_iff (condition state action ∧ EveryStep step condition next rest)
            ⟨fun hboth => ⟨hboth.1, fun other hother => by
                rw [hstep, Except.ok.injEq] at hother
                exact hother ▸ hboth.2⟩,
              fun hevery => ⟨hevery.1, hevery.2 next hstep⟩⟩

/-- A condition on the actions alone joins a condition on the steps. -/
theorem EveryStep.and_forall {condition : State → Action → Prop} {allowed : Action → Prop}
    {state : State} {schedule : List Action} (hevery : EveryStep step condition state schedule)
    (hall : ∀ action ∈ schedule, allowed action) :
    EveryStep step (fun state action => condition state action ∧ allowed action) state
      schedule := by
  induction schedule generalizing state with
  | nil => trivial
  | cons action rest ih =>
      refine ⟨⟨hevery.1, hall action List.mem_cons_self⟩, fun next hstep => ?_⟩
      apply ih (hevery.2 next hstep)
      exact fun other hother => hall other (List.mem_cons_of_mem _ hother)

/-- In a complete run, a condition on the actions alone is one on the schedule. -/
theorem everyStep_iff_forall {allowed : Action → Prop} {schedule : List Action}
    {state final : State} (hrun : run step state schedule = .ok final) :
    EveryStep step (fun _ action => allowed action) state schedule ↔
      ∀ action ∈ schedule, allowed action := by
  induction schedule generalizing state with
  | nil => exact ⟨fun _ _ hmem => absurd hmem List.not_mem_nil, fun _ => trivial⟩
  | cons action rest ih =>
      obtain ⟨middle, hstep, hrest⟩ := run_cons_eq_ok.mp hrun
      rw [List.forall_mem_cons, ← ih hrest]
      refine and_congr_right fun _ => ⟨fun hevery => hevery middle hstep, ?_⟩
      intro hevery next hnext
      obtain rfl := Except.ok.inj (hstep.symm.trans hnext)
      exact hevery

/-- Conditional invariants: preservation is only needed for the steps that meet
the condition, when every step of the run does. -/
theorem run_invariant_of_everyStep {condition : State → Action → Prop}
    {invariant : State → Prop}
    (hpreserved : ∀ state action next, invariant state → condition state action →
      step state action = .ok next → invariant next)
    {schedule : List Action} {state final : State} (hstate : invariant state)
    (hevery : EveryStep step condition state schedule)
    (hrun : run step state schedule = .ok final) : invariant final := by
  induction schedule generalizing state with
  | nil =>
      simp only [run_nil, Except.ok.injEq] at hrun
      exact hrun ▸ hstate
  | cons action rest ih =>
      obtain ⟨middle, hstep, hrest⟩ := run_cons_eq_ok.mp hrun
      exact ih (hpreserved state action middle hstate hevery.1 hstep)
        (hevery.2 middle hstep) hrest

/-- What a step can end only by an event lasts until the event happens. -/
theorem run_until {condition : State → Action → Prop} {invariant waiting : State → Prop}
    {event : State → Action → State → Prop}
    (hpreserved : ∀ state action next, invariant state → condition state action →
      step state action = .ok next → invariant next)
    (hwaits : ∀ state action next, invariant state → condition state action →
      step state action = .ok next → waiting state → waiting next ∨ event state action next)
    {schedule : List Action} {state final : State} (hstate : invariant state)
    (hevery : EveryStep step condition state schedule) (hwaiting : waiting state)
    (hrun : run step state schedule = .ok final) :
    waiting final ∨ ∃ before action after middle next, schedule = before ++ action :: after ∧
      run step state before = .ok middle ∧ step middle action = .ok next ∧
      event middle action next := by
  induction schedule generalizing state with
  | nil =>
      simp only [run_nil, Except.ok.injEq] at hrun
      exact Or.inl (hrun ▸ hwaiting)
  | cons action rest ih =>
      obtain ⟨middle, hstep, hrest⟩ := run_cons_eq_ok.mp hrun
      rcases hwaits state action middle hstate hevery.1 hstep hwaiting with hlasts | hevent
      · have hmiddle := hpreserved state action middle hstate hevery.1 hstep
        rcases ih hmiddle (hevery.2 middle hstep) hlasts hrest with hfinal |
          ⟨before, later, after, last, next, rfl, hbefore, hnext, hevent⟩
        · exact Or.inl hfinal
        · exact Or.inr ⟨action :: before, later, after, last, next, rfl,
            run_cons_eq_ok.mpr ⟨middle, hstep, hbefore⟩, hnext, hevent⟩
      · exact Or.inr ⟨[], action, rest, state, middle, rfl, rfl, hstep, hevent⟩

/-- A condition implies another one along a run when it keeps an invariant under
which it does. -/
theorem EveryStep.imp {condition other : State → Action → Prop} {invariant : State → Prop}
    (hpreserved : ∀ state action next, invariant state → condition state action →
      step state action = .ok next → invariant next)
    (himplies : ∀ state action, invariant state → condition state action → other state action)
    {schedule : List Action} {state : State} (hstate : invariant state)
    (hevery : EveryStep step condition state schedule) : EveryStep step other state schedule := by
  induction schedule generalizing state with
  | nil => trivial
  | cons action rest ih =>
      refine ⟨himplies state action hstate hevery.1, fun next hstep => ?_⟩
      exact ih (hpreserved state action next hstate hevery.1 hstep) (hevery.2 next hstep)

/-- What is recorded besides a state does not change which conditions on the state a run
meets. -/
theorem everyStep_recorded {Recorded : Type*}
    {recordedStep : Recorded → Action → Except Stop Recorded} {state : Recorded → State}
    (hstep : ∀ recorded action,
      (recordedStep recorded action).map state = step (state recorded) action)
    {condition : State → Action → Prop} {recorded : Recorded} {schedule : List Action} :
    EveryStep recordedStep (fun recorded action => condition (state recorded) action) recorded
      schedule ↔ EveryStep step condition (state recorded) schedule := by
  induction schedule generalizing recorded with
  | nil => exact Iff.rfl
  | cons action rest ih =>
      refine and_congr_right fun _ => ?_
      rw [← hstep]
      cases recordedStep recorded action with
      | error _ => simp [Except.map]
      | ok next => simpa [Except.map] using ih

/-- Exact conditions: when a step keeps the law if and only if it meets the
condition, a run keeps the law if and only if every step meets it. -/
theorem run_law_iff {condition : State → Action → Prop} {invariant law : State → Prop}
    (hpreserved : ∀ state action next, invariant state →
      step state action = .ok next → invariant next)
    (hlaw : ∀ state action next, invariant state → step state action = .ok next →
      (law next ↔ law state ∧ condition state action))
    {schedule : List Action} {state final : State} (hstate : invariant state)
    (hrun : run step state schedule = .ok final) :
    law final ↔ law state ∧ EveryStep step condition state schedule := by
  induction schedule generalizing state with
  | nil =>
      simp only [run_nil, Except.ok.injEq] at hrun
      simp [EveryStep, hrun]
  | cons action rest ih =>
      obtain ⟨middle, hstep, hrest⟩ := run_cons_eq_ok.mp hrun
      have htail := ih (hpreserved state action middle hstate hstep) hrest
      have hhead := hlaw state action middle hstate hstep
      simp only [EveryStep]
      constructor
      · intro hfinal
        obtain ⟨hmiddle, hevery⟩ := htail.mp hfinal
        obtain ⟨hlawful, hmeets⟩ := hhead.mp hmiddle
        refine ⟨hlawful, hmeets, fun next hnext => ?_⟩
        rw [hstep, Except.ok.injEq] at hnext
        exact hnext ▸ hevery
      · rintro ⟨hlawful, hmeets, hevery⟩
        exact htail.mpr ⟨hhead.mpr ⟨hlawful, hmeets⟩, hevery middle hstep⟩

/-- Two conditions that agree where the first keeps an invariant hold of the same
runs. -/
theorem everyStep_congr {condition other : State → Action → Prop} {invariant : State → Prop}
    (hpreserved : ∀ state action next, invariant state → condition state action →
      step state action = .ok next → invariant next)
    (hagree : ∀ state action next, invariant state → step state action = .ok next →
      (condition state action ↔ other state action))
    {schedule : List Action} {state final : State} (hstate : invariant state)
    (hrun : run step state schedule = .ok final) :
    EveryStep step condition state schedule ↔ EveryStep step other state schedule := by
  induction schedule generalizing state with
  | nil => exact Iff.rfl
  | cons action rest ih =>
      obtain ⟨middle, hstep, hrest⟩ := run_cons_eq_ok.mp hrun
      have hhead := hagree state action middle hstate hstep
      constructor
      · rintro ⟨hmeets, hevery⟩
        have hmiddle := hpreserved state action middle hstate hmeets hstep
        refine ⟨hhead.mp hmeets, fun next hnext => ?_⟩
        obtain rfl := Except.ok.inj (hstep.symm.trans hnext)
        exact (ih hmiddle hrest).mp (hevery middle hstep)
      · rintro ⟨hother, hevery⟩
        have hmeets := hhead.mpr hother
        have hmiddle := hpreserved state action middle hstate hmeets hstep
        refine ⟨hmeets, fun next hnext => ?_⟩
        obtain rfl := Except.ok.inj (hstep.symm.trans hnext)
        exact (ih hmiddle hrest).mpr (hevery middle hstep)

/-! ## Runs whose states all meet a predicate -/

/-- Every state of the run meets the predicate, the first and the last included. -/
def EveryState (step : State → Action → Except Stop State) (predicate : State → Prop) :
    State → List Action → Prop
  | state, [] => predicate state
  | state, action :: rest => predicate state ∧
      ∀ next, step state action = .ok next → EveryState step predicate next rest

theorem EveryState.head {predicate : State → Prop} {schedule : List Action} {state : State}
    (hevery : EveryState step predicate state schedule) : predicate state := by
  cases schedule with
  | nil => exact hevery
  | cons _ _ => exact hevery.1

theorem EveryState.final {predicate : State → Prop} {schedule : List Action}
    {state final : State} (hevery : EveryState step predicate state schedule)
    (hrun : run step state schedule = .ok final) : predicate final := by
  induction schedule generalizing state with
  | nil =>
      simp only [run_nil, Except.ok.injEq] at hrun
      exact hrun ▸ hevery
  | cons action rest ih =>
      obtain ⟨middle, hstep, hrest⟩ := run_cons_eq_ok.mp hrun
      exact ih (hevery.2 middle hstep) hrest

/-- What an invariant implies holds in every state of a run whose steps all meet the
condition that keeps it. -/
theorem EveryStep.everyState {condition : State → Action → Prop}
    {invariant predicate : State → Prop}
    (hpreserved : ∀ state action next, invariant state → condition state action →
      step state action = .ok next → invariant next)
    (himplies : ∀ state, invariant state → predicate state) {schedule : List Action}
    {state : State} (hstate : invariant state)
    (hevery : EveryStep step condition state schedule) :
    EveryState step predicate state schedule := by
  induction schedule generalizing state with
  | nil => exact himplies state hstate
  | cons action rest ih =>
      refine ⟨himplies state hstate, fun next hstep => ?_⟩
      exact ih (hpreserved state action next hstate hevery.1 hstep) (hevery.2 next hstep)

/-- Two predicates that agree under an invariant hold in all states of the same runs. -/
theorem everyState_congr {invariant predicate other : State → Prop}
    (hpreserved : ∀ state action next, invariant state → step state action = .ok next →
      invariant next)
    (hagree : ∀ state, invariant state → (predicate state ↔ other state))
    {schedule : List Action} {state : State} (hstate : invariant state) :
    EveryState step predicate state schedule ↔ EveryState step other state schedule := by
  induction schedule generalizing state with
  | nil => exact hagree state hstate
  | cons action rest ih =>
      refine and_congr (hagree state hstate) (forall_congr' fun next => ?_)
      exact forall_congr' fun hstep => ih (hpreserved state action next hstate hstep)

/-- Exact conditions for safety: when a step from a lawful state leads to a lawful
one if and only if it meets the condition, a run visits lawful states only if and
only if all its steps meet it. The invariant need not survive a violation, and only
the actions allowed in the schedule matter. -/
theorem everyState_iff_of_forall {condition : State → Action → Prop}
    {invariant law : State → Prop} {allowed : Action → Prop}
    (hpreserved : ∀ state action next, invariant state → allowed action →
      condition state action → step state action = .ok next → invariant next)
    (hlaw : ∀ state action next, invariant state → law state → allowed action →
      step state action = .ok next → (law next ↔ condition state action))
    {schedule : List Action} (hall : ∀ action ∈ schedule, allowed action)
    {state final : State} (hstate : invariant state) (hlawful : law state)
    (hrun : run step state schedule = .ok final) :
    EveryState step law state schedule ↔ EveryStep step condition state schedule := by
  induction schedule generalizing state with
  | nil => exact ⟨fun _ => trivial, fun _ => hlawful⟩
  | cons action rest ih =>
      obtain ⟨hallowed, htail⟩ := List.forall_mem_cons.mp hall
      obtain ⟨middle, hstep, hrest⟩ := run_cons_eq_ok.mp hrun
      have hhead := hlaw state action middle hstate hlawful hallowed hstep
      constructor
      · rintro ⟨-, hevery⟩
        have hmiddle := (hevery middle hstep).head
        have hmeets := hhead.mp hmiddle
        have hnext := hpreserved state action middle hstate hallowed hmeets hstep
        refine ⟨hmeets, fun next hreached => ?_⟩
        obtain rfl := Except.ok.inj (hstep.symm.trans hreached)
        exact (ih htail hnext hmiddle hrest).mp (hevery middle hstep)
      · rintro ⟨hmeets, hevery⟩
        have hmiddle := hhead.mpr hmeets
        have hnext := hpreserved state action middle hstate hallowed hmeets hstep
        refine ⟨hlawful, fun next hreached => ?_⟩
        obtain rfl := Except.ok.inj (hstep.symm.trans hreached)
        exact (ih htail hnext hmiddle hrest).mpr (hevery middle hstep)

theorem everyState_iff {condition : State → Action → Prop} {invariant law : State → Prop}
    (hpreserved : ∀ state action next, invariant state → condition state action →
      step state action = .ok next → invariant next)
    (hlaw : ∀ state action next, invariant state → law state →
      step state action = .ok next → (law next ↔ condition state action))
    {schedule : List Action} {state final : State} (hstate : invariant state)
    (hlawful : law state) (hrun : run step state schedule = .ok final) :
    EveryState step law state schedule ↔ EveryStep step condition state schedule :=
  everyState_iff_of_forall
    (fun state action next hinvariant _ => hpreserved state action next hinvariant)
    (fun state action next hinvariant hlawful _ => hlaw state action next hinvariant hlawful)
    (fun _ _ => trivial) hstate hlawful hrun

/-- An invariant that a step keeps when it ends in a state that meets the predicate, and
when the schedule may contain the action. -/
theorem EveryState.run_invariant {predicate invariant : State → Prop} {allowed : Action → Prop}
    (hpreserved : ∀ state action next, invariant state → allowed action → predicate next →
      step state action = .ok next → invariant next)
    {schedule : List Action} (hall : ∀ action ∈ schedule, allowed action) {state final : State}
    (hstate : invariant state) (hevery : EveryState step predicate state schedule)
    (hrun : run step state schedule = .ok final) : invariant final := by
  induction schedule generalizing state with
  | nil =>
      simp only [run_nil, Except.ok.injEq] at hrun
      exact hrun ▸ hstate
  | cons action rest ih =>
      obtain ⟨hallowed, htail⟩ := List.forall_mem_cons.mp hall
      obtain ⟨middle, hstep, hrest⟩ := run_cons_eq_ok.mp hrun
      have hmiddle := hevery.2 middle hstep
      exact ih htail (hpreserved state action middle hstate hallowed hmiddle.head hstep) hmiddle
        hrest

/-- The greatest value that a measure has along a run. -/
def peak (step : State → Action → Except Stop State) (measure : State → Nat) :
    State → List Action → Nat
  | state, [] => measure state
  | state, action :: rest =>
      match step state action with
      | .ok next => max (measure state) (peak step measure next rest)
      | .error _ => measure state

theorem peak_le_iff {measure : State → Nat} {bound : Nat} {schedule : List Action}
    {state : State} : peak step measure state schedule ≤ bound ↔
      EveryState step (measure · ≤ bound) state schedule := by
  induction schedule generalizing state with
  | nil => exact Iff.rfl
  | cons action rest ih =>
      unfold peak EveryState
      cases hstep : step state action with
      | error _ => simp
      | ok next => simp [ih]

/-! ## Reachability -/

theorem EveryStep.append {condition : State → Action → Prop} {first second : List Action}
    {state middle : State} (hfirst : EveryStep step condition state first)
    (hrun : run step state first = .ok middle) (hsecond : EveryStep step condition middle second) :
    EveryStep step condition state (first ++ second) := by
  induction first generalizing state with
  | nil =>
      simp only [run_nil, Except.ok.injEq] at hrun
      exact hrun ▸ hsecond
  | cons action rest ih =>
      obtain ⟨early, hstep, hrest⟩ := run_cons_eq_ok.mp hrun
      refine ⟨hfirst.1, fun next hnext => ?_⟩
      obtain rfl := Except.ok.inj (hstep.symm.trans hnext)
      exact ih (hfirst.2 early hstep) hrest

/-- A run whose steps all meet the condition leads to the state. -/
def Reaches (step : State → Action → Except Stop State) (condition : State → Action → Prop)
    (start state : State) : Prop :=
  ∃ schedule, EveryStep step condition start schedule ∧ run step start schedule = .ok state

section Reaches

variable {condition : State → Action → Prop} {start state final : State}

theorem Reaches.refl (start : State) : Reaches step condition start start :=
  ⟨[], trivial, rfl⟩

theorem Reaches.trans (hfirst : Reaches step condition start state)
    (hsecond : Reaches step condition state final) : Reaches step condition start final := by
  obtain ⟨before, hbefore, hrun⟩ := hfirst
  obtain ⟨after, hafter, hrest⟩ := hsecond
  exact ⟨before ++ after, hbefore.append hrun hafter, run_append.mpr ⟨state, hrun, hrest⟩⟩

theorem Reaches.single {action : Action} (hcondition : condition start action)
    (hstep : step start action = .ok state) : Reaches step condition start state :=
  ⟨[action], ⟨hcondition, fun _ _ => trivial⟩, run_cons_eq_ok.mpr ⟨state, hstep, rfl⟩⟩

/-- What the steps preserve that meet the condition holds where they lead. -/
theorem Reaches.invariant {invariant : State → Prop}
    (hpreserved : ∀ state action next, invariant state → condition state action →
      step state action = .ok next → invariant next)
    (hstart : invariant start) (hreaches : Reaches step condition start state) :
    invariant state := by
  obtain ⟨schedule, hevery, hrun⟩ := hreaches
  exact run_invariant_of_everyStep hpreserved hstart hevery hrun

end Reaches

/-! ## Runs that end -/

section Measure

variable {condition : State → Action → Prop} {invariant : State → Prop}
  {measure : State → Nat}

/-- A run whose steps lower a measure is no longer than the measure. -/
theorem length_add_measure_le
    (hpreserved : ∀ state action next, invariant state → condition state action →
      step state action = .ok next → invariant next)
    (hlowers : ∀ state action next, invariant state → condition state action →
      step state action = .ok next → measure next < measure state)
    {schedule : List Action} {state final : State} (hstate : invariant state)
    (hevery : EveryStep step condition state schedule)
    (hrun : run step state schedule = .ok final) :
    schedule.length + measure final ≤ measure state := by
  induction schedule generalizing state with
  | nil =>
      simp only [run_nil, Except.ok.injEq] at hrun
      rw [hrun, List.length_nil, Nat.zero_add]
  | cons action rest ih =>
      obtain ⟨middle, hstep, hrest⟩ := run_cons_eq_ok.mp hrun
      have hlower := hlowers state action middle hstate hevery.1 hstep
      have hlater := ih (hpreserved state action middle hstate hevery.1 hstep)
        (hevery.2 middle hstep) hrest
      rw [List.length_cons]
      omega

end Measure

/-! ## Forward simulation -/

/-- A step function simulates an abstract one when every concrete step from
related states is matched by the abstract step of the same action. -/
def Simulates {Abstract : Type*} (step : State → Action → Except Stop State)
    (abstractStep : Abstract → Action → Except Stop Abstract)
    (related : State → Abstract → Prop) : Prop :=
  ∀ state action next spec, related state spec → step state action = .ok next →
    ∃ specNext, abstractStep spec action = .ok specNext ∧ related next specNext

/-- A simulated run is matched by a run of the abstract system. -/
theorem Simulates.run {Abstract : Type*}
    {abstractStep : Abstract → Action → Except Stop Abstract}
    {related : State → Abstract → Prop} (hsim : Simulates step abstractStep related)
    {schedule : List Action} {state final : State} {spec : Abstract}
    (hrelated : related state spec) (hrun : run step state schedule = .ok final) :
    ∃ specFinal, Transition.run abstractStep spec schedule = .ok specFinal ∧
      related final specFinal := by
  induction schedule generalizing state spec with
  | nil =>
      simp only [run_nil, Except.ok.injEq] at hrun
      exact ⟨spec, rfl, hrun ▸ hrelated⟩
  | cons action rest ih =>
      obtain ⟨middle, hstep, hrest⟩ := run_cons_eq_ok.mp hrun
      obtain ⟨specMiddle, hspec, hmiddle⟩ := hsim state action middle spec hrelated hstep
      obtain ⟨specFinal, hspecRun, hfinal⟩ := ih hmiddle hrest
      exact ⟨specFinal, run_cons_eq_ok.mpr ⟨specMiddle, hspec, hspecRun⟩, hfinal⟩

end Transition
