import Muduo.EventLoop.Batches
import Muduo.EventLoop.Wakeup

/-! # The self-wake flag

`callingPendingFunctors_` tells `queueInLoop` that the loop thread is executing functors, so
that a functor queued now misses the batch. `doPendingFunctors` sets the flag and never takes
it back: after the first drain the loop thread wakes itself for every functor that it queues,
also for those that the same iteration drains.
-/

open Transition

namespace Muduo

/-- The loop thread is inside `doPendingFunctors`. -/
def ProgramPoint.draining : ProgramPoint → Bool
  | .swapping | .running => true
  | _ => false

namespace EventLoop

variable {Fn : Type} {start loop next : EventLoop Fn} {action : Action Fn}

/-- The flag is not set outside `doPendingFunctors`, and a `queueInLoop` of the loop thread
while it handles events does not write to the eventfd. -/
structure Accurate (loop : EventLoop Fn) : Prop where
  flag : loop.point.draining = false → loop.callingPendingFunctors = false
  handling : ∀ activeChannels, loop.point = .handling activeChannels → loop.queueing = true →
    loop.wakeupIfNeeded true = loop

/-- The second part follows from the first. -/
theorem accurate_iff : loop.Accurate ↔
    (loop.point.draining = false → loop.callingPendingFunctors = false) := by
  refine ⟨Accurate.flag, fun hflag => ⟨hflag, fun activeChannels hpoint _ => ?_⟩⟩
  unfold wakeupIfNeeded
  rw [hflag (by rw [hpoint]; rfl)]
  rfl

/-- A drain sets the flag when it begins. No other step changes the flag, and no other step
than its return leads out of the drain. -/
theorem step_flag (hstep : loop.step action = .ok next) :
    (next.point = .swapping ∧ next.callingPendingFunctors = true ∧ action ≠ .endFunctors) ∨
    (next.callingPendingFunctors = loop.callingPendingFunctors ∧
      ((action = .endFunctors ∧ loop.point = .running ∧ next.point = .timer) ∨
        (action ≠ .endFunctors ∧ next.point.draining = loop.point.draining))) := by
  cases action with
  | storeFlag =>
      obtain ⟨-, hstep⟩ := step_byLoopThread rfl hstep
      obtain ⟨-, hstep⟩ := Except.guard_eq_ok.mp hstep
      obtain rfl := Except.ok.inj hstep
      exact Or.inl ⟨rfl, rfl, by rintro ⟨⟩⟩
  | endFunctors =>
      obtain ⟨-, hstep⟩ := step_byLoopThread rfl hstep
      obtain ⟨⟨hpoint, -⟩, hstep⟩ := Except.guard_eq_ok.mp hstep
      obtain rfl := Except.ok.inj hstep
      exact Or.inr ⟨rfl, Or.inl ⟨rfl, hpoint, rfl⟩⟩
  | handleEvent =>
      obtain ⟨-, hstep⟩ := step_byLoopThread rfl hstep
      obtain ⟨handler, rest, hpoint, rfl⟩ := handleEvent_ok hstep
      exact Or.inr ⟨rfl, Or.inr ⟨by rintro ⟨⟩, by rw [hpoint]; rfl⟩⟩
  | runFunctor =>
      obtain ⟨-, hstep⟩ := step_byLoopThread rfl hstep
      obtain ⟨-, head, -, hnext⟩ := runFunctor_ok hstep
      rw [hnext]
      exact Or.inr ⟨rfl, Or.inr ⟨by rintro ⟨⟩, rfl⟩⟩
  | test =>
      obtain ⟨-, hstep⟩ := step_byLoopThread rfl hstep
      obtain ⟨hpoint, hstep⟩ := Except.guard_eq_ok.mp hstep
      obtain rfl := Except.ok.inj hstep
      refine Or.inr ⟨rfl, Or.inr ⟨by rintro ⟨⟩, ?_⟩⟩
      cases hquit : loop.quit <;> simp [hpoint, ProgramPoint.draining]
  | enter | poll | swap | endTimer =>
      obtain ⟨-, hstep⟩ := step_byLoopThread rfl hstep
      obtain ⟨hpoint, hstep⟩ := Except.guard_eq_ok.mp hstep
      obtain rfl := Except.ok.inj hstep
      exact Or.inr ⟨rfl, Or.inr ⟨by rintro ⟨⟩, by rw [hpoint]; rfl⟩⟩
  | queueInLoop cb =>
      obtain ⟨-, rfl⟩ := queueInLoop_ok hstep
      exact Or.inr ⟨rfl, Or.inr ⟨by rintro ⟨⟩, rfl⟩⟩
  | wakeupIfNeeded =>
      obtain ⟨-, hstep⟩ := Except.guard_eq_ok.mp hstep
      obtain rfl := Except.ok.inj hstep
      unfold wakeupIfNeeded
      split <;> exact Or.inr ⟨rfl, Or.inr ⟨by rintro ⟨⟩, rfl⟩⟩
  | queueFrom thread cb =>
      obtain rfl := queueFrom_ok hstep
      exact Or.inr ⟨rfl, Or.inr ⟨by rintro ⟨⟩, rfl⟩⟩
  | wakeupFrom thread =>
      obtain ⟨-, hstep⟩ := Except.guard_eq_ok.mp hstep
      obtain rfl := Except.ok.inj hstep
      exact Or.inr ⟨rfl, Or.inr ⟨by rintro ⟨⟩, rfl⟩⟩
  | quit | wakeup =>
      obtain rfl := Except.ok.inj hstep
      exact Or.inr ⟨rfl, Or.inr ⟨by rintro ⟨⟩, rfl⟩⟩

/-- The return from `doPendingFunctors` leaves the flag set. -/
theorem step_accurate_iff (hawake : loop.Awake) (hloop : loop.Accurate)
    (hstep : loop.step action = .ok next) : next.Accurate ↔ action ≠ .endFunctors := by
  rw [accurate_iff]
  rcases step_flag hstep with ⟨hpoint, -, haction⟩ |
    ⟨hflag, ⟨rfl, hrunning, hpoint⟩ | ⟨haction, hsame⟩⟩
  · refine iff_of_true (fun hout => ?_) haction
    rw [hpoint] at hout
    cases hout
  · have hset : next.callingPendingFunctors = true := by
      rw [hflag, hawake.flag (by rw [hrunning]; rfl)]
    simp [hpoint, hset, ProgramPoint.draining]
  · refine iff_of_true (fun hout => ?_) haction
    rw [hflag]
    exact hloop.flag (hsame ▸ hout)

/-- Outside `doPendingFunctors` the flag tells whether it was set on entry or a drain has
returned since. -/
theorem flag_iff_drained {schedule : List (Action Fn)} (hstart : start.Entering)
    (hrun : run step start schedule = .ok loop) (hout : loop.point.draining = false) :
    loop.callingPendingFunctors = true ↔
      start.callingPendingFunctors = true ∨ .endFunctors ∈ schedule := by
  -- the last step decides, so the induction goes from the end
  induction schedule using List.reverseRecOn generalizing loop with
  | nil =>
      obtain rfl := Except.ok.inj hrun
      simp
  | append_singleton before action ih =>
      obtain ⟨middle, hbefore, hlast⟩ := run_append.mp hrun
      obtain ⟨next, hstep, hnext⟩ := run_cons_eq_ok.mp hlast
      obtain rfl := Except.ok.inj hnext
      have hmiddle := run_invariant step_awake hstart.awake hbefore
      rcases step_flag hstep with ⟨hpoint, -, -⟩ |
        ⟨hflag, ⟨rfl, hrunning, -⟩ | ⟨haction, hsame⟩⟩
      · rw [hpoint] at hout
        cases hout
      · rw [hflag, hmiddle.flag (by rw [hrunning]; rfl)]
        simp
      · rw [hflag, ih hbefore (hsame ▸ hout)]
        simp [haction.symm]

/-- **The self-wake flag.** The flag is accurate in every state of a run of `loop()` if and
only if it is not set on entry and no drain returns in the run. -/
theorem accurate_iff_undrained {schedule : List (Action Fn)} (hstart : start.Entering)
    (hrun : run step start schedule = .ok loop) : EveryState step Accurate start schedule ↔
      start.callingPendingFunctors = false ∧ .endFunctors ∉ schedule := by
  have hundrained : EveryStep step (fun _ action => action ≠ .endFunctors) start schedule ↔
      .endFunctors ∉ schedule := by
    rw [everyStep_iff_forall hrun]
    exact ⟨fun hall hmem => hall _ hmem rfl, fun hnone action hmem heq => hnone (heq ▸ hmem)⟩
  have hentry : start.Accurate ↔ start.callingPendingFunctors = false := by
    rw [accurate_iff, hstart.point]
    exact ⟨fun hflag => hflag rfl, fun hflag _ => hflag⟩
  have hlawful (haccurate : start.Accurate) : EveryState step Accurate start schedule ↔
      .endFunctors ∉ schedule := by
    rw [← hundrained]
    exact everyState_iff (fun loop action next hloop _ => step_awake loop action next hloop)
      (fun _ _ _ => step_accurate_iff) hstart.awake haccurate hrun
  rw [← hentry]
  exact ⟨fun hevery => ⟨hevery.head, (hlawful hevery.head).mp hevery⟩,
    fun ⟨haccurate, hnone⟩ => (hlawful haccurate).mpr hnone⟩

/-- In the first iteration a handler queues a functor, which queues another one when it is
executed. Only the second one needs a wake-up. -/
def firstIteration : List (Action Nat) :=
  [.enter, .test, .poll [.other], .queueInLoop 7, .wakeupIfNeeded, .handleEvent, .storeFlag,
    .swap, .runFunctor, .queueInLoop 8, .wakeupIfNeeded]

theorem accurate_iff_undrained_first : ∃ loop, run step idle firstIteration = .ok loop ∧
    EveryState step Accurate idle firstIteration := by
  have hends : ends (fun loop => decide (loop.functors = [])) (run step idle firstIteration) =
      true := by decide
  obtain ⟨loop, hrun, -⟩ := exists_of_ends hends
  have hstart : idle.Entering := ⟨rfl, rfl, rfl, nofun⟩
  exact ⟨loop, hrun, (accurate_iff_undrained hstart hrun).mpr ⟨rfl, by decide⟩⟩

/-- A handler queues a functor in the second iteration. -/
def secondIteration : List (Action Nat) :=
  [.enter, .test, .poll [], .storeFlag, .swap, .endFunctors, .endTimer, .test, .poll [.other],
    .queueInLoop 7]

/-- The loop thread is about to write to the eventfd, though the functor is drained by the
same iteration. -/
theorem accurate_false : ∃ loop, run step idle secondIteration = .ok loop ∧
    loop.point = .handling [.other] ∧ loop.callingPendingFunctors = true ∧ loop.wakeupFd = 0 ∧
    (loop.wakeupIfNeeded true).wakeupFd = 1 ∧ ¬ loop.Accurate := by
  have hends : ends (fun loop => decide (loop.point = .handling [.other] ∧
      loop.callingPendingFunctors = true ∧ loop.wakeupFd = 0 ∧
      (loop.wakeupIfNeeded true).wakeupFd = 1)) (run step idle secondIteration) = true := by
    decide
  obtain ⟨loop, hrun, hcheck⟩ := exists_of_ends hends
  obtain ⟨hpoint, hflag, hbefore, hafter⟩ := of_decide_eq_true hcheck
  refine ⟨loop, hrun, hpoint, hflag, hbefore, hafter, fun haccurate => ?_⟩
  have hclear := haccurate.flag (by rw [hpoint]; rfl)
  rw [hflag] at hclear
  cases hclear

end EventLoop

end Muduo
