import Muduo.EventLoop.Basic

/-! # No lost wake-up

A functor queued while the loop thread handles events is drained by the same
iteration, so its wake-up may be skipped. Any other functor is guarded: the
eventfd counter is positive, or the thread that pushed it has yet to write to the
eventfd. The counter is only emptied while events are handled, and the flag is
set from the first drain on, before the swap, so user code after the swap always
wakes the loop.
-/

open Transition

namespace Muduo

/-- Program points from which the loop thread reaches `poll` without a drain. -/
def ProgramPoint.pastSwap : ProgramPoint → Bool
  | .entering | .test | .poll | .running | .timer => true
  | _ => false

/-- Program points after the store of the flag in the same iteration. -/
def ProgramPoint.flagged : ProgramPoint → Bool
  | .swapping | .running | .timer => true
  | _ => false

namespace EventLoop

variable {Fn : Type} {start loop next : EventLoop Fn} {action : Action Fn}

/-- A wake-up has been written, or another thread is about to write it. -/
def Covered (loop : EventLoop Fn) : Prop :=
  0 < loop.wakeupFd ∨ ∃ thread, loop.waking thread = true

/-- A functor queued after `loop()` was entered is waiting. -/
def Waiting (loop : EventLoop Fn) : Prop :=
  ∃ queued ∈ loop.pendingFunctors, queued.afterEntry = true

/-- The wake-up protocol. -/
structure Awake (loop : EventLoop Fn) : Prop where
  guarded : loop.point.pastSwap → loop.Waiting → loop.Covered ∨ loop.queueing = true
  flag : loop.point.flagged → loop.callingPendingFunctors = true
  queueing : loop.queueing = true → loop.point.inUserCode = true

theorem Entering.awake (hstart : start.Entering) : start.Awake := by
  constructor
  · rintro - ⟨queued, hmem, hafter⟩
    rw [hstart.before queued hmem] at hafter
    cases hafter
  · rw [hstart.point]
    exact nofun
  · rw [hstart.queueing]
    exact nofun

/-- A step that moves the loop thread past no drain and empties no counter. -/
theorem Awake.move (hloop : loop.Awake) (hpending : next.pendingFunctors = loop.pendingFunctors)
    (hfd : next.wakeupFd = loop.wakeupFd) (hwaking : next.waking = loop.waking)
    (hflag : next.callingPendingFunctors = loop.callingPendingFunctors)
    (hqueueing : next.queueing = false) (hidle : loop.queueing = false)
    (hpast : next.point.pastSwap → loop.point.pastSwap)
    (hflagged : next.point.flagged → loop.point.flagged) : next.Awake := by
  constructor
  · intro hpoint hwaiting
    unfold Waiting at hwaiting
    rw [hpending] at hwaiting
    unfold Covered
    rw [hfd, hwaking, hqueueing, ← hidle]
    exact hloop.guarded (hpast hpoint) hwaiting
  · rw [hflag]
    exact fun hpoint => hloop.flag (hflagged hpoint)
  · rw [hqueueing]
    exact nofun

/-- The loop thread goes from one program point to the next. -/
theorem loopStep_awake (hloop : loop.Awake) (hidle : loop.queueing = false)
    (hstep : loop.loopStep action = .ok next) : next.Awake := by
  cases action with
  | enter =>
      obtain ⟨hpoint, hstep⟩ := Except.guard_eq_ok.mp hstep
      obtain rfl := Except.ok.inj hstep
      exact hloop.move rfl rfl rfl rfl hidle hidle (by simp [hpoint, ProgramPoint.pastSwap]) nofun
  | test =>
      obtain ⟨hpoint, hstep⟩ := Except.guard_eq_ok.mp hstep
      obtain rfl := Except.ok.inj hstep
      refine hloop.move rfl rfl rfl rfl hidle hidle (by simp [hpoint, ProgramPoint.pastSwap]) ?_
      dsimp only
      split <;> exact nofun
  | poll activeChannels =>
      obtain ⟨hpoint, hstep⟩ := Except.guard_eq_ok.mp hstep
      obtain rfl := Except.ok.inj hstep
      exact hloop.move rfl rfl rfl rfl hidle hidle nofun nofun
  | handleEvent =>
      -- the read may empty the counter, and the drain of this iteration is ahead
      obtain ⟨handler, rest, hpoint, rfl⟩ := handleEvent_ok hstep
      refine ⟨nofun, nofun, fun hqueueing => ?_⟩
      rw [hidle] at hqueueing
      cases hqueueing
  | storeFlag =>
      obtain ⟨-, hstep⟩ := Except.guard_eq_ok.mp hstep
      obtain rfl := Except.ok.inj hstep
      refine ⟨nofun, fun _ => rfl, fun hqueueing => ?_⟩
      rw [hidle] at hqueueing
      cases hqueueing
  | swap =>
      obtain ⟨hpoint, hstep⟩ := Except.guard_eq_ok.mp hstep
      obtain rfl := Except.ok.inj hstep
      refine ⟨fun _ hwaiting => ?_, fun _ => ?_, fun _ => rfl⟩
      · obtain ⟨queued, hmem, -⟩ := hwaiting
        cases hmem
      · exact hloop.flag (by rw [hpoint]; rfl)
  | runFunctor =>
      obtain ⟨-, head, -, hnext⟩ := runFunctor_ok hstep
      rw [hnext]
      exact hloop.move rfl rfl rfl rfl hidle hidle id id
  | endFunctors =>
      obtain ⟨hpoint, hstep⟩ := Except.guard_eq_ok.mp hstep
      obtain rfl := Except.ok.inj hstep
      exact hloop.move rfl rfl rfl rfl hidle hidle (by simp [hpoint.1, ProgramPoint.pastSwap])
        (by simp [hpoint.1, ProgramPoint.flagged])
  | endTimer =>
      obtain ⟨hpoint, hstep⟩ := Except.guard_eq_ok.mp hstep
      obtain rfl := Except.ok.inj hstep
      exact hloop.move rfl rfl rfl rfl hidle hidle (by simp [hpoint, ProgramPoint.pastSwap]) nofun
  | queueInLoop cb =>
      obtain ⟨huser, hstep⟩ := Except.guard_eq_ok.mp hstep
      obtain rfl := Except.ok.inj hstep
      exact ⟨fun _ _ => Or.inr rfl, hloop.flag, fun _ => huser⟩
  | wakeupIfNeeded | queueFrom | wakeupFrom | quit | wakeup => cases hstep

theorem covered_wakeup (loop : EventLoop Fn) : loop.wakeup.Covered :=
  Or.inl (Eventfd.write_pos _)

theorem step_awake (loop : EventLoop Fn) (action : Action Fn) (next : EventLoop Fn)
    (hloop : loop.Awake) (hstep : loop.step action = .ok next) : next.Awake := by
  cases haction : action with
  | wakeupIfNeeded =>
      subst haction
      obtain ⟨hqueueing, hstep⟩ := Except.guard_eq_ok.mp hstep
      obtain rfl := Except.ok.inj hstep
      unfold wakeupIfNeeded
      -- past the swap the flag is set, so the loop thread wakes itself
      cases hflag : loop.callingPendingFunctors with
      | true =>
          exact ⟨fun _ _ => Or.inl (covered_wakeup loop), fun _ => hflag, nofun⟩
      | false =>
          refine ⟨fun hpast => ?_, fun hflagged => ?_, nofun⟩
          · have huser := hloop.queueing hqueueing
            simp only [Bool.not_true, Bool.or_self, Bool.false_eq_true, ↓reduceIte] at hpast
            have hflagged : loop.point.flagged = true := by
              cases hpoint : loop.point <;>
                simp_all [ProgramPoint.pastSwap, ProgramPoint.inUserCode, ProgramPoint.flagged]
            rw [hloop.flag hflagged] at hflag
            cases hflag
          · simp only [Bool.not_true, Bool.or_self, Bool.false_eq_true, ↓reduceIte] at hflagged
            rw [hloop.flag hflagged] at hflag
            cases hflag
  | queueFrom thread cb =>
      subst haction
      obtain rfl := queueFrom_ok hstep
      refine ⟨fun _ _ => Or.inl (Or.inr ⟨thread, ?_⟩), hloop.flag, hloop.queueing⟩
      exact Function.update_self _ _ _
  | wakeupFrom thread =>
      subst haction
      obtain ⟨-, hstep⟩ := Except.guard_eq_ok.mp hstep
      obtain rfl := Except.ok.inj hstep
      exact ⟨fun _ _ => Or.inl (Or.inl (Eventfd.write_pos _)), hloop.flag, hloop.queueing⟩
  | quit =>
      subst haction
      simp only [step, Except.ok.injEq] at hstep
      subst hstep
      exact ⟨hloop.guarded, hloop.flag, hloop.queueing⟩
  | wakeup =>
      subst haction
      simp only [step, Except.ok.injEq] at hstep
      subst hstep
      exact ⟨fun _ _ => Or.inl (covered_wakeup loop), hloop.flag, hloop.queueing⟩
  | _ =>
      subst haction
      simp only [step] at hstep
      split at hstep
      next => cases hstep
      next hidle => exact loopStep_awake hloop (Bool.eq_false_of_not_eq_true hidle) hstep

/-- Whenever the loop thread is about to poll while a functor queued since
`loop()` was entered is waiting, the eventfd is readable or another thread has
pushed its functor and not yet written to the eventfd. -/
theorem no_lost_wakeup {schedule : List (Action Fn)} (hstart : start.Entering)
    (hrun : run step start schedule = .ok loop) (hpoll : loop.point = .poll)
    (hwaiting : ∃ queued ∈ loop.pendingFunctors, queued.afterEntry = true) :
    0 < loop.wakeupFd ∨ ∃ thread, loop.waking thread = true := by
  have hawake := run_invariant step_awake hstart.awake hrun
  rcases hawake.guarded (by rw [hpoll]; rfl) hwaiting with hcovered | hqueueing
  · exact hcovered
  · have huser := hawake.queueing hqueueing
    rw [hpoll] at huser
    cases huser

/-- A loop that is about to run for the first time. -/
def idle : EventLoop Nat where
  pendingFunctors := []
  functors := []
  callingPendingFunctors := false
  quit := false
  wakeupFd := 0
  point := .entering
  queueing := false
  waking := fun _ => false

/-- The timer callback queues a functor after the drain. -/
def timerQueues : List (Action Nat) :=
  [.enter, .test, .poll [.other], .handleEvent, .storeFlag, .swap, .endFunctors, .queueInLoop 7,
    .wakeupIfNeeded, .endTimer, .test]

theorem no_lost_wakeup_timer : ∃ loop, run step idle timerQueues = .ok loop ∧
    loop.point = .poll ∧ loop.pendingFunctors = [⟨7, true⟩] ∧
    (0 < loop.wakeupFd ∨ ∃ thread, loop.waking thread = true) := by
  have hends : ends (fun loop => decide (loop.point = .poll ∧
      loop.pendingFunctors = [⟨7, true⟩])) (run step idle timerQueues) = true := by
    decide
  obtain ⟨loop, hrun, hcheck⟩ := exists_of_ends hends
  obtain ⟨hpoll, hpending⟩ := of_decide_eq_true hcheck
  have hstart : idle.Entering := ⟨rfl, rfl, rfl, nofun⟩
  exact ⟨loop, hrun, hpoll, hpending, no_lost_wakeup hstart hrun hpoll
    ⟨⟨7, true⟩, by rw [hpending]; exact List.mem_singleton_self _, rfl⟩⟩

end EventLoop

end Muduo
