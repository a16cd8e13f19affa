import Muduo.Platform

/-! # The event loop and its wake-up

`EventLoop` of `EventLoop.h` and `EventLoop.cc`. The loop thread stands at one of
the program points of `loop()`; other threads queue functors with two steps, the
push under the mutex and the write to the eventfd. Handlers, functors and the
timer callback are user code, which queues functors of its own while the loop
thread is inside them. Functors are values of an arbitrary type.
-/

namespace Muduo

namespace Eventfd

/-- The largest value of an eventfd counter. -/
def maxCount : Nat := 2 ^ 64 - 2

/-- Writing one to a nonblocking eventfd fails when the counter is full. -/
def write (count : Nat) : Nat := if count < maxCount then count + 1 else count

theorem write_pos (count : Nat) : 0 < write count := by
  unfold write
  split
  · exact Nat.succ_pos _
  · have hfull : 0 < maxCount := by decide
    omega

end Eventfd

/-- A channel that `poll` has found active: the wakeup channel, or one whose
handler is user code. -/
inductive Handler where
  | wakeup
  | other
  deriving DecidableEq, Repr

/-- An element of `pendingFunctors_`, and whether it was queued after the current
call of `loop()` began. -/
structure Queued (Fn : Type) where
  functor : Fn
  afterEntry : Bool
  deriving DecidableEq, Repr

/-- Where the loop thread stands in `loop()`. -/
inductive ProgramPoint where
  /-- before `quit_ = false` -/
  | entering
  /-- before `while(!quit_)` -/
  | test
  | poll
  /-- in the loop over `activeChannels_` -/
  | handling (activeChannels : List Handler)
  /-- in `doPendingFunctors`, before the swap -/
  | swapping
  /-- in the loop over the swapped functors -/
  | running
  | timer
  | returned
  deriving DecidableEq, Repr

/-- User code runs on the loop thread: a handler, a functor or the timer callback. -/
def ProgramPoint.inUserCode : ProgramPoint → Bool
  | .handling _ | .running | .timer => true
  | _ => false

structure EventLoop (Fn : Type) where
  pendingFunctors : List (Queued Fn)
  /-- what is left of the swapped functors -/
  functors : List (Queued Fn)
  callingPendingFunctors : Bool
  quit : Bool
  /-- the counter of `wakeupFd_` -/
  wakeupFd : Nat
  point : ProgramPoint
  /-- the loop thread has pushed a functor and not yet asked whether to wake up -/
  queueing : Bool
  /-- another thread has pushed a functor and not yet called `wakeup` -/
  waking : ThreadId → Bool

namespace EventLoop

variable {Fn : Type}

/-- The loop thread calls `loop()`. What is queued is from before, and any other
thread may be about to call `wakeup`. -/
structure Entering (loop : EventLoop Fn) : Prop where
  point : loop.point = .entering
  functors : loop.functors = []
  queueing : loop.queueing = false
  before : ∀ queued ∈ loop.pendingFunctors, queued.afterEntry = false

def wakeup (loop : EventLoop Fn) : EventLoop Fn :=
  { loop with wakeupFd := Eventfd.write loop.wakeupFd }

/-- The read empties the counter; it fails when the counter is empty. -/
def handleRead (loop : EventLoop Fn) : EventLoop Fn := { loop with wakeupFd := 0 }

/-- The critical section of `queueInLoop`. -/
def push (cb : Fn) (loop : EventLoop Fn) : EventLoop Fn :=
  { loop with pendingFunctors := loop.pendingFunctors ++ [⟨cb, true⟩] }

/-- The rest of `queueInLoop`. -/
def wakeupIfNeeded (inLoopThread : Bool) (loop : EventLoop Fn) : EventLoop Fn :=
  if !inLoopThread || loop.callingPendingFunctors then loop.wakeup else loop

inductive Action (Fn : Type) where
  /-- `quit_ = false` -/
  | enter
  | test
  /-- `poll` returns with these channels, in any state of the eventfd -/
  | poll (activeChannels : List Handler)
  | handleEvent
  /-- `callingPendingFunctors_ = true` -/
  | storeFlag
  | swap
  | runFunctor
  | endFunctors
  | endTimer
  /-- user code on the loop thread calls `queueInLoop` -/
  | queueInLoop (cb : Fn)
  | wakeupIfNeeded
  /-- another thread calls `queueInLoop` -/
  | queueFrom (thread : ThreadId) (cb : Fn)
  | wakeupFrom (thread : ThreadId)
  /-- any thread stores `quit_ = true` -/
  | quit
  /-- any thread calls `wakeup`, as `quit` does -/
  | wakeup
  deriving DecidableEq, Repr

/-- A step of the loop thread at a program point. -/
def loopStep (loop : EventLoop Fn) : Action Fn → Except Stop (EventLoop Fn)
  | .enter =>
      if loop.point = .entering then .ok { loop with quit := false, point := .test }
      else .error .disabled
  | .test =>
      if loop.point = .test then
        .ok { loop with point := if loop.quit then .returned else .poll }
      else .error .disabled
  | .poll activeChannels =>
      if loop.point = .poll then .ok { loop with point := .handling activeChannels }
      else .error .disabled
  | .handleEvent =>
      match loop.point with
      | .handling (.wakeup :: rest) => .ok { loop.handleRead with point := .handling rest }
      | .handling (.other :: rest) => .ok { loop with point := .handling rest }
      | _ => .error .disabled
  | .storeFlag =>
      if loop.point = .handling [] then
        .ok { loop with callingPendingFunctors := true, point := .swapping }
      else .error .disabled
  | .swap =>
      if loop.point = .swapping then
        .ok { loop with functors := loop.pendingFunctors, pendingFunctors := [], point := .running }
      else .error .disabled
  | .runFunctor =>
      match loop.functors with
      | _ :: rest =>
          if loop.point = .running then .ok { loop with functors := rest } else .error .disabled
      | [] => .error .disabled
  | .endFunctors =>
      if loop.point = .running ∧ loop.functors.isEmpty then .ok { loop with point := .timer }
      else .error .disabled
  | .endTimer =>
      if loop.point = .timer then .ok { loop with point := .test } else .error .disabled
  | .queueInLoop cb =>
      if loop.point.inUserCode then .ok { loop.push cb with queueing := true } else .error .disabled
  | _ => .error .disabled

/-- A step of any thread. The loop thread does nothing else between its push and
its test of `callingPendingFunctors_`. -/
def step (loop : EventLoop Fn) : Action Fn → Except Stop (EventLoop Fn)
  | .wakeupIfNeeded =>
      if loop.queueing then .ok { loop.wakeupIfNeeded true with queueing := false }
      else .error .disabled
  | .queueFrom thread cb =>
      if loop.waking thread then .error .disabled
      else .ok { loop.push cb with waking := Function.update loop.waking thread true }
  | .wakeupFrom thread =>
      if loop.waking thread then
        .ok { loop.wakeupIfNeeded false with waking := Function.update loop.waking thread false }
      else .error .disabled
  | .quit => .ok { loop with quit := true }
  | .wakeup => .ok loop.wakeup
  | action => if loop.queueing then .error .disabled else loop.loopStep action

/-! ## What single steps do -/

variable {loop next : EventLoop Fn}

/-- The wakeup channel is read, another handler leaves the loop alone. -/
theorem handleEvent_ok (hstep : loop.loopStep .handleEvent = .ok next) :
    ∃ handler rest, loop.point = .handling (handler :: rest) ∧ next = { loop with
      wakeupFd := if handler = .wakeup then 0 else loop.wakeupFd
      point := .handling rest } := by
  simp only [loopStep] at hstep
  split at hstep
  next rest hpoint =>
    obtain rfl := Except.ok.inj hstep
    exact ⟨.wakeup, rest, hpoint, rfl⟩
  next rest hpoint =>
    obtain rfl := Except.ok.inj hstep
    exact ⟨.other, rest, hpoint, rfl⟩
  next => cases hstep

theorem runFunctor_ok (hstep : loop.loopStep .runFunctor = .ok next) :
    loop.point = .running ∧ ∃ head, loop.functors = head :: next.functors ∧
      next = { loop with functors := next.functors } := by
  simp only [loopStep] at hstep
  split at hstep
  next head rest hfunctors =>
    obtain ⟨hpoint, hstep⟩ := Except.guard_eq_ok.mp hstep
    obtain rfl := Except.ok.inj hstep
    exact ⟨hpoint, head, hfunctors, rfl⟩
  next => cases hstep

theorem queueInLoop_ok {cb : Fn} (hstep : loop.step (.queueInLoop cb) = .ok next) :
    loop.point.inUserCode = true ∧ next = { loop.push cb with queueing := true } := by
  simp only [step] at hstep
  split at hstep
  next => cases hstep
  next =>
    obtain ⟨huser, hstep⟩ := Except.guard_eq_ok.mp hstep
    exact ⟨huser, (Except.ok.inj hstep).symm⟩

theorem queueFrom_ok {thread : ThreadId} {cb : Fn}
    (hstep : loop.step (.queueFrom thread cb) = .ok next) :
    next = { loop.push cb with waking := Function.update loop.waking thread true } := by
  simp only [step] at hstep
  split at hstep
  next => cases hstep
  next => exact (Except.ok.inj hstep).symm

end EventLoop

end Muduo
