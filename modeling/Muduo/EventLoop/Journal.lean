import Muduo.EventLoop.Basic

/-! # The calls of queueInLoop and what became of them

A call of `queueInLoop` takes the mutex some time after it begins, and returns
after it has decided about the wake-up. The journal keeps the calls of each
thread, the pushes in the order of the critical sections, and the functors the
loop thread has started. It also keeps which functors a `quit` finds queued by
calls that have returned. Every step of the loop itself is a step of `EventLoop`.
-/

namespace Muduo

/-- A call of `queueInLoop`: its thread, none for the loop thread, its number among
the calls of that thread, and the functor. -/
structure Call (Fn : Type) where
  caller : Option ThreadId
  serial : Nat
  cb : Fn
  deriving DecidableEq, Repr

structure Journal (Fn : Type) where
  loop : EventLoop (Call Fn)
  /-- the calls of each thread so far -/
  calls : Option ThreadId → List (Call Fn)
  /-- the call that has not yet had its critical section -/
  pushing : Option ThreadId → Option (Call Fn)
  pushed : List (Call Fn)
  /-- the functors started so far -/
  executed : List (Call Fn)
  /-- the calls that had returned when `quit` was last called in this `loop()` -/
  promised : List (Call Fn)

namespace EventLoop

variable {Fn : Type}

/-- A loop that has been constructed. -/
def create : EventLoop Fn where
  pendingFunctors := []
  functors := []
  callingPendingFunctors := false
  quit := false
  wakeupFd := 0
  point := .entering
  queueing := false
  waking := fun _ => false

/-- The owner of the loop is in its own code, before, inside or after `loop()`. -/
def ownerRuns (loop : EventLoop Fn) : Bool :=
  !loop.queueing && (loop.point.inUserCode || loop.point = .entering || loop.point = .returned)

/-- The steps only the loop thread takes, the two of `queueInLoop` apart. -/
def Action.byLoopThread : Action Fn → Bool
  | .enter | .test | .poll _ | .handleEvent | .storeFlag | .swap | .runFunctor | .endFunctors
  | .endTimer => true
  | _ => false

/-- The critical section of `queueInLoop`, which the journal takes itself. -/
def Action.pushes : Action Fn → Bool
  | .queueInLoop _ | .queueFrom _ _ => true
  | _ => false

/-- The functor a step starts. -/
def started (loop : EventLoop Fn) : Action Fn → List Fn
  | .runFunctor => (loop.functors.take 1).map Queued.functor
  | _ => []

end EventLoop

namespace Journal

variable {Fn : Type}

def create : Journal Fn where
  loop := EventLoop.create
  calls := fun _ => []
  pushing := fun _ => none
  pushed := []
  executed := []
  promised := []

/-- The rest of the swapped batch. -/
def batch (j : Journal Fn) : List (Call Fn) := j.loop.functors.map Queued.functor

def queue (j : Journal Fn) : List (Call Fn) := j.loop.pendingFunctors.map Queued.functor

/-- The thread is inside `queueInLoop`, past the critical section. -/
def returning (j : Journal Fn) : Option ThreadId → Bool
  | none => j.loop.queueing
  | some thread => j.loop.waking thread

/-- The calls that have returned. The last call of a thread may not have. -/
def returned (j : Journal Fn) : List (Call Fn) :=
  j.pushed.filter fun call =>
    !j.returning call.caller || decide (call.serial + 1 < (j.calls call.caller).length)

/-- The thread can call `queueInLoop`. -/
def canCall (j : Journal Fn) (caller : Option ThreadId) : Bool :=
  (j.pushing caller).isNone && !j.returning caller && (caller.isSome || j.loop.ownerRuns)

/-- The critical section of a call. -/
def push (call : Call Fn) (loop : EventLoop (Call Fn)) : EventLoop (Call Fn) :=
  match call.caller with
  | none => { loop.push call with queueing := true }
  | some thread =>
      { loop.push call with waking := Function.update loop.waking thread true }

inductive Action (Fn : Type) where
  /-- a thread calls `queueInLoop` -/
  | call (caller : Option ThreadId) (cb : Fn)
  | push (caller : Option ThreadId)
  | step (action : EventLoop.Action (Call Fn))
  /-- `loop()` is called again after it has returned -/
  | again

/-- The promises after a step. A `quit` is void once `loop()` stores `quit_ = false`,
and a `loop()` that has returned did not return for a later one. -/
def promises (j : Journal Fn) : EventLoop.Action (Call Fn) → List (Call Fn)
  | .enter => []
  | .quit => if j.loop.point = .returned then j.promised else j.returned
  | _ => j.promised

def step (j : Journal Fn) : Action Fn → Except Stop (Journal Fn)
  | .call caller cb =>
      if j.canCall caller then
        let call : Call Fn := ⟨caller, (j.calls caller).length, cb⟩
        .ok { j with
          calls := Function.update j.calls caller (j.calls caller ++ [call])
          pushing := Function.update j.pushing caller (some call) }
      else .error .disabled
  | .push caller =>
      match j.pushing caller with
      | some call => .ok { j with
          loop := push call j.loop
          pushing := Function.update j.pushing caller none
          pushed := j.pushed ++ [call] }
      | none => .error .disabled
  | .step action =>
      -- inside `queueInLoop` the loop thread does nothing else
      if action.pushes = false ∧ (action.byLoopThread = true → j.pushing none = none) then do
        let loop ← j.loop.step action
        return { j with
          loop
          executed := j.executed ++ j.loop.started action
          promised := j.promises action }
      else .error .disabled
  | .again =>
      if j.loop.point = .returned ∧ j.loop.queueing = false ∧ j.pushing none = none then
        .ok { j with loop := { j.loop with point := .entering } }
      else .error .disabled

/-- The critical section is the one of the wake-up protocol. -/
theorem push_eq_step (loop : EventLoop (Call Fn)) (call : Call Fn)
    (hrun : call.caller = none → loop.queueing = false ∧ loop.point.inUserCode = true)
    (hother : ∀ thread, call.caller = some thread → loop.waking thread = false) :
    loop.step (match call.caller with
      | none => .queueInLoop call
      | some thread => .queueFrom thread call) = .ok (push call loop) := by
  cases hcaller : call.caller with
  | none =>
      obtain ⟨hidle, huser⟩ := hrun hcaller
      simp [EventLoop.step, EventLoop.loopStep, push, hcaller, hidle, huser]
  | some thread =>
      simp [EventLoop.step, push, hcaller, hother thread hcaller]

end Journal

end Muduo
