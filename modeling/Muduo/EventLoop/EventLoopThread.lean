import Muduo.EventLoop.Quit

/-! # A loop in a thread of its own

`EventLoopThread.cc`: the new thread constructs a loop, runs the init callback,
publishes the loop and calls `loop()`. `startLoop` returns the published loop, and
from then on other threads may call it. `loop()` begins with `quit_ = false`, so a
`quit` that comes before has no effect; every later one lets the loop thread
begin at most one further poll.
-/

open Transition

namespace Muduo

/-- Where the new thread stands in `threadFunc`. -/
inductive ThreadPoint where
  | unstarted
  | constructing
  /-- in `callback_` -/
  | callback
  /-- in `while(!waitStarted_)` -/
  | waiting
  | publishing
  | looping
  /-- before `loop_=nullptr` -/
  | clearing
  /-- the loop is destroyed -/
  | ended
  deriving DecidableEq, Repr

/-- The loop is not yet published. -/
def ThreadPoint.early : ThreadPoint → Bool
  | .unstarted | .constructing | .callback | .waiting | .publishing => true
  | _ => false

/-- Where the owner stands in `startLoop`. -/
inductive StartPoint where
  | unstarted
  /-- before the critical section -/
  | locking
  /-- in `cond_.wait` -/
  | waiting
  | returned
  deriving DecidableEq, Repr

/-- Where the owner stands in `~EventLoopThread`. -/
inductive DestructorPoint where
  | uncalled
  /-- before `loop_->quit()` -/
  | quitting
  | joining
  | ended
  deriving DecidableEq, Repr

namespace EventLoop

variable {Fn : Type} {loop after : EventLoop Fn} {action : Action Fn}

/-- The thread of the loop can take the step. User code calls `quit` and `wakeup`. -/
def allows (loop : EventLoop Fn) : Action Fn → Bool
  | .queueFrom _ _ | .wakeupFrom _ => false
  | .quit | .wakeup => loop.point.inUserCode && !loop.queueing
  | _ => true

/-- The steps of other threads. -/
def Action.byOther : Action Fn → Bool
  | .queueFrom _ _ | .wakeupFrom _ | .quit | .wakeup => true
  | _ => false

/-- Other threads do not move the loop thread. -/
theorem step_byOther (haction : action.byOther = true) (hstep : loop.step action = .ok after) :
    after.point = loop.point ∧ after.queueing = loop.queueing ∧
      after.functors = loop.functors ∧ (loop.quit = true → after.quit = true) := by
  cases action with
  | queueFrom thread cb =>
      obtain rfl := queueFrom_ok hstep
      exact ⟨rfl, rfl, rfl, id⟩
  | wakeupFrom thread =>
      obtain ⟨-, hstep⟩ := Except.guard_eq_ok.mp hstep
      obtain rfl := Except.ok.inj hstep
      exact ⟨rfl, rfl, rfl, id⟩
  | quit =>
      obtain rfl := Except.ok.inj hstep
      exact ⟨rfl, rfl, rfl, fun _ => rfl⟩
  | wakeup =>
      obtain rfl := Except.ok.inj hstep
      exact ⟨rfl, rfl, rfl, id⟩
  | enter | test | poll | handleEvent | storeFlag | swap | runFunctor | endFunctors | endTimer
  | queueInLoop | wakeupIfNeeded => cases haction

/-- Only user code is interrupted inside `queueInLoop`. -/
theorem step_queueing (hloop : loop.queueing = true → loop.point.inUserCode = true)
    (hstep : loop.step action = .ok after) (hafter : after.queueing = true) :
    after.point.inUserCode = true := by
  cases action with
  | queueInLoop cb =>
      obtain ⟨huser, rfl⟩ := queueInLoop_ok hstep
      exact huser
  | wakeupIfNeeded =>
      obtain ⟨-, hstep⟩ := Except.guard_eq_ok.mp hstep
      obtain rfl := Except.ok.inj hstep
      cases hafter
  | queueFrom | wakeupFrom | quit | wakeup =>
      obtain ⟨hpoint, hqueueing, -⟩ := step_byOther rfl hstep
      rw [hpoint]
      exact hloop (hqueueing.symm.trans hafter)
  | enter | test | poll | handleEvent | storeFlag | swap | runFunctor | endFunctors | endTimer =>
      obtain ⟨hidle, hstep⟩ := step_byLoopThread rfl hstep
      rw [(loopStep_calls rfl hstep).1, hidle] at hafter
      cases hafter

/-- A step inside `queueInLoop` does not move the loop thread. -/
theorem step_queueInLoop (haction : action.pushes = true ∨ action = .wakeupIfNeeded)
    (hstep : loop.step action = .ok after) :
    after.point = loop.point ∧ after.quit = loop.quit := by
  cases action with
  | queueInLoop cb =>
      obtain ⟨-, rfl⟩ := queueInLoop_ok hstep
      exact ⟨rfl, rfl⟩
  | queueFrom thread cb =>
      obtain rfl := queueFrom_ok hstep
      exact ⟨rfl, rfl⟩
  | wakeupIfNeeded =>
      obtain ⟨-, hstep⟩ := Except.guard_eq_ok.mp hstep
      obtain rfl := Except.ok.inj hstep
      unfold wakeupIfNeeded
      split <;> exact ⟨rfl, rfl⟩
  | enter | test | poll | handleEvent | storeFlag | swap | runFunctor | endFunctors | endTimer
  | wakeupFrom | quit | wakeup => simp [Action.pushes] at haction

/-- The loop thread comes to `poll` only through the test of `quit_`. -/
theorem step_poll (hstep : loop.step action = .ok after) (hafter : after.point = .poll) :
    (action = .test ∧ loop.quit = false) ∨
      (loop.point = .poll ∧ ∀ activeChannels, action ≠ .poll activeChannels) := by
  cases action with
  | queueInLoop cb =>
      exact Or.inr ⟨(step_queueInLoop (.inl rfl) hstep).1 ▸ hafter, by rintro _ ⟨⟩⟩
  | wakeupIfNeeded =>
      exact Or.inr ⟨(step_queueInLoop (.inr rfl) hstep).1 ▸ hafter, by rintro _ ⟨⟩⟩
  | queueFrom | wakeupFrom | quit | wakeup =>
      exact Or.inr ⟨(step_byOther rfl hstep).1 ▸ hafter, by rintro _ ⟨⟩⟩
  | test =>
      obtain ⟨-, hstep⟩ := step_byLoopThread rfl hstep
      obtain ⟨-, hstep⟩ := Except.guard_eq_ok.mp hstep
      obtain rfl := Except.ok.inj hstep
      refine Or.inl ⟨rfl, Bool.eq_false_of_not_eq_true fun hquit => ?_⟩
      simp [hquit] at hafter
  | handleEvent =>
      obtain ⟨-, hstep⟩ := step_byLoopThread rfl hstep
      obtain ⟨handler, rest, -, rfl⟩ := handleEvent_ok hstep
      cases hafter
  | runFunctor =>
      obtain ⟨-, hstep⟩ := step_byLoopThread rfl hstep
      obtain ⟨-, head, -, hsame⟩ := runFunctor_ok hstep
      rw [hsame] at hafter
      exact Or.inr ⟨hafter, by rintro _ ⟨⟩⟩
  | enter | poll | storeFlag | swap | endFunctors | endTimer =>
      obtain ⟨-, hstep⟩ := step_byLoopThread rfl hstep
      obtain ⟨-, hstep⟩ := Except.guard_eq_ok.mp hstep
      obtain rfl := Except.ok.inj hstep
      cases hafter

/-- Once set, `quit_` stays set until `loop()` is called again. -/
theorem step_quit (hstep : loop.step action = .ok after) (hentered : loop.point ≠ .entering)
    (hquit : loop.quit = true) : after.quit = true ∧ after.point ≠ .entering := by
  cases hpushes : action.pushes with
  | true =>
      obtain ⟨hpoint, hsame⟩ := step_queueInLoop (.inl hpushes) hstep
      rw [hpoint, hsame]
      exact ⟨hquit, hentered⟩
  | false =>
      rcases step_side hpushes hstep with ⟨-, hentering⟩ | ⟨-, -, rfl⟩ | ⟨-, -, rfl⟩ |
        ⟨hsame, -, -, -, hstays⟩
      · exact absurd hentering hentered
      · refine ⟨hquit, ?_⟩
        rw [hquit]
        exact nofun
      · exact ⟨hquit, nofun⟩
      · exact ⟨hstays hquit, fun hentering => hentered (hsame.mpr hentering)⟩

/-- From the test of a clear `quit_` the loop thread comes back to the test, if nobody
else does anything and `poll` reports nothing. -/
def iteration (loop : EventLoop Fn) : List (Action Fn) :=
  [.test, .poll [], .storeFlag, .swap] ++
    (List.replicate loop.pendingFunctors.length .runFunctor ++ [.endFunctors, .endTimer])

theorem run_batch (hpoint : loop.point = .running) (hidle : loop.queueing = false) :
    run step loop (List.replicate loop.functors.length .runFunctor ++ [.endFunctors, .endTimer]) =
      .ok { loop with functors := [], point := .test } := by
  obtain ⟨count, hcount⟩ : ∃ count, loop.functors.length = count := ⟨_, rfl⟩
  rw [hcount]
  induction count generalizing loop with
  | zero =>
      have hempty := List.length_eq_zero_iff.mp hcount
      simp [step, loopStep, hpoint, hidle, hempty, bind, Except.bind]
  | succ count ih =>
      obtain ⟨head, rest, hfunctors⟩ := List.exists_cons_of_length_eq_add_one hcount
      rw [hfunctors, List.length_cons] at hcount
      rw [List.replicate_succ, List.cons_append, run_cons_eq_ok]
      refine ⟨{ loop with functors := rest }, ?_, ?_⟩
      · simp [step, loopStep, hpoint, hidle, hfunctors]
      · exact ih hpoint hidle (Nat.succ.inj hcount)

theorem run_iteration (hpoint : loop.point = .test) (hidle : loop.queueing = false)
    (hquit : loop.quit = false) : ∃ after, run step loop loop.iteration = .ok after ∧
      after.point = .test ∧ after.queueing = false ∧ after.quit = false := by
  let swapped : EventLoop Fn := { loop with
    callingPendingFunctors := true, functors := loop.pendingFunctors, pendingFunctors := []
    point := .running }
  refine ⟨{ swapped with functors := [], point := .test }, ?_, rfl, hidle, hquit⟩
  have hbatch := run_batch (show swapped.point = .running from rfl) hidle
  refine run_cons_eq_ok.mpr ⟨{ loop with point := .poll }, ?_, run_cons_eq_ok.mpr
    ⟨{ loop with point := .handling [] }, ?_, run_cons_eq_ok.mpr
    ⟨{ loop with callingPendingFunctors := true, point := .swapping }, ?_, run_cons_eq_ok.mpr
    ⟨swapped, ?_, hbatch⟩⟩⟩⟩
  · simp [step, loopStep, hpoint, hidle, hquit]
  · simp [step, loopStep, hidle]
  · simp [step, loopStep, hidle]
  · simp [step, loopStep, hidle, swapped]

/-- The loop thread calls `poll`. -/
def Action.polls : Action Fn → Bool
  | .poll _ => true
  | _ => false

theorem iteration_byLoopThread : ∀ action ∈ loop.iteration, action.byLoopThread = true := by
  simp only [iteration, List.mem_append, List.mem_cons, List.not_mem_nil, or_false,
    List.mem_replicate]
  rintro action ((rfl | rfl | rfl | rfl) | ⟨-, rfl⟩ | rfl | rfl) <;> rfl

theorem iteration_polls : loop.iteration.countP Action.polls = 1 := by
  simp [iteration, Action.polls, List.countP_cons, List.countP_replicate]

/-- As long as nobody calls `quit`, the loop thread polls again and again. -/
theorem run_iterations (hpoint : loop.point = .test) (hidle : loop.queueing = false)
    (hquit : loop.quit = false) (count : Nat) : ∃ schedule after,
      run step loop schedule = .ok after ∧
      (∀ action ∈ schedule, action.byLoopThread = true) ∧
      schedule.countP Action.polls = count := by
  induction count generalizing loop with
  | zero => exact ⟨[], loop, rfl, nofun, rfl⟩
  | succ count ih =>
      obtain ⟨middle, hiteration, hnext⟩ := run_iteration hpoint hidle hquit
      obtain ⟨rest, after, hrest, hthread, hpolls⟩ := ih hnext.1 hnext.2.1 hnext.2.2
      refine ⟨loop.iteration ++ rest, after, ?_, ?_, ?_⟩
      · exact run_append.mpr ⟨middle, hiteration, hrest⟩
      · intro action haction
        rcases List.mem_append.mp haction with hfirst | hlater
        · exact iteration_byLoopThread action hfirst
        · exact hthread action hlater
      · rw [List.countP_append, iteration_polls, hpolls, Nat.add_comm]

end EventLoop

structure EventLoopThread (Fn : Type) where
  /-- `callback_` is set -/
  hasCallback : Bool
  waitStarted : Bool
  /-- `loop_` is not null -/
  published : Bool
  startPoint : StartPoint
  point : ThreadPoint
  loop : EventLoop Fn
  destructorPoint : DestructorPoint

namespace EventLoopThread

variable {Fn : Type}

def create (hasCallback : Bool) : EventLoopThread Fn where
  hasCallback := hasCallback
  waitStarted := false
  published := false
  startPoint := .unstarted
  point := .unstarted
  loop := EventLoop.create
  destructorPoint := .uncalled

inductive Action (Fn : Type) where
  /-- `thread_.start()` -/
  | start
  /-- the critical section of `startLoop` until it returns or waits -/
  | lock
  /-- `cond_.wait` returns, also spuriously -/
  | wake
  | construct
  /-- `callback_` queues a functor -/
  | queueInit (cb : Fn)
  | quitInit
  | endCallback
  /-- `waitStarted_` is set -/
  | seeStarted
  | publish
  /-- the thread takes a step in `loop()` -/
  | loop (action : EventLoop.Action Fn)
  /-- `loop()` has returned -/
  | endLoop
  /-- `loop_=nullptr`, and the loop is destroyed -/
  | clear
  /-- another thread that `startLoop` has given the loop to calls it -/
  | other (action : EventLoop.Action Fn)
  /-- `~EventLoopThread` tests `loop_` -/
  | destructor
  | quitLoop
  | join
  deriving DecidableEq, Repr

/-- The test of `loop_` in `startLoop`. -/
def testLoop (t : EventLoopThread Fn) : EventLoopThread Fn :=
  { t with startPoint := if t.published then .returned else .waiting }

/-- Another thread calls the loop, which is on the stack of the new thread. -/
def callLoop (action : EventLoop.Action Fn) (t : EventLoopThread Fn) :
    Except Stop (EventLoopThread Fn) :=
  if t.point = .ended then .error .undefined
  else do
    let loop ← t.loop.step action
    return { t with loop }

def step (t : EventLoopThread Fn) : Action Fn → Except Stop (EventLoopThread Fn)
  | .start =>
      if t.point = .unstarted ∧ t.destructorPoint = .uncalled then
        .ok { t with startPoint := .locking, point := .constructing }
      else .error .disabled
  | .lock =>
      if t.startPoint = .locking then .ok { t with waitStarted := true }.testLoop
      else .error .disabled
  | .wake => if t.startPoint = .waiting then .ok t.testLoop else .error .disabled
  | .construct =>
      if t.point = .constructing then
        .ok { t with
          loop := EventLoop.create
          point := if t.hasCallback then .callback else .waiting }
      else .error .disabled
  | .queueInit cb =>
      if t.point = .callback then .ok { t with loop := (t.loop.push cb).wakeupIfNeeded true }
      else .error .disabled
  | .quitInit =>
      if t.point = .callback then .ok { t with loop := { t.loop with quit := true } }
      else .error .disabled
  | .endCallback =>
      if t.point = .callback then .ok { t with point := .waiting } else .error .disabled
  | .seeStarted =>
      if t.point = .waiting ∧ t.waitStarted then .ok { t with point := .publishing }
      else .error .disabled
  | .publish =>
      if t.point = .publishing then .ok { t with published := true, point := .looping }
      else .error .disabled
  | .loop action =>
      if t.point = .looping ∧ t.loop.allows action then do
        let loop ← t.loop.step action
        return { t with loop }
      else .error .disabled
  | .endLoop =>
      if t.point = .looping ∧ t.loop.point = .returned then .ok { t with point := .clearing }
      else .error .disabled
  | .clear =>
      if t.point = .clearing then .ok { t with published := false, point := .ended }
      else .error .disabled
  | .other action =>
      if t.startPoint = .returned ∧ action.byOther then t.callLoop action
      else .error .disabled
  | .destructor =>
      if (t.startPoint = .unstarted ∨ t.startPoint = .returned) ∧
          t.destructorPoint = .uncalled then
        .ok { t with destructorPoint := if t.published then .quitting else .ended }
      else .error .disabled
  | .quitLoop =>
      if t.destructorPoint = .quitting then do
        let t ← t.callLoop .quit
        return { t with destructorPoint := .joining }
      else .error .disabled
  | .join =>
      if t.destructorPoint = .joining ∧ t.point = .ended then
        .ok { t with destructorPoint := .ended }
      else .error .disabled

/-- Another thread stores `quit_ = true`. -/
def Action.quits : Action Fn → Bool
  | .other .quit | .quitLoop => true
  | _ => false

/-- The loop thread calls `poll`. -/
def Action.polls : Action Fn → Bool
  | .loop loopAction => loopAction.polls
  | _ => false

/-- The polls of a schedule. -/
def polls (schedule : List (Action Fn)) : Nat := schedule.countP Action.polls

variable {t next : EventLoopThread Fn} {action : Action Fn}

theorem callLoop_ok {loopAction : EventLoop.Action Fn}
    (hcall : t.callLoop loopAction = .ok next) :
    ∃ loop, t.loop.step loopAction = .ok loop ∧ next = { t with loop } := by
  unfold callLoop at hcall
  split at hcall
  next => cases hcall
  next =>
    obtain ⟨loop, hloop, hnext⟩ := Except.bind_eq_ok.mp hcall
    exact ⟨loop, hloop, (Except.ok.inj hnext).symm⟩

/-! ## Publication -/

/-- `loop()` runs between the publication of the loop and its destruction. -/
structure Staged (t : EventLoopThread Fn) : Prop where
  entering : t.point.early = true → t.loop.point = .entering
  unpublished : t.point.early = true → t.published = false
  started : t.point.early = true → t.startPoint ≠ .returned
  destructor : t.point.early = true → t.destructorPoint ≠ .quitting
  returned : t.point = .clearing ∨ t.point = .ended → t.loop.point = .returned
  queueing : t.loop.queueing = true → t.loop.point.inUserCode = true

theorem create_staged (hasCallback : Bool) : (create hasCallback : EventLoopThread Fn).Staged where
  entering := fun _ => rfl
  unpublished := fun _ => rfl
  started := fun _ => nofun
  destructor := fun _ => nofun
  returned := by rintro (h | h) <;> cases h
  queueing := nofun

/-- Another thread that calls the loop has been given it. -/
theorem Staged.call (ht : t.Staged) {loopAction : EventLoop.Action Fn}
    (hother : loopAction.byOther = true) (hlate : t.point.early = false)
    (hcall : t.callLoop loopAction = .ok next) : next.Staged := by
  obtain ⟨loop, hloop, rfl⟩ := callLoop_ok hcall
  obtain ⟨hpoint, -⟩ := EventLoop.step_byOther hother hloop
  constructor
  · exact fun hearly => absurd hearly (by simp [hlate])
  · exact ht.unpublished
  · exact ht.started
  · exact ht.destructor
  · intro hended
    exact hpoint.trans (ht.returned hended)
  · exact EventLoop.step_queueing ht.queueing hloop

/-- A step that leaves the loop alone. -/
theorem Staged.move (ht : t.Staged) (hloop : next.loop = t.loop)
    (hpoint : next.point.early = true → t.point.early = true)
    (hpublished : next.point.early = true → next.published = t.published)
    (hstart : next.startPoint = .returned → t.startPoint = .returned ∨ t.published = true)
    (hdestructor : next.destructorPoint = .quitting →
      t.destructorPoint = .quitting ∨ t.published = true)
    (hended : next.point = .clearing ∨ next.point = .ended → t.loop.point = .returned) :
    next.Staged := by
  constructor
  · rw [hloop]
    exact fun hearly => ht.entering (hpoint hearly)
  · intro hearly
    rw [hpublished hearly]
    exact ht.unpublished (hpoint hearly)
  · intro hearly hreturned
    rcases hstart hreturned with hbefore | hpublic
    · exact ht.started (hpoint hearly) hbefore
    · rw [ht.unpublished (hpoint hearly)] at hpublic
      cases hpublic
  · intro hearly hquitting
    rcases hdestructor hquitting with hbefore | hpublic
    · exact ht.destructor (hpoint hearly) hbefore
    · rw [ht.unpublished (hpoint hearly)] at hpublic
      cases hpublic
  · rw [hloop]
    exact hended
  · rw [hloop]
    exact ht.queueing

theorem testLoop_returned (hreturned : t.testLoop.startPoint = .returned) :
    t.published = true := by
  unfold testLoop at hreturned
  dsimp only at hreturned
  split at hreturned
  next hpublished => exact hpublished
  next => cases hreturned

theorem early_of {point : ThreadPoint} (hpoint : t.point = point) (hearly : point.early = true) :
    t.point.early = true := by
  rw [hpoint]
  exact hearly

theorem step_staged (t : EventLoopThread Fn) (action : Action Fn) (next : EventLoopThread Fn)
    (ht : t.Staged) (hstep : step t action = .ok next) : next.Staged := by
  cases action with
  | start =>
      obtain ⟨⟨hpoint, hdestructor⟩, hstep⟩ := Except.guard_eq_ok.mp hstep
      obtain rfl := Except.ok.inj hstep
      refine ht.move rfl (fun _ => early_of hpoint rfl) (fun _ => rfl) nofun Or.inl ?_
      rintro (h | h) <;> cases h
  | lock | wake =>
      obtain ⟨-, hstep⟩ := Except.guard_eq_ok.mp hstep
      obtain rfl := Except.ok.inj hstep
      exact ht.move rfl id (fun _ => rfl) (fun h => Or.inr (testLoop_returned h)) Or.inl ht.returned
  | construct =>
      obtain ⟨hpoint, hstep⟩ := Except.guard_eq_ok.mp hstep
      obtain rfl := Except.ok.inj hstep
      have hearly := early_of hpoint rfl
      refine ⟨fun _ => rfl, fun _ => ht.unpublished hearly, fun _ => ht.started hearly,
        fun _ => ht.destructor hearly, ?_, nofun⟩
      dsimp only
      split <;> rintro (h | h) <;> cases h
  | queueInit cb =>
      obtain ⟨hpoint, hstep⟩ := Except.guard_eq_ok.mp hstep
      obtain rfl := Except.ok.inj hstep
      have hloop : ((t.loop.push cb).wakeupIfNeeded true).point = t.loop.point ∧
          ((t.loop.push cb).wakeupIfNeeded true).queueing = t.loop.queueing := by
        unfold EventLoop.wakeupIfNeeded
        split <;> exact ⟨rfl, rfl⟩
      refine ⟨?_, ht.unpublished, ht.started, ht.destructor, ?_, ?_⟩
      · exact fun hearly => hloop.1.trans (ht.entering hearly)
      · exact fun hended => hloop.1.trans (ht.returned hended)
      · dsimp only
        rw [hloop.1, hloop.2]
        exact ht.queueing
  | quitInit =>
      obtain ⟨-, hstep⟩ := Except.guard_eq_ok.mp hstep
      obtain rfl := Except.ok.inj hstep
      exact ⟨ht.entering, ht.unpublished, ht.started, ht.destructor, ht.returned, ht.queueing⟩
  | endCallback =>
      obtain ⟨hpoint, hstep⟩ := Except.guard_eq_ok.mp hstep
      obtain rfl := Except.ok.inj hstep
      refine ht.move rfl (fun _ => early_of hpoint rfl) (fun _ => rfl) Or.inl Or.inl ?_
      rintro (h | h) <;> cases h
  | seeStarted =>
      obtain ⟨⟨hpoint, -⟩, hstep⟩ := Except.guard_eq_ok.mp hstep
      obtain rfl := Except.ok.inj hstep
      refine ht.move rfl (fun _ => early_of hpoint rfl) (fun _ => rfl) Or.inl Or.inl ?_
      rintro (h | h) <;> cases h
  | publish =>
      obtain ⟨hpoint, hstep⟩ := Except.guard_eq_ok.mp hstep
      obtain rfl := Except.ok.inj hstep
      refine ht.move rfl nofun nofun Or.inl Or.inl ?_
      rintro (h | h) <;> cases h
  | loop loopAction =>
      obtain ⟨⟨hpoint, -⟩, hstep⟩ := Except.guard_eq_ok.mp hstep
      obtain ⟨loop, hloop, hstep⟩ := Except.bind_eq_ok.mp hstep
      obtain rfl := Except.ok.inj hstep
      have hlate : t.point.early ≠ true := by rw [hpoint]; decide
      refine ⟨fun hearly => absurd hearly hlate, ht.unpublished, ht.started, ht.destructor, ?_,
        EventLoop.step_queueing ht.queueing hloop⟩
      dsimp only
      rw [hpoint]
      rintro (h | h) <;> cases h
  | endLoop =>
      obtain ⟨⟨hpoint, hreturned⟩, hstep⟩ := Except.guard_eq_ok.mp hstep
      obtain rfl := Except.ok.inj hstep
      exact ht.move rfl nofun nofun Or.inl Or.inl fun _ => hreturned
  | clear =>
      obtain ⟨hpoint, hstep⟩ := Except.guard_eq_ok.mp hstep
      obtain rfl := Except.ok.inj hstep
      exact ht.move rfl nofun nofun Or.inl Or.inl fun _ => ht.returned (.inl hpoint)
  | other loopAction =>
      obtain ⟨⟨hstart, hother⟩, hstep⟩ := Except.guard_eq_ok.mp hstep
      apply ht.call hother _ hstep
      exact Bool.eq_false_of_not_eq_true fun hearly => ht.started hearly hstart
  | destructor =>
      obtain ⟨-, hstep⟩ := Except.guard_eq_ok.mp hstep
      obtain rfl := Except.ok.inj hstep
      refine ht.move rfl id (fun _ => rfl) Or.inl ?_ ht.returned
      dsimp only
      split
      next hpublished => exact fun _ => Or.inr hpublished
      next => exact nofun
  | quitLoop =>
      obtain ⟨hquitting, hstep⟩ := Except.guard_eq_ok.mp hstep
      obtain ⟨middle, hcall, hstep⟩ := Except.bind_eq_ok.mp hstep
      obtain rfl := Except.ok.inj hstep
      have hmiddle : middle.Staged := by
        apply ht.call rfl _ hcall
        exact Bool.eq_false_of_not_eq_true fun hearly => ht.destructor hearly hquitting
      exact hmiddle.move rfl id (fun _ => rfl) Or.inl nofun hmiddle.returned
  | join =>
      obtain ⟨-, hstep⟩ := Except.guard_eq_ok.mp hstep
      obtain rfl := Except.ok.inj hstep
      exact ht.move rfl id (fun _ => rfl) Or.inl nofun ht.returned

/-! ## The polls after a quit -/

/-- The thread may begin a poll before it tests `quit_` again. -/
def pollsLeft (t : EventLoopThread Fn) : Nat := if t.loop.point = .poll then 1 else 0

/-- Once `loop()` has been entered, a step changes the loop by a step of the loop only. -/
theorem step_entered (ht : t.Staged) (hentered : t.loop.point ≠ .entering)
    (hstep : step t action = .ok next) :
    (next.loop = t.loop ∧ action.polls = false) ∨
      ∃ loopAction, t.loop.step loopAction = .ok next.loop ∧
        (action.polls = true → ∃ activeChannels, loopAction = .poll activeChannels) := by
  cases action with
  | construct | queueInit | quitInit =>
      obtain ⟨hpoint, -⟩ := Except.guard_eq_ok.mp hstep
      exact absurd (ht.entering (early_of hpoint rfl)) hentered
  | loop loopAction =>
      obtain ⟨-, hstep⟩ := Except.guard_eq_ok.mp hstep
      obtain ⟨loop, hloop, hstep⟩ := Except.bind_eq_ok.mp hstep
      obtain rfl := Except.ok.inj hstep
      refine Or.inr ⟨loopAction, hloop, fun hpolls => ?_⟩
      cases loopAction with
      | poll activeChannels => exact ⟨activeChannels, rfl⟩
      | _ => cases hpolls
  | other loopAction =>
      obtain ⟨-, hstep⟩ := Except.guard_eq_ok.mp hstep
      obtain ⟨loop, hloop, rfl⟩ := callLoop_ok hstep
      exact Or.inr ⟨loopAction, hloop, nofun⟩
  | quitLoop =>
      obtain ⟨-, hstep⟩ := Except.guard_eq_ok.mp hstep
      obtain ⟨middle, hcall, hstep⟩ := Except.bind_eq_ok.mp hstep
      obtain rfl := Except.ok.inj hstep
      obtain ⟨loop, hloop, rfl⟩ := callLoop_ok hcall
      exact Or.inr ⟨.quit, hloop, nofun⟩
  | start | lock | wake | endCallback | seeStarted | publish | endLoop | clear | destructor
  | join =>
      obtain ⟨-, hstep⟩ := Except.guard_eq_ok.mp hstep
      obtain rfl := Except.ok.inj hstep
      exact Or.inl ⟨rfl, rfl⟩

theorem step_pollsLeft (ht : t.Staged) (hentered : t.loop.point ≠ .entering)
    (hquit : t.loop.quit = true) (hstep : step t action = .ok next) :
    next.loop.quit = true ∧ next.loop.point ≠ .entering ∧
      polls [action] + next.pollsLeft ≤ t.pollsLeft := by
  rcases step_entered ht hentered hstep with ⟨hloop, hpolls⟩ | ⟨loopAction, hloop, hpolls⟩
  · simp [polls, pollsLeft, hloop, hpolls, hquit, hentered]
  · obtain ⟨hstays, hinside⟩ := EventLoop.step_quit hloop hentered hquit
    refine ⟨hstays, hinside, ?_⟩
    unfold pollsLeft
    by_cases hnext : next.loop.point = .poll
    · rcases EventLoop.step_poll hloop hnext with ⟨-, hclear⟩ | ⟨hpoint, hother⟩
      · rw [hquit] at hclear
        cases hclear
      · have hnone : action.polls = false := by
          apply Bool.eq_false_of_not_eq_true
          intro htrue
          obtain ⟨activeChannels, hpoll⟩ := hpolls htrue
          exact hother activeChannels hpoll
        simp [polls, hnone, hnext, hpoint]
    · cases haction : action.polls with
      | false => simp [polls, haction, hnext]
      | true =>
          obtain ⟨activeChannels, rfl⟩ := hpolls haction
          obtain ⟨-, hloop⟩ := EventLoop.step_byLoopThread rfl hloop
          obtain ⟨hpoint, -⟩ := Except.guard_eq_ok.mp hloop
          simp [polls, haction, hnext, hpoint]

theorem run_pollsLeft {schedule : List (Action Fn)} {final : EventLoopThread Fn}
    (ht : t.Staged) (hentered : t.loop.point ≠ .entering) (hquit : t.loop.quit = true)
    (hrun : run step t schedule = .ok final) : polls schedule + final.pollsLeft ≤ t.pollsLeft := by
  induction schedule generalizing t with
  | nil =>
      obtain rfl := Except.ok.inj hrun
      exact Nat.le_of_eq (Nat.zero_add _)
  | cons action rest ih =>
      obtain ⟨middle, hstep, hrest⟩ := run_cons_eq_ok.mp hrun
      have hmiddle := step_staged t action middle ht hstep
      obtain ⟨hstays, hinside, hhead⟩ := step_pollsLeft ht hentered hquit hstep
      have htail := ih hmiddle hinside hstays hrest
      have hsplit : polls (action :: rest) = polls [action] + polls rest := by
        simp [polls, List.countP_cons, Nat.add_comm]
      omega

/-- A `quit` of another thread stores the flag and moves nobody. -/
theorem quits_ok (ht : t.Staged) (hquits : action.quits = true)
    (hstep : step t action = .ok next) :
    t.point.early = false ∧ next.loop = { t.loop with quit := true } ∧ next.point = t.point := by
  cases action with
  | other loopAction =>
      cases loopAction with
      | quit =>
          obtain ⟨⟨hstart, -⟩, hstep⟩ := Except.guard_eq_ok.mp hstep
          obtain ⟨loop, hloop, rfl⟩ := callLoop_ok hstep
          obtain rfl := Except.ok.inj hloop
          refine ⟨Bool.eq_false_of_not_eq_true fun hearly => ?_, rfl, rfl⟩
          exact ht.started hearly hstart
      | _ => cases hquits
  | quitLoop =>
      obtain ⟨hquitting, hstep⟩ := Except.guard_eq_ok.mp hstep
      obtain ⟨middle, hcall, hstep⟩ := Except.bind_eq_ok.mp hstep
      obtain rfl := Except.ok.inj hstep
      obtain ⟨loop, hloop, rfl⟩ := callLoop_ok hcall
      obtain rfl := Except.ok.inj hloop
      refine ⟨Bool.eq_false_of_not_eq_true fun hearly => ?_, rfl, rfl⟩
      exact ht.destructor hearly hquitting
  | _ => cases hquits

/-! ## A quit before `loop()` -/

/-- The thread alone can take the steps of its loop. -/
theorem run_loop {schedule : List (EventLoop.Action Fn)} {loop : EventLoop Fn}
    (hpoint : t.point = .looping)
    (hthread : ∀ loopAction ∈ schedule, loopAction.byLoopThread = true)
    (hrun : run EventLoop.step t.loop schedule = .ok loop) :
    run step t (schedule.map .loop) = .ok { t with loop } := by
  induction schedule generalizing t with
  | nil =>
      obtain rfl := Except.ok.inj hrun
      rfl
  | cons loopAction rest ih =>
      obtain ⟨middle, hstep, hrest⟩ := run_cons_eq_ok.mp hrun
      have hallowed : t.loop.allows loopAction = true := by
        have hthis := hthread loopAction List.mem_cons_self
        cases loopAction <;> first | rfl | cases hthis
      refine run_cons_eq_ok.mpr ⟨{ t with loop := middle }, ?_, ?_⟩
      · simp [step, hpoint, hallowed, hstep, bind, Except.bind, pure, Except.pure]
      · refine ih (t := { t with loop := middle }) hpoint ?_ hrest
        exact fun other hother => hthread other (List.mem_cons_of_mem _ hother)

/-- If nobody calls `quit` again, the thread polls for ever. -/
theorem run_lost (hpoint : t.point = .looping) (hentering : t.loop.point = .entering)
    (hidle : t.loop.queueing = false) (count : Nat) : ∃ continuation final,
      run step t continuation = .ok final ∧ polls continuation = count := by
  let entered : EventLoop Fn := { t.loop with quit := false, point := .test }
  obtain ⟨schedule, after, hrun, hthread, hpolls⟩ :=
    EventLoop.run_iterations (show entered.point = .test from rfl) hidle rfl count
  have henter : t.loop.step .enter = .ok entered := by
    simp [EventLoop.step, EventLoop.loopStep, hidle, hentering, entered]
  refine ⟨(.enter :: schedule).map .loop, { t with loop := after }, ?_, ?_⟩
  · apply run_loop hpoint
    · intro loopAction hmem
      rcases List.mem_cons.mp hmem with rfl | hlater
      · rfl
      · exact hthread loopAction hlater
    · exact run_cons_eq_ok.mpr ⟨entered, henter, hrun⟩
  · unfold polls
    rw [List.countP_map, List.countP_cons_of_neg (by simp [Action.polls, EventLoop.Action.polls])]
    exact hpolls

/-- After a `quit` of another thread, in whatever state the thread is, it begins at
most one further poll in every continuation if and only if `loop()` has stored
`quit_ = false`. -/
theorem quit_obeyed_iff {hasCallback : Bool} {schedule : List (Action Fn)}
    (hrun : run step (create hasCallback) schedule = .ok t) (hquits : action.quits = true)
    (hstep : step t action = .ok next) :
    (∀ continuation final, run step next continuation = .ok final → polls continuation ≤ 1) ↔
      t.loop.point ≠ .entering := by
  have ht := run_invariant step_staged (create_staged hasCallback) hrun
  have hnext := step_staged t action next ht hstep
  obtain ⟨hlate, hloop, hpoint⟩ := quits_ok ht hquits hstep
  constructor
  · intro hobeyed hentering
    have hlooping : t.point = .looping := by
      have hreturned := ht.returned
      rw [hentering] at hreturned
      cases hthis : t.point <;> simp [hthis] at hreturned hlate ⊢ <;> cases hlate
    have hidle : t.loop.queueing = false := by
      apply Bool.eq_false_of_not_eq_true
      intro hqueueing
      have huser := ht.queueing hqueueing
      rw [hentering] at huser
      cases huser
    obtain ⟨continuation, final, hlost, hpolls⟩ := run_lost (t := next)
      (hpoint.trans hlooping) (by rw [hloop]; exact hentering) (by rw [hloop]; exact hidle) 2
    have hbound := hobeyed continuation final hlost
    omega
  · intro hentered continuation final hcontinue
    have hbound := run_pollsLeft hnext (by rw [hloop]; exact hentered) (by rw [hloop]) hcontinue
    have hleft : next.pollsLeft ≤ 1 := by
      unfold pollsLeft
      split <;> decide
    omega

/-- `startLoop` returns as soon as the loop is published. -/
def started : List (Action Nat) :=
  [.start, .construct, .queueInit 5, .endCallback, .lock, .seeStarted, .publish, .wake]

/-- The quit comes while the thread polls. -/
theorem quit_obeyed_iff_polling : ∃ t next,
    run step (create true) (started ++ [.loop .enter, .loop .test]) = .ok t ∧
    step t (.other .quit) = .ok next ∧
    ∀ continuation final, run step next continuation = .ok final → polls continuation ≤ 1 := by
  have hends : ends (fun t => ends (fun _ => decide (t.loop.point ≠ .entering))
      (step t (.other .quit)))
      (run step (create true) (started ++ [.loop .enter, .loop .test])) = true := by decide
  obtain ⟨t, hrun, hcheck⟩ := exists_of_ends hends
  obtain ⟨next, hstep, hentered⟩ := exists_of_ends hcheck
  exact ⟨t, next, hrun, hstep,
    (quit_obeyed_iff hrun rfl hstep).mpr (of_decide_eq_true hentered)⟩

/-- `loop()` begins after the quit. -/
def pollTwice : List (Action Nat) :=
  [.loop .enter, .loop .test, .loop (.poll []), .loop .storeFlag, .loop .swap,
    .loop .runFunctor, .loop .endFunctors, .loop .endTimer, .loop .test, .loop (.poll [])]

/-- A quit before `loop()` is lost. -/
theorem quit_obeyed_false : ¬ ∀ (hasCallback : Bool) (schedule : List (Action Nat))
    (t : EventLoopThread Nat) (action : Action Nat) (next : EventLoopThread Nat)
    (continuation : List (Action Nat)) (final : EventLoopThread Nat),
    run step (create hasCallback) schedule = .ok t → action.quits = true →
    step t action = .ok next → run step next continuation = .ok final →
    polls continuation ≤ 1 := by
  intro hobeyed
  have hends : ends (fun t => ends (fun next => ends (fun _ => true) (run step next pollTwice))
      (step t (.other .quit))) (run step (create true) started) = true := by decide
  obtain ⟨t, hrun, hcheck⟩ := exists_of_ends hends
  obtain ⟨next, hstep, hcheck⟩ := exists_of_ends hcheck
  obtain ⟨final, hcontinue, -⟩ := exists_of_ends hcheck
  have hbound := hobeyed true started t (.other .quit) next pollTwice final hrun rfl hstep
    hcontinue
  exact absurd hbound (by decide)

end EventLoopThread

end Muduo
