import Muduo.EventLoop.Journal

/-! # Queued functors run once, in order, in finite batches

What has been executed, the rest of the batch and the queue make up all pushes in
lock order, and the pushes of one thread are its calls in call order. A batch is
fixed by its swap: whatever is queued while it runs, by functors of the batch or
by other threads, waits for the next one.
-/

open Transition

namespace Muduo

namespace EventLoop

variable {Fn : Type} {loop after : EventLoop Fn} {action : Action Fn}

/-- A step of the loop thread is not taken inside `queueInLoop`. -/
theorem step_byLoopThread (haction : action.byLoopThread = true)
    (hstep : loop.step action = .ok after) :
    loop.queueing = false ∧ loop.loopStep action = .ok after := by
  have hguarded : loop.step action =
      if loop.queueing then .error .disabled else loop.loopStep action := by
    cases action <;> first | rfl | cases haction
  rw [hguarded] at hstep
  split at hstep
  next => cases hstep
  next hidle => exact ⟨Bool.eq_false_of_not_eq_true hidle, hstep⟩

/-- What a step does to the functors: it starts the first one of the batch, swaps
the batch with the queue, or leaves both alone. Then the batch goes on, unless
`doPendingFunctors` returns from an empty one. -/
theorem step_functors (hpushes : action.pushes = false) (hstep : loop.step action = .ok after) :
    (action = .runFunctor ∧ loop.point = .running ∧ after.point = .running ∧
      ∃ head, loop.functors = head :: after.functors ∧
        after.pendingFunctors = loop.pendingFunctors) ∨
    (action = .swap ∧ loop.point = .swapping ∧ after.point = .running ∧
      after.functors = loop.pendingFunctors ∧ after.pendingFunctors = []) ∨
    (loop.started action = [] ∧ after.functors = loop.functors ∧
      after.pendingFunctors = loop.pendingFunctors ∧
      (after.point = .running ↔ loop.point = .running ∧ action ≠ .endFunctors) ∧
      (action = .endFunctors → loop.functors = [] ∧ after.point = .timer)) := by
  cases action with
  | queueInLoop cb => cases hpushes
  | queueFrom thread cb => cases hpushes
  | runFunctor =>
      obtain ⟨-, hstep⟩ := step_byLoopThread rfl hstep
      obtain ⟨hpoint, head, hfunctors, hafter⟩ := runFunctor_ok hstep
      have hsame : after.pendingFunctors = loop.pendingFunctors := by rw [hafter]
      have hstays : after.point = loop.point := by rw [hafter]
      exact Or.inl ⟨rfl, hpoint, hstays.trans hpoint, head, hfunctors, hsame⟩
  | swap =>
      obtain ⟨-, hstep⟩ := step_byLoopThread rfl hstep
      obtain ⟨hpoint, hstep⟩ := Except.guard_eq_ok.mp hstep
      obtain rfl := Except.ok.inj hstep
      exact Or.inr (Or.inl ⟨rfl, hpoint, rfl, rfl, rfl⟩)
  | endFunctors =>
      obtain ⟨-, hstep⟩ := step_byLoopThread rfl hstep
      obtain ⟨⟨hpoint, hempty⟩, hstep⟩ := Except.guard_eq_ok.mp hstep
      obtain rfl := Except.ok.inj hstep
      refine Or.inr (Or.inr ⟨rfl, rfl, rfl, by simp, fun _ => ⟨?_, rfl⟩⟩)
      exact List.isEmpty_iff.mp hempty
  | handleEvent =>
      obtain ⟨-, hstep⟩ := step_byLoopThread rfl hstep
      obtain ⟨handler, rest, hpoint, rfl⟩ := handleEvent_ok hstep
      exact Or.inr (Or.inr ⟨rfl, rfl, rfl, by simp [hpoint], by rintro ⟨⟩⟩)
  | test =>
      obtain ⟨-, hstep⟩ := step_byLoopThread rfl hstep
      obtain ⟨hpoint, hstep⟩ := Except.guard_eq_ok.mp hstep
      obtain rfl := Except.ok.inj hstep
      refine Or.inr (Or.inr ⟨rfl, rfl, rfl, ?_, by rintro ⟨⟩⟩)
      cases hquit : loop.quit <;> simp [hpoint]
  | enter | poll | storeFlag | endTimer =>
      obtain ⟨-, hstep⟩ := step_byLoopThread rfl hstep
      obtain ⟨hpoint, hstep⟩ := Except.guard_eq_ok.mp hstep
      obtain rfl := Except.ok.inj hstep
      exact Or.inr (Or.inr ⟨rfl, rfl, rfl, by simp [hpoint], by rintro ⟨⟩⟩)
  | wakeupIfNeeded =>
      obtain ⟨-, hstep⟩ := Except.guard_eq_ok.mp hstep
      obtain rfl := Except.ok.inj hstep
      refine Or.inr (Or.inr ⟨rfl, ?_⟩)
      unfold wakeupIfNeeded
      split <;> simp [wakeup]
  | wakeupFrom thread =>
      obtain ⟨-, hstep⟩ := Except.guard_eq_ok.mp hstep
      obtain rfl := Except.ok.inj hstep
      exact Or.inr (Or.inr ⟨rfl, rfl, rfl, by simp [wakeupIfNeeded, wakeup], by rintro ⟨⟩⟩)
  | quit | wakeup =>
      obtain rfl := Except.ok.inj hstep
      exact Or.inr (Or.inr ⟨rfl, rfl, rfl, by simp [wakeup], by rintro ⟨⟩⟩)

end EventLoop

namespace Journal

variable {Fn : Type} {j next : Journal Fn} {action : Action Fn}

/-- Which functors are executed when, in terms of calls and pushes. -/
structure Ordered (j : Journal Fn) : Prop where
  conserved : j.executed ++ j.batch ++ j.queue = j.pushed
  caller : ∀ caller call, j.pushing caller = some call → call.caller = caller
  perThread : ∀ caller,
    j.pushed.filter (·.caller = caller) ++ (j.pushing caller).toList = j.calls caller
  batchless : j.loop.point ≠ .running → j.loop.functors = []

theorem create_ordered : (create : Journal Fn).Ordered where
  conserved := rfl
  caller := nofun
  perThread := fun _ => rfl
  batchless := fun _ => rfl

@[simp] theorem push_functors (call : Call Fn) (loop : EventLoop (Call Fn)) :
    (push call loop).functors = loop.functors := by
  unfold push
  split <;> rfl

@[simp] theorem push_point (call : Call Fn) (loop : EventLoop (Call Fn)) :
    (push call loop).point = loop.point := by
  unfold push
  split <;> rfl

@[simp] theorem push_pendingFunctors (call : Call Fn) (loop : EventLoop (Call Fn)) :
    (push call loop).pendingFunctors = loop.pendingFunctors ++ [⟨call, true⟩] := by
  unfold push
  split <;> rfl

/-- The critical section appends to the queue and does nothing else to functors. -/
theorem push_ok {caller : Option ThreadId} (hstep : step j (.push caller) = .ok next) :
    ∃ call, j.pushing caller = some call ∧ next.loop = push call j.loop ∧
      next.pushed = j.pushed ++ [call] ∧ next.executed = j.executed ∧
      next.batch = j.batch ∧ next.queue = j.queue ++ [call] ∧ next.calls = j.calls ∧
      next.pushing = Function.update j.pushing caller none ∧ next.promised = j.promised := by
  simp only [step] at hstep
  split at hstep
  next call hcall =>
    obtain rfl := Except.ok.inj hstep
    exact ⟨call, hcall, rfl, rfl, rfl, by simp [batch], by simp [queue], rfl, rfl, rfl⟩
  next => cases hstep

/-- A step of the loop records the functor it starts. -/
theorem loop_ok {loopAction : EventLoop.Action (Call Fn)}
    (hstep : step j (.step loopAction) = .ok next) :
    loopAction.pushes = false ∧ j.loop.step loopAction = .ok next.loop ∧
      next.executed = j.executed ++ j.loop.started loopAction ∧
      next.promised = j.promises loopAction ∧ next.calls = j.calls ∧
      next.pushing = j.pushing ∧ next.pushed = j.pushed := by
  obtain ⟨⟨hpushes, -⟩, hstep⟩ := Except.guard_eq_ok.mp hstep
  obtain ⟨loop, hloop, hstep⟩ := Except.bind_eq_ok.mp hstep
  obtain rfl := Except.ok.inj hstep
  exact ⟨hpushes, hloop, rfl, rfl, rfl, rfl, rfl⟩

/-- A functor moves from the batch to the executed ones, the queue becomes the
batch, or nothing moves. -/
theorem loop_conserves {loopAction : EventLoop.Action (Call Fn)}
    (hbatchless : j.loop.point ≠ .running → j.loop.functors = [])
    (hstep : step j (.step loopAction) = .ok next) :
    next.executed ++ next.batch ++ next.queue = j.executed ++ j.batch ++ j.queue ∧
      (next.loop.point ≠ .running → next.loop.functors = []) := by
  obtain ⟨hpushes, hloop, hexecuted, -⟩ := loop_ok hstep
  unfold batch queue
  rw [hexecuted]
  rcases EventLoop.step_functors hpushes hloop with ⟨rfl, hpoint, hnext, head, hhead, hpending⟩ |
    ⟨rfl, hpoint, hnext, hfunctors, hpending⟩ | ⟨hstarted, hfunctors, hpending, hrunning, hend⟩
  · refine ⟨?_, fun hother => absurd hnext hother⟩
    simp [EventLoop.started, hhead, hpending]
  · have hempty : j.loop.functors = [] := hbatchless (by rw [hpoint]; decide)
    refine ⟨?_, fun hother => absurd hnext hother⟩
    simp [EventLoop.started, hfunctors, hpending, hempty]
  · refine ⟨by rw [hstarted, hfunctors, hpending, List.append_nil], fun hother => ?_⟩
    rw [hfunctors]
    by_cases hbefore : j.loop.point = .running
    · by_cases hends : loopAction = .endFunctors
      · exact (hend hends).1
      · exact absurd (hrunning.mpr ⟨hbefore, hends⟩) hother
    · exact hbatchless hbefore

theorem step_ordered (j : Journal Fn) (action : Action Fn) (next : Journal Fn)
    (hj : j.Ordered) (hstep : step j action = .ok next) : next.Ordered := by
  cases action with
  | call caller cb =>
      obtain ⟨hcan, hstep⟩ := Except.guard_eq_ok.mp hstep
      obtain rfl := Except.ok.inj hstep
      have hnone : j.pushing caller = none := by
        simp only [canCall, Bool.and_eq_true] at hcan
        exact Option.isNone_iff_eq_none.mp hcan.1.1
      refine ⟨hj.conserved, fun other call hcall => ?_, fun other => ?_, hj.batchless⟩
      · by_cases hother : other = caller
        · subst hother
          simp only [Function.update_self, Option.some.injEq] at hcall
          rw [← hcall]
        · simp only [Function.update_of_ne hother] at hcall
          exact hj.caller other call hcall
      · by_cases hother : other = caller
        · subst hother
          have hbefore := hj.perThread other
          rw [hnone, Option.toList_none, List.append_nil] at hbefore
          simp [hbefore]
        · simp only [Function.update_of_ne hother]
          exact hj.perThread other
  | push caller =>
      obtain ⟨call, hcall, hloop, hpushed, hexecuted, hbatch, hqueue, hcalls, hpushing, -⟩ :=
        push_ok hstep
      refine ⟨?_, fun other pending hpending => ?_, fun other => ?_, ?_⟩
      · rw [hexecuted, hbatch, hqueue, hpushed, ← List.append_assoc, hj.conserved]
      · rw [hpushing] at hpending
        by_cases hother : other = caller
        · rw [hother, Function.update_self] at hpending
          cases hpending
        · rw [Function.update_of_ne hother] at hpending
          exact hj.caller other pending hpending
      · have hcaller := hj.caller caller call hcall
        have hbefore := hj.perThread other
        rw [hpushed, hpushing, hcalls, List.filter_append]
        by_cases hother : other = caller
        · subst hother
          rw [hcall] at hbefore
          simpa [hcaller] using hbefore
        · have hskip : call.caller ≠ other := fun heq => hother (heq.symm.trans hcaller)
          simpa [hskip, Function.update_of_ne hother] using hbefore
      · rw [hloop, push_point, push_functors]
        exact hj.batchless
  | step loopAction =>
      obtain ⟨hconserves, hbatchless⟩ := loop_conserves hj.batchless hstep
      obtain ⟨-, -, -, -, hcalls, hpushing, hpushed⟩ := loop_ok hstep
      refine ⟨?_, ?_, ?_, hbatchless⟩
      · rw [hconserves, hpushed, hj.conserved]
      · rw [hpushing]
        exact hj.caller
      · rw [hpushing, hpushed, hcalls]
        exact hj.perThread
  | again =>
      obtain ⟨⟨hpoint, -⟩, hstep⟩ := Except.guard_eq_ok.mp hstep
      obtain rfl := Except.ok.inj hstep
      refine ⟨hj.conserved, hj.caller, hj.perThread, fun _ => ?_⟩
      exact hj.batchless (by rw [hpoint]; decide)

/-! ## One batch -/

/-- While a batch runs, the executed functors and the rest of the batch are what
had been executed before and the queue at the swap. -/
structure Within (before : List (Call Fn)) (swapped : List (Call Fn)) (j : Journal Fn) :
    Prop where
  running : j.loop.point = .running
  conserved : j.executed ++ j.batch = before ++ swapped

theorem step_within {before swapped : List (Call Fn)} (hj : j.Within before swapped)
    (hinside : ∀ loopAction, action = .step loopAction → loopAction ≠ .endFunctors)
    (hstep : step j action = .ok next) : next.Within before swapped := by
  cases action with
  | call caller cb =>
      obtain ⟨-, hstep⟩ := Except.guard_eq_ok.mp hstep
      obtain rfl := Except.ok.inj hstep
      exact ⟨hj.running, hj.conserved⟩
  | push caller =>
      obtain ⟨call, -, hloop, -, hexecuted, hbatch, -⟩ := push_ok hstep
      refine ⟨by rw [hloop, push_point]; exact hj.running, ?_⟩
      rw [hexecuted, hbatch]
      exact hj.conserved
  | step loopAction =>
      obtain ⟨hpushes, hloop, hexecuted, -⟩ := loop_ok hstep
      have hconserved := hj.conserved
      unfold batch at hconserved
      rcases EventLoop.step_functors hpushes hloop with ⟨rfl, -, hnext, head, hhead, -⟩ |
        ⟨rfl, hpoint, -⟩ | ⟨hstarted, hfunctors, -, hrunning, -⟩
      · refine ⟨hnext, ?_⟩
        rw [hexecuted, ← hconserved, batch]
        simp [EventLoop.started, hhead]
      · rw [hj.running] at hpoint
        cases hpoint
      · refine ⟨hrunning.mpr ⟨hj.running, hinside _ rfl⟩, ?_⟩
        rw [hexecuted, hstarted, List.append_nil, batch, hfunctors, hconserved]
  | again =>
      obtain ⟨⟨hpoint, -⟩, -⟩ := Except.guard_eq_ok.mp hstep
      rw [hj.running] at hpoint
      cases hpoint

theorem run_within {before swapped : List (Call Fn)} {schedule : List (Action Fn)}
    {final : Journal Fn} (hj : j.Within before swapped)
    (hinside : Action.step .endFunctors ∉ schedule) (hrun : run step j schedule = .ok final) :
    final.Within before swapped := by
  induction schedule generalizing j with
  | nil =>
      obtain rfl := Except.ok.inj hrun
      exact hj
  | cons action rest ih =>
      obtain ⟨middle, hstep, hrest⟩ := run_cons_eq_ok.mp hrun
      rw [List.mem_cons, not_or] at hinside
      refine ih (step_within hj ?_ hstep) hinside.2 hrest
      rintro loopAction rfl rfl
      exact hinside.1 rfl

/-- The swap begins a batch with the whole queue. -/
theorem swap_within (hstep : step j (.step .swap) = .ok next) :
    next.Within j.executed j.queue := by
  obtain ⟨-, hloop, hexecuted, -⟩ := loop_ok hstep
  obtain ⟨-, hloop⟩ := EventLoop.step_byLoopThread rfl hloop
  obtain ⟨-, hloop⟩ := Except.guard_eq_ok.mp hloop
  have hnext := Except.ok.inj hloop
  refine ⟨by rw [← hnext], ?_⟩
  rw [hexecuted, batch, ← hnext]
  simp [EventLoop.started, queue]

/-- `doPendingFunctors` returns when the batch is empty. -/
theorem end_within {before swapped : List (Call Fn)} (hj : j.Within before swapped)
    (hstep : step j (.step .endFunctors) = .ok next) :
    next.executed = before ++ swapped ∧ next.loop.point = .timer := by
  obtain ⟨hpushes, hloop, hexecuted, -⟩ := loop_ok hstep
  rcases EventLoop.step_functors hpushes hloop with ⟨hother, -⟩ | ⟨hother, -⟩ |
    ⟨-, -, -, -, hend⟩
  · cases hother
  · cases hother
  · obtain ⟨hempty, hpoint⟩ := hend rfl
    have hconserved := hj.conserved
    rw [batch, hempty, List.map_nil, List.append_nil] at hconserved
    rw [hexecuted, hconserved]
    exact ⟨List.append_nil _, hpoint⟩

/-- The steps of the loop thread that end its call of `queueInLoop` and the batch. -/
def drain (j : Journal Fn) : List (Action Fn) :=
  (if (j.pushing none).isSome then [.push none] else []) ++
    (if (j.pushing none).isSome || j.loop.queueing then [.step .wakeupIfNeeded] else []) ++
    (List.replicate j.batch.length (.step .runFunctor) ++ [.step .endFunctors])

theorem run_functors (hpoint : j.loop.point = .running) (hqueueing : j.loop.queueing = false)
    (hpushing : j.pushing none = none) :
    ∃ ended, run step j (List.replicate j.batch.length (.step .runFunctor) ++
      [.step .endFunctors]) = .ok ended := by
  obtain ⟨count, hcount⟩ : ∃ count, j.loop.functors.length = count := ⟨_, rfl⟩
  rw [batch, List.length_map, hcount]
  induction count generalizing j with
  | zero =>
      have hempty := List.length_eq_zero_iff.mp hcount
      refine ⟨{ j with
        loop := { j.loop with point := .timer }
        executed := j.executed ++ []
        promised := j.promised }, ?_⟩
      simp [step, EventLoop.step, EventLoop.loopStep, hpushing, hqueueing, hpoint, hempty,
        EventLoop.Action.pushes, EventLoop.started, promises, bind, Except.bind, pure, Except.pure]
  | succ count ih =>
      obtain ⟨head, rest, hfunctors⟩ := List.exists_cons_of_length_eq_add_one hcount
      obtain ⟨middle, hmiddle⟩ : ∃ middle, step j (.step .runFunctor) = .ok middle ∧
          middle.loop = { j.loop with functors := rest } ∧ middle.pushing = j.pushing := by
        refine ⟨{ j with
          loop := { j.loop with functors := rest }
          executed := j.executed ++ [head.functor] }, ?_, rfl, rfl⟩
        simp [step, EventLoop.step, EventLoop.loopStep, hpushing, hqueueing, hpoint, hfunctors,
          EventLoop.Action.pushes, EventLoop.started, promises, bind, Except.bind, pure,
          Except.pure]
      obtain ⟨hstep, hloop, hsame⟩ := hmiddle
      have hrest : middle.loop.functors.length = count := by
        rw [hloop]
        rw [hfunctors, List.length_cons] at hcount
        exact Nat.succ.inj hcount
      obtain ⟨ended, hrun⟩ := ih (by rw [hloop]; exact hpoint) (by rw [hloop]; exact hqueueing)
        (by rw [hsame]; exact hpushing) hrest
      exact ⟨ended, run_cons_eq_ok.mpr ⟨middle, hstep, hrun⟩⟩

/-- The end of `queueInLoop` on the loop thread. -/
theorem wakeupIfNeeded_ok (hqueueing : j.loop.queueing = true) :
    ∃ next, step j (.step .wakeupIfNeeded) = .ok next ∧ next.loop.queueing = false ∧
      next.loop.point = j.loop.point ∧ next.batch = j.batch ∧ next.pushing = j.pushing := by
  refine ⟨{ j with
    loop := { j.loop.wakeupIfNeeded true with queueing := false }
    executed := j.executed ++ [] }, ?_, rfl, ?_, ?_, rfl⟩
  · simp [step, EventLoop.step, hqueueing, EventLoop.Action.pushes, EventLoop.Action.byLoopThread,
      EventLoop.started, promises, bind, Except.bind, pure, Except.pure]
  · unfold EventLoop.wakeupIfNeeded
    split <;> rfl
  · unfold batch EventLoop.wakeupIfNeeded
    split <;> rfl

/-- Once a batch runs, the loop thread ends it with a number of steps that its
length bounds. -/
theorem run_drain (hj : j.Ordered) (hpoint : j.loop.point = .running) :
    ∃ ended, run step j j.drain = .ok ended := by
  unfold drain
  cases hpushing : j.pushing none with
  | some call =>
      have hcaller := hj.caller none call hpushing
      obtain ⟨pushed, hpush⟩ : ∃ pushed, step j (.push none) = .ok pushed := by
        simp [step, hpushing]
      obtain ⟨other, hother, hloop, -, -, hbatch, -, -, hnone, -⟩ := push_ok hpush
      rw [hpushing, Option.some.injEq] at hother
      subst hother
      have hqueueing : pushed.loop.queueing = true := by
        rw [hloop, push, hcaller]
      obtain ⟨woken, hwake, hidle, hsame, hkept, hstill⟩ := wakeupIfNeeded_ok hqueueing
      obtain ⟨ended, hended⟩ := run_functors (j := woken)
        (by rw [hsame, hloop, push_point, hpoint]) hidle
        (by rw [hstill, hnone, Function.update_self])
      rw [hkept, hbatch] at hended
      exact ⟨ended, run_cons_eq_ok.mpr ⟨pushed, hpush,
        run_cons_eq_ok.mpr ⟨woken, hwake, hended⟩⟩⟩
  | none =>
      cases hqueueing : j.loop.queueing with
      | true =>
          obtain ⟨woken, hwake, hidle, hsame, hkept, hstill⟩ := wakeupIfNeeded_ok hqueueing
          obtain ⟨ended, hended⟩ := run_functors (j := woken) (hsame.trans hpoint) hidle
            (by rw [hstill, hpushing])
          rw [hkept] at hended
          exact ⟨ended, run_cons_eq_ok.mpr ⟨woken, hwake, hended⟩⟩
      | false => exact run_functors hpoint hqueueing hpushing

/-! ## Whole runs -/

/-- In every state reached, what has been executed, the rest of the batch and the
queue make up the pushes in lock order, and each thread's functors are executed in
the order of its calls. From a swap on until `doPendingFunctors` returns, exactly
the functors of the queue at the swap are executed, and the loop thread can return
from it with a bounded number of steps of its own. -/
theorem queued_functors_fifo {schedule : List (Action Fn)}
    (hrun : run step create schedule = .ok j) :
    j.executed ++ j.batch ++ j.queue = j.pushed ∧
      (∀ caller, j.executed.filter (·.caller = caller) <+: j.calls caller) ∧
      ∀ inside during, run step j (.step .swap :: inside) = .ok during →
        Action.step .endFunctors ∉ inside →
        during.executed ++ during.batch = j.executed ++ j.queue ∧
          (∃ ended, run step during during.drain = .ok ended) ∧
          ∀ ended, step during (.step .endFunctors) = .ok ended →
            ended.executed = j.executed ++ j.queue ∧ ended.loop.point = .timer := by
  have hj := run_invariant step_ordered create_ordered hrun
  refine ⟨hj.conserved, fun caller => ?_, fun inside during hbatch hinside => ?_⟩
  · have hpushed : j.executed.filter (·.caller = caller) <+:
        j.pushed.filter (·.caller = caller) := by
      rw [← hj.conserved, List.append_assoc, List.filter_append]
      exact List.prefix_append _ _
    apply hpushed.trans
    rw [← hj.perThread caller]
    exact List.prefix_append _ _
  · have hduring := run_invariant step_ordered hj hbatch
    obtain ⟨swapped, hswap, hrest⟩ := run_cons_eq_ok.mp hbatch
    have hwithin := run_within (swap_within hswap) hinside hrest
    exact ⟨hwithin.conserved, run_drain hduring hwithin.running,
      fun ended hended => end_within hwithin hended⟩

/-- A functor of the batch queues another one, and so does another thread. -/
def requeue : List (Action Nat) :=
  [.step .enter, .call (some 3) 7, .push (some 3), .step (.wakeupFrom 3), .step .test,
    .step (.poll [.wakeup]), .step .handleEvent, .step .storeFlag]

/-- What happens from the swap on. -/
def requeueInside : List (Action Nat) :=
  [.step .runFunctor, .call none 8, .call (some 3) 9, .push (some 3), .push none,
    .step .wakeupIfNeeded]

theorem queued_functors_fifo_requeue : ∃ j during, run step create requeue = .ok j ∧
    run step j (.step .swap :: requeueInside) = .ok during ∧
    during.executed ++ during.batch = j.executed ++ j.queue ∧
    during.queue = [⟨some 3, 1, 9⟩, ⟨none, 0, 8⟩] := by
  have hends : ends (fun j => ends (fun during => decide
      (during.queue = [⟨some 3, 1, 9⟩, ⟨none, 0, 8⟩]))
      (run step j (.step .swap :: requeueInside))) (run step create requeue) = true := by
    decide
  obtain ⟨j, hrun, hcheck⟩ := exists_of_ends hends
  obtain ⟨during, hduring, hqueue⟩ := exists_of_ends hcheck
  have hinside : Action.step .endFunctors ∉ requeueInside := by simp [requeueInside]
  obtain ⟨hexecuted, -⟩ :=
    (queued_functors_fifo hrun).2.2 requeueInside during hduring hinside
  exact ⟨j, during, hrun, hduring, hexecuted, of_decide_eq_true hqueue⟩

end Journal

end Muduo
