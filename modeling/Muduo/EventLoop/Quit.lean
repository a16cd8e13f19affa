import Muduo.EventLoop.Batches
import Muduo.TcpConnection.Basic

/-! # Which functors a quit leaves behind

`loop()` tests `quit_` once in an iteration, after the functors of the iteration
have run. A functor whose call of `queueInLoop` has returned before a `quit` is
executed as long as a swap comes between the two and the test. A `quit` between
the swap and the test leaves the whole queue behind.
-/

open Transition

namespace Muduo

/-- The swap of the iteration is over, and the test of `quit_` is ahead. -/
def ProgramPoint.swapped : ProgramPoint → Bool
  | .running | .timer | .test => true
  | _ => false

/-- The swap of the iteration is ahead. -/
def ProgramPoint.beforeSwap : ProgramPoint → Bool
  | .poll | .handling _ | .swapping => true
  | _ => false

/-- Inside `loop()` the swap is ahead or over. -/
theorem ProgramPoint.beforeSwap_of_inside {point : ProgramPoint} (hentered : point ≠ .entering)
    (hrunning : point ≠ .returned) (hswapped : point.swapped = false) :
    point.beforeSwap = true := by
  cases point with
  | entering => exact absurd rfl hentered
  | returned => exact absurd rfl hrunning
  | poll | handling | swapping => rfl
  | running | timer | test => cases hswapped

namespace EventLoop

variable {Fn : Type} {loop after : EventLoop Fn} {action : Action Fn}

/-- Every step of the loop thread stays on its side of the swap and of the test,
but for the three that cross it. -/
theorem step_side (hpushes : action.pushes = false) (hstep : loop.step action = .ok after) :
    (action = .enter ∧ loop.point = .entering) ∨
    (action = .test ∧ loop.point = .test ∧
      after = { loop with point := if loop.quit then .returned else .poll }) ∨
    (action = .swap ∧ loop.point = .swapping ∧
      after = { loop with
        functors := loop.pendingFunctors, pendingFunctors := [], point := .running }) ∨
    ((loop.point = .entering ↔ after.point = .entering) ∧
      (loop.point.swapped = after.point.swapped) ∧
      (loop.point.beforeSwap = after.point.beforeSwap) ∧
      after.pendingFunctors = loop.pendingFunctors ∧ (loop.quit = true → after.quit = true)) := by
  cases action with
  | queueInLoop cb => cases hpushes
  | queueFrom thread cb => cases hpushes
  | enter =>
      obtain ⟨-, hstep⟩ := step_byLoopThread rfl hstep
      obtain ⟨hpoint, -⟩ := Except.guard_eq_ok.mp hstep
      exact Or.inl ⟨rfl, hpoint⟩
  | test =>
      obtain ⟨-, hstep⟩ := step_byLoopThread rfl hstep
      obtain ⟨hpoint, hstep⟩ := Except.guard_eq_ok.mp hstep
      exact Or.inr (Or.inl ⟨rfl, hpoint, (Except.ok.inj hstep).symm⟩)
  | swap =>
      obtain ⟨-, hstep⟩ := step_byLoopThread rfl hstep
      obtain ⟨hpoint, hstep⟩ := Except.guard_eq_ok.mp hstep
      exact Or.inr (Or.inr (Or.inl ⟨rfl, hpoint, (Except.ok.inj hstep).symm⟩))
  | handleEvent =>
      obtain ⟨-, hstep⟩ := step_byLoopThread rfl hstep
      obtain ⟨handler, rest, hpoint, rfl⟩ := handleEvent_ok hstep
      simp [hpoint, ProgramPoint.swapped, ProgramPoint.beforeSwap]
  | runFunctor =>
      obtain ⟨-, hstep⟩ := step_byLoopThread rfl hstep
      obtain ⟨-, head, -, hafter⟩ := runFunctor_ok hstep
      rw [hafter]
      simp
  | endFunctors =>
      obtain ⟨-, hstep⟩ := step_byLoopThread rfl hstep
      obtain ⟨⟨hpoint, -⟩, hstep⟩ := Except.guard_eq_ok.mp hstep
      obtain rfl := Except.ok.inj hstep
      simp [hpoint, ProgramPoint.swapped, ProgramPoint.beforeSwap]
  | poll | storeFlag | endTimer =>
      obtain ⟨-, hstep⟩ := step_byLoopThread rfl hstep
      obtain ⟨hpoint, hstep⟩ := Except.guard_eq_ok.mp hstep
      obtain rfl := Except.ok.inj hstep
      simp [hpoint, ProgramPoint.swapped, ProgramPoint.beforeSwap]
  | wakeupIfNeeded =>
      obtain ⟨-, hstep⟩ := Except.guard_eq_ok.mp hstep
      obtain rfl := Except.ok.inj hstep
      unfold wakeupIfNeeded
      split <;> simp [wakeup]
  | wakeupFrom thread =>
      obtain ⟨-, hstep⟩ := Except.guard_eq_ok.mp hstep
      obtain rfl := Except.ok.inj hstep
      simp [wakeupIfNeeded, wakeup]
  | quit | wakeup =>
      obtain rfl := Except.ok.inj hstep
      simp [wakeup]

/-- The loop thread neither begins nor ends a call of `queueInLoop` with its own steps. -/
theorem loopStep_calls (haction : action.byLoopThread = true)
    (hstep : loop.loopStep action = .ok after) :
    after.queueing = loop.queueing ∧ after.waking = loop.waking := by
  cases action with
  | enter | test | poll | storeFlag | swap | endFunctors | endTimer =>
      obtain ⟨-, hstep⟩ := Except.guard_eq_ok.mp hstep
      obtain rfl := Except.ok.inj hstep
      exact ⟨rfl, rfl⟩
  | handleEvent =>
      obtain ⟨handler, rest, -, rfl⟩ := handleEvent_ok hstep
      exact ⟨rfl, rfl⟩
  | runFunctor =>
      obtain ⟨-, head, -, hafter⟩ := runFunctor_ok hstep
      rw [hafter]
      exact ⟨rfl, rfl⟩
  | queueInLoop | wakeupIfNeeded | queueFrom | wakeupFrom | quit | wakeup => cases haction

/-- No step but a push begins a call of `queueInLoop`. -/
theorem step_calls (hpushes : action.pushes = false) (hstep : loop.step action = .ok after) :
    (after.queueing = true → loop.queueing = true) ∧
      ∀ thread, after.waking thread = true → loop.waking thread = true := by
  cases haction : action.byLoopThread with
  | true =>
      obtain ⟨-, hstep⟩ := step_byLoopThread haction hstep
      obtain ⟨hqueueing, hwaking⟩ := loopStep_calls haction hstep
      rw [hqueueing, hwaking]
      exact ⟨id, fun _ => id⟩
  | false =>
      cases action with
      | wakeupIfNeeded =>
          obtain ⟨-, hstep⟩ := Except.guard_eq_ok.mp hstep
          obtain rfl := Except.ok.inj hstep
          refine ⟨nofun, fun thread hwaking => ?_⟩
          unfold wakeupIfNeeded at hwaking
          split at hwaking <;> exact hwaking
      | wakeupFrom other =>
          obtain ⟨-, hstep⟩ := Except.guard_eq_ok.mp hstep
          obtain rfl := Except.ok.inj hstep
          refine ⟨id, fun thread hwaking => ?_⟩
          by_cases hthread : thread = other
          · subst hthread
            simp at hwaking
          · simpa [Function.update_of_ne hthread] using hwaking
      | quit | wakeup =>
          obtain rfl := Except.ok.inj hstep
          exact ⟨id, fun _ => id⟩
      | queueInLoop | queueFrom => cases hpushes
      | enter | test | poll | handleEvent | storeFlag | swap | runFunctor | endFunctors
      | endTimer => cases haction

end EventLoop

namespace Journal

variable {Fn : Type} {j next : Journal Fn} {action : Action Fn}

/-- The calls of a thread are numbered. -/
def Numbered (j : Journal Fn) : Prop :=
  ∀ caller, (j.calls caller).map Call.serial = List.range (j.calls caller).length

theorem step_numbered (hj : j.Numbered) (hstep : step j action = .ok next) : next.Numbered := by
  cases action with
  | call caller cb =>
      obtain ⟨-, hstep⟩ := Except.guard_eq_ok.mp hstep
      obtain rfl := Except.ok.inj hstep
      intro other
      by_cases hother : other = caller
      · subst hother
        simp [hj other, List.range_succ]
      · simpa [Function.update_of_ne hother] using hj other
  | push caller =>
      obtain ⟨call, -, -, -, -, -, -, hcalls, -⟩ := push_ok hstep
      unfold Numbered
      rw [hcalls]
      exact hj
  | step loopAction =>
      obtain ⟨-, -, -, -, hcalls, -⟩ := loop_ok hstep
      unfold Numbered
      rw [hcalls]
      exact hj
  | again =>
      obtain ⟨-, hstep⟩ := Except.guard_eq_ok.mp hstep
      obtain rfl := Except.ok.inj hstep
      exact hj

/-- What a thread has pushed is numbered before the call it is about to push. -/
theorem serial_lt (hordered : j.Ordered) (hj : j.Numbered) {call : Call Fn}
    (hpushed : call ∈ j.pushed) (hpushing : (j.pushing call.caller).isSome) :
    call.serial + 1 < (j.calls call.caller).length := by
  obtain ⟨pending, hpending⟩ := Option.isSome_iff_exists.mp hpushing
  have hcalls := hordered.perThread call.caller
  rw [hpending, Option.toList_some] at hcalls
  have hserials := hj call.caller
  rw [← hcalls, List.map_append, List.length_append, List.length_singleton,
    List.range_succ] at hserials
  obtain ⟨hbefore, -⟩ := List.append_inj hserials (by simp)
  have hmem : call.serial ∈ (j.pushed.filter (·.caller = call.caller)).map Call.serial := by
    apply List.mem_map_of_mem
    simpa using hpushed
  rw [hbefore, List.mem_range] at hmem
  rw [← hcalls, List.length_append, List.length_singleton]
  exact Nat.succ_lt_succ hmem

/-- No call is pushed twice. -/
theorem pushed_once (hordered : j.Ordered) (hj : j.Numbered) {call : Call Fn}
    (hqueue : call ∈ j.queue) : call ∉ j.executed := by
  intro hexecuted
  have hnodup : (j.calls call.caller).Nodup := by
    apply List.Nodup.of_map Call.serial
    rw [hj call.caller]
    exact List.nodup_range
  rw [← hordered.perThread call.caller, ← hordered.conserved] at hnodup
  have hpushes := (List.nodup_append.mp hnodup).1
  rw [List.filter_append, List.filter_append] at hpushes
  have hdisjoint := (List.nodup_append.mp hpushes).2.2
  exact hdisjoint call (by simp [hexecuted]) call (by simp [hqueue]) rfl

/-- A call that has returned stays so. -/
theorem step_returned (hordered : j.Ordered) (hj : j.Numbered) {call : Call Fn}
    (hreturned : call ∈ j.returned) (hstep : step j action = .ok next) :
    call ∈ next.returned := by
  simp only [returned, List.mem_filter, Bool.or_eq_true, Bool.not_eq_true',
    decide_eq_true_eq] at hreturned ⊢
  obtain ⟨hpushed, hdone⟩ := hreturned
  cases action with
  | call caller cb =>
      obtain ⟨-, hstep⟩ := Except.guard_eq_ok.mp hstep
      obtain rfl := Except.ok.inj hstep
      refine ⟨hpushed, hdone.imp_right fun hbefore => ?_⟩
      by_cases hcaller : call.caller = caller
      · rw [← hcaller]
        simp only [Function.update_self, List.length_append]
        exact Nat.lt_add_right _ hbefore
      · simpa [Function.update_of_ne hcaller] using hbefore
  | push caller =>
      obtain ⟨other, hother, hloop, hnext, -, -, -, hcalls, -⟩ := push_ok hstep
      rw [hnext, hcalls]
      refine ⟨List.mem_append_left _ hpushed, ?_⟩
      by_cases hcaller : call.caller = caller
      · right
        apply serial_lt hordered hj hpushed
        rw [hcaller, hother]
        rfl
      · refine hdone.imp_left fun hout => ?_
        have hpusher := hordered.caller caller other hother
        unfold returning at hout ⊢
        rw [hloop]
        unfold push
        cases hthis : call.caller with
        | none =>
            rw [hthis] at hout
            cases hthat : other.caller with
            | none => exact absurd (hthis.trans (hthat.symm.trans hpusher)) hcaller
            | some thread => exact hout
        | some thread =>
            rw [hthis] at hout
            cases hthat : other.caller with
            | none => exact hout
            | some pusher =>
                have hne : thread ≠ pusher := fun heq =>
                  hcaller (by rw [hthis, heq, ← hthat, hpusher])
                simpa [Function.update_of_ne hne] using hout
  | step loopAction =>
      obtain ⟨hpushes, hloop, -, -, hcalls, -, hnext⟩ := loop_ok hstep
      obtain ⟨hqueueing, hwaking⟩ := EventLoop.step_calls hpushes hloop
      rw [hnext, hcalls]
      refine ⟨hpushed, hdone.imp_left fun hout => ?_⟩
      unfold returning at hout ⊢
      split at hout
      next => exact Bool.eq_false_of_not_eq_true fun htrue => by simp [hqueueing htrue] at hout
      next thread _ =>
        exact Bool.eq_false_of_not_eq_true fun htrue => by simp [hwaking thread htrue] at hout
  | again =>
      obtain ⟨-, hstep⟩ := Except.guard_eq_ok.mp hstep
      obtain rfl := Except.ok.inj hstep
      exact ⟨hpushed, hdone⟩

/-! ## The promise of a quit -/

/-- When `loop()` has returned, the functors that a `quit` found queued by calls that
had returned are executed. -/
def Kept (j : Journal Fn) : Prop :=
  j.loop.point = .returned → ∀ call ∈ j.promised, call ∈ j.executed

/-- A `quit` between the swap and the test finds no functor of a call that has
returned in the queue. -/
def QuitSafe (j : Journal Fn) : Action Fn → Prop
  | .step .quit => j.loop.point.swapped = true → ∀ call ∈ j.queue, call ∉ j.returned
  | _ => True

instance [DecidableEq Fn] (j : Journal Fn) (action : Action Fn) :
    Decidable (j.QuitSafe action) := by
  unfold QuitSafe
  split <;> infer_instance

/-- What is promised will be executed before the next test. -/
def Promising (j : Journal Fn) : Prop :=
  j.loop.point ≠ .entering → ∀ call ∈ j.promised,
    call ∈ j.executed ∨ call ∈ j.batch ∨ (j.loop.point.beforeSwap = true ∧ call ∈ j.queue)

theorem mem_conserved (hordered : j.Ordered) {call : Call Fn} (hpushed : call ∈ j.pushed) :
    call ∈ j.executed ∨ call ∈ j.batch ∨ call ∈ j.queue := by
  rw [← hordered.conserved, List.mem_append, List.mem_append, or_assoc] at hpushed
  exact hpushed

/-- A functor leaves the batch when it is started, and the queue with the swap. -/
theorem loop_pending {loopAction : EventLoop.Action (Call Fn)} {call : Call Fn}
    (hordered : j.Ordered) (hstep : step j (.step loopAction) = .ok next)
    (hpoint : j.loop.point ≠ .entering)
    (hcall : call ∈ j.executed ∨ call ∈ j.batch ∨
      (j.loop.point.beforeSwap = true ∧ call ∈ j.queue)) :
    call ∈ next.executed ∨ call ∈ next.batch ∨
      (next.loop.point.beforeSwap = true ∧ call ∈ next.queue) := by
  obtain ⟨hpushes, hloop, hexecuted, -⟩ := loop_ok hstep
  rw [hexecuted]
  rcases hcall with hcall | hcall | ⟨hbefore, hcall⟩
  · exact Or.inl (List.mem_append_left _ hcall)
  · unfold batch at hcall ⊢
    rcases EventLoop.step_functors hpushes hloop with ⟨rfl, -, -, head, hhead, -⟩ |
      ⟨rfl, hswapping, -⟩ | ⟨-, hfunctors, -⟩
    · rw [hhead, List.map_cons, List.mem_cons] at hcall
      rcases hcall with rfl | hcall
      · left
        simp [EventLoop.started, hhead]
      · exact Or.inr (Or.inl hcall)
    · rw [hordered.batchless (by rw [hswapping]; decide)] at hcall
      cases hcall
    · rw [hfunctors]
      exact Or.inr (Or.inl hcall)
  · unfold queue at hcall
    unfold batch queue
    rcases EventLoop.step_side hpushes hloop with ⟨-, hentering⟩ | ⟨-, htest, -⟩ |
      ⟨-, -, hnext⟩ | ⟨-, -, hside, hpending, -⟩
    · exact absurd hentering hpoint
    · rw [htest] at hbefore
      cases hbefore
    · rw [hnext]
      exact Or.inr (Or.inl hcall)
    · rw [← hside, hpending]
      exact Or.inr (Or.inr ⟨hbefore, hcall⟩)

theorem step_promising (hordered : j.Ordered) (hj : j.Promising) (hsafe : j.QuitSafe action)
    (hstep : step j action = .ok next) : next.Promising := by
  intro hpoint call hcall
  cases action with
  | call caller cb =>
      obtain ⟨-, hstep⟩ := Except.guard_eq_ok.mp hstep
      obtain rfl := Except.ok.inj hstep
      exact hj hpoint call hcall
  | push caller =>
      obtain ⟨other, -, hloop, -, hexecuted, hbatch, hqueue, -, -, hpromised⟩ := push_ok hstep
      rw [hloop, push_point] at hpoint ⊢
      rw [hpromised] at hcall
      rw [hexecuted, hbatch, hqueue]
      refine (hj hpoint call hcall).imp_right (Or.imp_right fun hwaits => ?_)
      exact ⟨hwaits.1, List.mem_append_left _ hwaits.2⟩
  | step loopAction =>
      obtain ⟨hpushes, hloop, -, hpromised, -⟩ := loop_ok hstep
      rw [hpromised] at hcall
      have hbefore : j.loop.point ≠ .entering := by
        rcases EventLoop.step_side hpushes hloop with ⟨rfl, -⟩ | ⟨-, htest, -⟩ |
          ⟨-, hswapping, -⟩ | ⟨hside, -⟩
        · cases hcall
        · rw [htest]
          decide
        · rw [hswapping]
          decide
        · exact fun hentering => hpoint (hside.mp hentering)
      apply loop_pending hordered hstep hbefore
      by_cases hquit : loopAction = .quit
      · subst hquit
        simp only [promises] at hcall
        split at hcall
        next => exact hj hbefore call hcall
        next hrunning =>
          refine (mem_conserved hordered (List.mem_of_mem_filter hcall)).imp_right
            (Or.imp_right fun hqueue => ⟨?_, hqueue⟩)
          -- the swap is ahead, or the call has not returned
          cases hside : j.loop.point.swapped with
          | true => exact absurd hcall (hsafe hside call hqueue)
          | false => exact ProgramPoint.beforeSwap_of_inside hbefore hrunning hside
      · apply hj hbefore call
        cases loopAction <;> first | exact hcall | cases hcall | exact absurd rfl hquit
  | again =>
      obtain ⟨-, hstep⟩ := Except.guard_eq_ok.mp hstep
      obtain rfl := Except.ok.inj hstep
      exact absurd rfl hpoint

theorem Promising.kept (hordered : j.Ordered) (hj : j.Promising) : j.Kept := by
  intro hreturned call hcall
  rcases hj (by rw [hreturned]; decide) call hcall with hdone | hbatch | ⟨hbefore, -⟩
  · exact hdone
  · rw [batch, hordered.batchless (by rw [hreturned]; decide)] at hbatch
    cases hbatch
  · rw [hreturned] at hbefore
    cases hbefore

/-! ## A quit that breaks its promise -/

/-- A call that `quit` found returned waits in the queue, and no swap comes before the
test. -/
structure Left (j : Journal Fn) (call : Call Fn) : Prop where
  quit : j.loop.quit = true
  swapped : j.loop.point.swapped = true
  queue : call ∈ j.queue
  returned : call ∈ j.returned
  promised : call ∈ j.promised

theorem mem_promises {loopAction : EventLoop.Action (Call Fn)} {call : Call Fn}
    (henter : loopAction ≠ .enter) (hpromised : call ∈ j.promised)
    (hreturned : call ∈ j.returned) : call ∈ j.promises loopAction := by
  unfold promises
  split
  next => exact absurd rfl henter
  next => split <;> assumption
  next => exact hpromised

/-- The promise stays broken until `loop()` returns. -/
theorem step_left {call : Call Fn} (hordered : j.Ordered) (hnumbered : j.Numbered)
    (hj : j.Left call) (hstep : step j action = .ok next) :
    next.Left call ∨ (next.loop.point = .returned ∧ call ∈ next.queue ∧ call ∈ next.promised) := by
  have hreturned := step_returned hordered hnumbered hj.returned hstep
  have hswapped := hj.swapped
  cases action with
  | call caller cb =>
      obtain ⟨-, hstep⟩ := Except.guard_eq_ok.mp hstep
      obtain rfl := Except.ok.inj hstep
      exact Or.inl ⟨hj.quit, hswapped, hj.queue, hreturned, hj.promised⟩
  | push caller =>
      obtain ⟨other, -, hloop, -, -, -, hqueue, -, -, hpromised⟩ := push_ok hstep
      have hquit : next.loop.quit = j.loop.quit := by
        rw [hloop, push]
        split <;> rfl
      refine Or.inl ⟨hquit.trans hj.quit, ?_, ?_, hreturned, ?_⟩
      · rw [hloop, push_point]
        exact hswapped
      · rw [hqueue]
        exact List.mem_append_left _ hj.queue
      · rw [hpromised]
        exact hj.promised
  | step loopAction =>
      obtain ⟨hpushes, hloop, -, hpromised, -⟩ := loop_ok hstep
      have hqueue := hj.queue
      unfold queue at hqueue
      rcases EventLoop.step_side hpushes hloop with ⟨-, hentering⟩ | ⟨rfl, -, hnext⟩ |
        ⟨-, hswapping, -⟩ | ⟨hentering, hside, -, hpending, hquit⟩
      · rw [hentering] at hswapped
        cases hswapped
      · right
        rw [hpromised, queue, hnext, hj.quit]
        exact ⟨rfl, hqueue, hj.promised⟩
      · rw [hswapping] at hswapped
        cases hswapped
      · left
        refine ⟨hquit hj.quit, hside ▸ hswapped, ?_, hreturned, ?_⟩
        · rw [queue, hpending]
          exact hqueue
        · rw [hpromised]
          refine mem_promises ?_ hj.promised hj.returned
          rintro rfl
          obtain ⟨-, hloop⟩ := EventLoop.step_byLoopThread rfl hloop
          obtain ⟨hpoint, -⟩ := Except.guard_eq_ok.mp hloop
          rw [hpoint] at hswapped
          cases hswapped
  | again =>
      obtain ⟨⟨hpoint, -⟩, -⟩ := Except.guard_eq_ok.mp hstep
      rw [hpoint] at hswapped
      cases hswapped

/-- A run in which `loop()` returns does not keep a broken promise. -/
theorem run_left {call : Call Fn} {schedule : List (Action Fn)} {final : Journal Fn}
    (hordered : j.Ordered) (hnumbered : j.Numbered) (hj : j.Left call)
    (hrun : run step j schedule = .ok final) (hfinal : final.loop.point.swapped = false) :
    ¬ EveryState step Kept j schedule := by
  induction schedule generalizing j with
  | nil =>
      obtain rfl := Except.ok.inj hrun
      have hswapped := hj.swapped
      rw [hfinal] at hswapped
      cases hswapped
  | cons action rest ih =>
      obtain ⟨middle, hstep, hrest⟩ := run_cons_eq_ok.mp hrun
      rintro ⟨-, hkept⟩
      have hmiddle := step_ordered j action middle hordered hstep
      have hnumbers := step_numbered hnumbered hstep
      rcases step_left hordered hnumbered hj hstep with hleft | ⟨hreturned, hqueue, hpromised⟩
      · exact ih hmiddle hnumbers hleft hrest (hkept middle hstep)
      · have hdone : call ∈ middle.executed :=
          (hkept middle hstep).head hreturned call hpromised
        exact pushed_once hmiddle hnumbers hqueue hdone

/-- A `quit` that is not safe breaks its promise. -/
theorem quit_left (hviolates : ¬ j.QuitSafe action) (hstep : step j action = .ok next) :
    ∃ call, next.Left call := by
  unfold QuitSafe at hviolates
  split at hviolates
  next =>
    push Not at hviolates
    obtain ⟨hswapped, call, hqueue, hreturned⟩ := hviolates
    obtain ⟨-, hloop, -, hpromised, hcalls, -, hpushed⟩ := loop_ok hstep
    have hnext := Except.ok.inj hloop
    have hrunning : j.loop.point ≠ .returned := by
      intro hpoint
      rw [hpoint] at hswapped
      cases hswapped
    refine ⟨call, by rw [← hnext], by rw [← hnext]; exact hswapped, ?_, ?_, ?_⟩
    · rw [queue, ← hnext]
      exact hqueue
    · unfold returned returning at hreturned ⊢
      rw [hpushed, hcalls, ← hnext]
      exact hreturned
    · rw [hpromised]
      simpa [promises, hrunning] using hreturned
  next => exact absurd trivial hviolates

theorem create_promising : (create : Journal Fn).Promising := fun hpoint => absurd rfl hpoint

theorem create_numbered : (create : Journal Fn).Numbered := fun _ => rfl

/-- If the promises are kept in every state of a run that does not end between a swap
and a test, then every `quit` was safe. -/
theorem everyStep_of_kept {schedule : List (Action Fn)} {final : Journal Fn}
    (hordered : j.Ordered) (hnumbered : j.Numbered) (hrun : run step j schedule = .ok final)
    (hfinal : final.loop.point.swapped = false) (hkept : EveryState step Kept j schedule) :
    EveryStep step QuitSafe j schedule := by
  induction schedule generalizing j with
  | nil => trivial
  | cons action rest ih =>
      obtain ⟨middle, hstep, hrest⟩ := run_cons_eq_ok.mp hrun
      have hmiddle := step_ordered j action middle hordered hstep
      have hnumbers := step_numbered hnumbered hstep
      have hafter := hkept.2 middle hstep
      refine ⟨?_, fun next hnext => ?_⟩
      · by_contra hviolates
        obtain ⟨call, hleft⟩ := quit_left hviolates hstep
        exact run_left hmiddle hnumbers hleft hrest hfinal hafter
      · obtain rfl := Except.ok.inj (hstep.symm.trans hnext)
        exact ih hmiddle hnumbers hrest hafter

/-- A run whose every `quit` is safe executes, in every state in which `loop()` has
returned, all functors whose calls had returned before a `quit` of that `loop()`. In a
run that does not end between a swap and a test, it takes no other runs. -/
theorem quit_keeps_iff {schedule : List (Action Fn)} (hrun : run step create schedule = .ok j) :
    (EveryStep step QuitSafe create schedule → EveryState step Kept create schedule) ∧
      (j.loop.point.swapped = false → EveryState step Kept create schedule →
        EveryStep step QuitSafe create schedule) := by
  constructor
  · intro hsafe
    have himplies : ∀ j : Journal Fn, j.Ordered ∧ j.Promising → j.Kept :=
      fun j hj => hj.2.kept hj.1
    refine hsafe.everyState ?_ himplies ⟨create_ordered, create_promising⟩
    rintro j action next ⟨hordered, hpromising⟩ hmeets hstep
    exact ⟨step_ordered j action next hordered hstep,
      step_promising hordered hpromising hmeets hstep⟩
  · exact everyStep_of_kept create_ordered create_numbered hrun

/-- `~TcpServer` queues a functor on a sub-loop that polls, and quits the sub-loop. -/
def quitWhilePolling : List (Action Functor) :=
  [.step .enter, .step .test, .call (some 1) (.connectDestroyed 0), .push (some 1),
    .step (.wakeupFrom 1), .step .quit, .step .wakeup, .step (.poll [.wakeup]),
    .step .handleEvent, .step .storeFlag, .step .swap, .step .runFunctor, .step .endFunctors,
    .step .endTimer, .step .test]

theorem quit_keeps_iff_polling : ∃ j, run step create quitWhilePolling = .ok j ∧
    j.loop.point = .returned ∧ j.promised = [⟨some 1, 0, .connectDestroyed 0⟩] ∧ j.Kept := by
  have hends : ends (fun j => decide (j.loop.point = .returned ∧
      j.promised = [⟨some 1, 0, .connectDestroyed 0⟩]))
      (run step create quitWhilePolling) = true := by decide
  obtain ⟨j, hrun, hcheck⟩ := exists_of_ends hends
  have hsafe : EveryStep step QuitSafe create quitWhilePolling := by decide
  obtain ⟨hreturned, hpromised⟩ := of_decide_eq_true hcheck
  exact ⟨j, hrun, hreturned, hpromised, ((quit_keeps_iff hrun).1 hsafe).final hrun⟩

/-- The same while the sub-loop runs a batch: the functor stays in the queue. -/
def quitWhileRunning : List (Action Functor) :=
  [.step .enter, .step .test, .step (.poll []), .step .storeFlag, .step .swap,
    .call (some 1) (.connectDestroyed 0), .push (some 1), .step (.wakeupFrom 1), .step .quit,
    .step .wakeup, .step .endFunctors, .step .endTimer, .step .test]

/-- Quitting drops a functor of a call that has returned. -/
theorem quit_keeps_false : ¬ ∀ (schedule : List (Action Functor)) (j : Journal Functor),
    run step create schedule = .ok j → j.Kept := by
  intro hkept
  have hends : ends (fun j => decide (j.loop.point = .returned ∧
      (⟨some 1, 0, .connectDestroyed 0⟩ : Call Functor) ∈ j.promised ∧ j.executed = []))
      (run step create quitWhileRunning) = true := by decide
  obtain ⟨j, hrun, hcheck⟩ := exists_of_ends hends
  obtain ⟨hreturned, hpromised, hnone⟩ := of_decide_eq_true hcheck
  have hexecuted := hkept quitWhileRunning j hrun hreturned _ hpromised
  rw [hnone] at hexecuted
  cases hexecuted

end Journal

end Muduo
