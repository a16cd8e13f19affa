import Muduo.TcpConnection.Invariant
import Muduo.TcpConnection.Queues

/-! # The state of a connection over a run

Which steps store the state, in any state of the connection, sound or not. Until
`connectEstablished` runs, nothing else can: it is the first task, and no event is
reported for the unregistered channel.
-/

open Transition

namespace Muduo

namespace TcpConnection

namespace System

variable {ptr : ConnId} {s next : System} {action : Action}

/-- What one step does to the state. -/
inductive StateStep (s : System) (action : Action) (next : System) : Prop where
  | same (hstate : next.conn.state = s.conn.state)
      (hdestroy : s.cause action = .destroy → s.conn.state ≠ .kConnected)
  | shutdown (hbefore : s.conn.state = .kConnected) (hafter : next.conn.state = .kDisconnecting)
      (hdestroy : s.cause action ≠ .destroy)
  | down (hbefore : s.conn.state = .kConnected ∨ s.handlers ≠ [] ∧ s.cause action ≠ .destroy)
      (hafter : next.conn.state = .kDisconnected)
      (htold : .connectionCallback .kDisconnected ∈ next.events)
  | establish (htask : ∃ task ∈ s.tasks, ∃ conn, task.functor = .connectEstablished conn)
      (hafter : next.conn.state = .kConnected) (hdestroy : s.cause action ≠ .destroy)

theorem StateStep.of_shutdown (inLoopThread : Bool)
    (hconn : next.conn = (TcpConnection.shutdown ptr inLoopThread s.frame).conn)
    (hdestroy : s.cause action ≠ .destroy) : s.StateStep action next := by
  have hstate := shutdown_state ptr inLoopThread s.frame
  rw [← hconn] at hstate
  split at hstate
  next hconnected => exact .shutdown hconnected hstate hdestroy
  next => exact .same hstate fun hcause => absurd hcause hdestroy

theorem StateStep.of_plain (hcause : s.cause action = .plain)
    (hstate : next.conn.state = s.conn.state) : s.StateStep action next :=
  .same hstate fun hdestroy => absurd (hcause.symm.trans hdestroy) plain_ne_destroy

theorem step_state (hstep : step ptr s action = .ok next) : s.StateStep action next := by
  cases action with
  | send thread buf =>
      obtain ⟨-, hstep⟩ := Except.guard_eq_ok.mp hstep
      split at hstep <;> (obtain rfl := Except.ok.inj hstep; exact .of_plain rfl rfl)
  | queueSend thread =>
      obtain ⟨buf, -, rfl⟩ := step_queueSend hstep
      exact .of_plain rfl rfl
  | sendDirect buf result =>
      obtain ⟨f, hsend, hstep⟩ := Except.bind_eq_ok.mp hstep
      obtain rfl := Except.ok.inj hstep
      exact .of_plain rfl (send_quiet hsend).state
  | shutdown =>
      obtain rfl := Except.ok.inj hstep
      exact .of_shutdown false rfl plain_ne_destroy
  | shutdownDirect =>
      obtain rfl := Except.ok.inj hstep
      exact .of_shutdown true rfl (causeOfShutdown_ne_destroy _ _)
  | setHighWaterMarkCallback | setWriteCompleteCallback | retrieve | queueConnectDestroyed =>
      obtain rfl := Except.ok.inj hstep
      exact .of_plain rfl rfl
  | poll | handleEvent | swap =>
      obtain ⟨-, hstep⟩ := Except.guard_eq_ok.mp hstep
      obtain rfl := Except.ok.inj hstep
      exact .of_plain rfl rfl
  | connectDestroyedDirect =>
      obtain ⟨-, f, hdestroy, rfl⟩ := step_connectDestroyedDirect hstep
      rcases connectDestroyed_quiet hdestroy with ⟨hconnected, hdown⟩ | ⟨hother, hquiet⟩
      · exact .down (Or.inl hconnected) hdown.state (List.mem_append_right _ hdown.told)
      · exact .same hquiet.state fun _ => hother
  | callback calls =>
      obtain ⟨callback, rest, f, hhandlers, hcallback, rfl⟩ := step_callback hstep
      have hcause : s.cause (.callback calls) ≠ .destroy := by
        simp only [cause, hhandlers]
        exact causeOfCallback_ne_destroy callback
      rcases onCallback_quiet hcallback with hquiet | hdown
      · exact .same hquiet.state fun hdestroy => absurd hdestroy hcause
      · refine .down (Or.inr ⟨?_, hcause⟩) hdown.state (List.mem_append_right _ hdown.told)
        rw [hhandlers]
        exact List.cons_ne_nil _ _
  | runFunctor result =>
      obtain ⟨task, rest, hfunctors, -, hstep⟩ := step_runFunctor hstep
      obtain ⟨f, hfunctor, hconn, -, -, -, hevents, -⟩ := execute_eq hstep
      have hcause : s.cause (.runFunctor result) = causeOfFunctor task.functor := by
        simp only [cause, hfunctors]
      rcases onFunctor_quiet hfunctor with ⟨conn, hestablish, hquiet⟩ |
        ⟨-, hconnected, hdown⟩ | ⟨-, hother, hquiet⟩
      · refine .establish ⟨task, ?_, conn, hestablish⟩ ?_ ?_
        · rw [tasks, hfunctors]
          exact List.mem_cons_self
        · rw [hconn]
          exact hquiet.state
        · rw [hcause, hestablish]
          rintro ⟨⟩
      · refine .down (Or.inl hconnected) ?_ ?_
        · rw [hconn]
          exact hdown.state
        · rw [hevents]
          exact List.mem_append_right _ hdown.told
      · refine .same ?_ ?_
        · rw [hconn]
          exact hquiet.state
        · rw [hcause]
          exact hother

/-- What one step adds to the records and to the tasks: nothing is taken back, a
`connectDestroyed` is remembered, and no `connectEstablished` is queued. -/
structure Records (s : System) (action : Action) (next : System) : Prop where
  events : s.events <+: next.events
  destroyed : next.destroyed = true ↔ s.destroyed = true ∨ s.cause action = .destroy
  tasks : ∀ task ∈ next.tasks, task ∈ s.tasks ∨ ∀ conn, task.functor ≠ .connectEstablished conn

theorem Records.same (hevents : next.events = s.events) (hdestroyed : next.destroyed = s.destroyed)
    (htasks : ∀ task ∈ next.tasks,
      task ∈ s.tasks ∨ ∀ conn, task.functor ≠ .connectEstablished conn)
    (hcause : s.cause action ≠ .destroy) : s.Records action next := by
  refine ⟨by rw [hevents], ?_, htasks⟩
  rw [hdestroyed]
  exact ⟨Or.inl, fun hnext => hnext.resolve_right hcause⟩

/-- A step that takes over the result of a member function. -/
theorem Records.absorb {f : Frame}
    (hqueued : ∀ functor ∈ f.queued, ∀ conn, functor ≠ .connectEstablished conn)
    (hevents : next.events = s.events ++ f.events)
    (htasks : next.tasks = (s.absorb f).tasks)
    (hdestroyed : next.destroyed = true ↔ s.destroyed = true ∨ s.cause action = .destroy) :
    s.Records action next :=
  ⟨by rw [hevents]; exact List.prefix_append _ _, hdestroyed,
    fun task htask => (mem_tasks_absorb htasks htask).imp_right (hqueued task.functor)⟩

/-- Notifications establish nothing. -/
theorem queued_of_keeps {self : ConnId} {f : Frame} (hkeeps : s.frame.Keeps self f) :
    ∀ functor ∈ f.queued, ∀ conn, functor ≠ .connectEstablished conn := by
  obtain ⟨queued, hqueued, hnotifies⟩ := hkeeps.queued
  rintro functor hfunctor conn rfl
  rw [hqueued, frame, List.nil_append] at hfunctor
  exact hnotifies _ hfunctor

theorem queued_of_shutdown (inLoopThread : Bool) :
    ∀ functor ∈ (TcpConnection.shutdown ptr inLoopThread s.frame).queued,
      ∀ conn, functor ≠ .connectEstablished conn := by
  cases inLoopThread with
  | true =>
      have hkeeps : s.frame.Keeps ptr (TcpConnection.shutdown ptr true s.frame) :=
        shutdown_keeps s.frame
      exact queued_of_keeps hkeeps
  | false =>
      rcases shutdown_queues ptr s.frame with ⟨-, hsame⟩ | ⟨-, hqueues⟩
      · rw [hsame]
        exact nofun
      · rw [hqueues]
        rintro functor hfunctor conn rfl
        simp [Frame.queueInLoop, Frame.setState, frame] at hfunctor

theorem execute_destroyed {task : Task} {result : WriteResult}
    (hexecute : execute task result s = .ok next) :
    next.destroyed = true ↔ s.destroyed = true ∨ causeOfFunctor task.functor = .destroy := by
  unfold execute at hexecute
  obtain ⟨f, -, hexecute⟩ := Except.bind_eq_ok.mp hexecute
  obtain ⟨functor, sender⟩ := task
  cases functor
  all_goals
    obtain rfl := Except.ok.inj hexecute
    simp [System.absorb, causeOfFunctor]

theorem step_records (hstep : step ptr s action = .ok next) : s.Records action next := by
  cases action with
  | send thread buf =>
      obtain ⟨-, hstep⟩ := Except.guard_eq_ok.mp hstep
      split at hstep <;>
        (obtain rfl := Except.ok.inj hstep; exact .same rfl rfl (fun _ => Or.inl) plain_ne_destroy)
  | queueSend thread =>
      obtain ⟨buf, -, rfl⟩ := step_queueSend hstep
      refine .same rfl rfl (fun task htask => ?_) plain_ne_destroy
      rw [tasks, ← List.append_assoc] at htask
      rcases List.mem_append.mp htask with hold | hnew
      · exact Or.inl hold
      · rw [List.mem_singleton.mp hnew]
        exact Or.inr fun _ => by rintro ⟨⟩
  | queueConnectDestroyed =>
      obtain rfl := Except.ok.inj hstep
      refine .same rfl rfl (fun task htask => ?_) plain_ne_destroy
      rw [tasks, ← List.append_assoc] at htask
      rcases List.mem_append.mp htask with hold | hnew
      · exact Or.inl hold
      · rw [List.mem_singleton.mp hnew]
        exact Or.inr fun _ => by rintro ⟨⟩
  | sendDirect buf result =>
      obtain ⟨f, hsend, hstep⟩ := Except.bind_eq_ok.mp hstep
      obtain rfl := Except.ok.inj hstep
      exact .absorb (queued_of_keeps (send_keeps hsend)) rfl rfl
        ⟨Or.inl, fun hnext => hnext.resolve_right plain_ne_destroy⟩
  | shutdown =>
      obtain rfl := Except.ok.inj hstep
      exact .absorb (queued_of_shutdown false) rfl rfl
        ⟨Or.inl, fun hnext => hnext.resolve_right plain_ne_destroy⟩
  | shutdownDirect =>
      obtain rfl := Except.ok.inj hstep
      exact .absorb (queued_of_shutdown true) rfl rfl
        ⟨Or.inl, fun hnext => hnext.resolve_right (causeOfShutdown_ne_destroy _ _)⟩
  | setHighWaterMarkCallback | setWriteCompleteCallback | retrieve =>
      obtain rfl := Except.ok.inj hstep
      exact .same rfl rfl (fun _ => Or.inl) plain_ne_destroy
  | poll | handleEvent =>
      obtain ⟨-, hstep⟩ := Except.guard_eq_ok.mp hstep
      obtain rfl := Except.ok.inj hstep
      exact .same rfl rfl (fun _ => Or.inl) plain_ne_destroy
  | swap =>
      obtain ⟨hidle, hstep⟩ := Except.guard_eq_ok.mp hstep
      obtain rfl := Except.ok.inj hstep
      refine .same rfl rfl (fun task htask => Or.inl ?_) plain_ne_destroy
      rw [tasks, List.append_nil] at htask
      exact List.mem_append_right _ htask
  | connectDestroyedDirect =>
      obtain ⟨-, f, hdestroy, rfl⟩ := step_connectDestroyedDirect hstep
      exact .absorb (queued_of_keeps (connectDestroyed_keeps hdestroy)) rfl rfl
        ⟨fun _ => Or.inr rfl, fun _ => rfl⟩
  | callback calls =>
      obtain ⟨callback, rest, f, hhandlers, hcallback, rfl⟩ := step_callback hstep
      refine .absorb (queued_of_keeps (onCallback_keeps hcallback)) rfl rfl
        ⟨Or.inl, fun hnext => hnext.resolve_right ?_⟩
      simp only [cause, hhandlers]
      exact causeOfCallback_ne_destroy callback
  | runFunctor result =>
      obtain ⟨task, rest, hfunctors, -, hstep⟩ := step_runFunctor hstep
      have hdestroyed := execute_destroyed hstep
      obtain ⟨f, hfunctor, -, -, -, htasks, hevents, -⟩ := execute_eq hstep
      have hqueued := queued_of_keeps (s := s) (onFunctor_keeps hfunctor)
      refine ⟨?_, ?_, fun other hother => ?_⟩
      · rw [hevents]
        exact List.prefix_append _ _
      · simp only [cause, hfunctors]
        exact hdestroyed
      · rcases mem_tasks_absorb htasks hother with hold | hnew
        · left
          rw [tasks, hfunctors]
          exact List.mem_cons_of_mem _ hold
        · exact Or.inr (hqueued other.functor hnew)

/-! ## Before and after connectEstablished -/

/-- `connectEstablished` is the first task, and nothing has happened. -/
structure Waiting (ptr : ConnId) (s : System) : Prop where
  idle : s.Idle
  kernel : s.poller.kernel s.conn.channel.fd = none
  destroyed : s.destroyed = false
  tasks : ∃ rest, s.tasks = ⟨.connectEstablished ptr, none⟩ :: rest ∧
    ∀ task ∈ rest, ∀ conn, task.functor ≠ .connectEstablished conn

theorem Waiting.queue (hs : s.Waiting ptr) (task : Task)
    (htask : ∀ conn, task.functor ≠ .connectEstablished conn)
    (hconn : next.conn = s.conn) (hpoller : next.poller = s.poller)
    (htasks : next.tasks = s.tasks ++ [task]) (hidle : next.Idle ↔ s.Idle)
    (hdestroyed : next.destroyed = s.destroyed) : next.Waiting ptr := by
  obtain ⟨rest, hrest, hothers⟩ := hs.tasks
  refine ⟨hidle.mpr hs.idle, ?_, hdestroyed.trans hs.destroyed, rest ++ [task], ?_, ?_⟩
  · rw [hconn, hpoller]
    exact hs.kernel
  · rw [htasks, hrest, List.cons_append]
  · intro other hother
    rcases List.mem_append.mp hother with hold | hnew
    · exact hothers other hold
    · exact List.mem_singleton.mp hnew ▸ htask

/-- A connecting connection waits on, or is established by its first task. -/
theorem Waiting.step (hs : s.Waiting ptr) (hconnecting : s.conn.state = .kConnecting)
    (hstep : step ptr s action = .ok next) :
    next.Waiting ptr ∧ next.conn.state = .kConnecting ∨
      next.conn.state = .kConnected ∧
        ∀ task ∈ next.tasks, ∀ conn, task.functor ≠ .connectEstablished conn := by
  have hclosed : s.conn.state ≠ .kConnected := by simp [hconnecting]
  cases action with
  | send thread buf =>
      obtain ⟨-, hstep⟩ := Except.guard_eq_ok.mp hstep
      rw [if_neg hclosed] at hstep
      obtain rfl := Except.ok.inj hstep
      exact Or.inl ⟨hs, hconnecting⟩
  | queueSend thread =>
      simp only [System.step] at hstep
      split at hstep
      next buf _ =>
        obtain rfl := Except.ok.inj hstep
        refine Or.inl ⟨hs.queue _ ?_ rfl rfl (List.append_assoc _ _ _).symm Iff.rfl rfl,
          hconnecting⟩
        exact fun _ => by rintro ⟨⟩
      next => cases hstep
  | queueConnectDestroyed =>
      obtain rfl := Except.ok.inj hstep
      refine Or.inl ⟨hs.queue _ ?_ rfl rfl (List.append_assoc _ _ _).symm Iff.rfl rfl, hconnecting⟩
      exact fun _ => by rintro ⟨⟩
  | sendDirect buf result =>
      have hsame : TcpConnection.send ptr true buf.bytes result s.frame = .ok s.frame :=
        if_neg hclosed
      obtain ⟨f, hsend, hstep⟩ := Except.bind_eq_ok.mp hstep
      obtain rfl := Except.ok.inj (hsame.symm.trans hsend)
      simp only [if_neg hclosed, absorb_frame] at hstep
      obtain rfl := Except.ok.inj hstep
      exact Or.inl ⟨hs, hconnecting⟩
  | shutdown =>
      have hsame : TcpConnection.shutdown ptr false s.frame = s.frame := if_neg hclosed
      simp only [System.step, hsame, absorb_frame, Except.ok.injEq] at hstep
      exact Or.inl (hstep ▸ ⟨hs, hconnecting⟩)
  | shutdownDirect =>
      have hsame : TcpConnection.shutdown ptr true s.frame = s.frame := if_neg hclosed
      simp only [System.step, hsame, absorb_frame, Except.ok.injEq] at hstep
      exact Or.inl (hstep ▸ ⟨hs, hconnecting⟩)
  | setHighWaterMarkCallback | setWriteCompleteCallback | retrieve =>
      obtain rfl := Except.ok.inj hstep
      exact Or.inl ⟨⟨hs.idle, hs.kernel, hs.destroyed, hs.tasks⟩, hconnecting⟩
  | poll revents =>
      obtain ⟨⟨-, -, hregistered⟩, -⟩ := Except.guard_eq_ok.mp hstep
      rw [hs.kernel] at hregistered
      cases hregistered
  | handleEvent =>
      obtain ⟨hactive, -⟩ := Except.guard_eq_ok.mp hstep
      rw [hs.idle.1] at hactive
      cases hactive
  | callback calls =>
      simp only [System.step, hs.idle.2] at hstep
      cases hstep
  | swap =>
      obtain ⟨⟨-, hempty⟩, hstep⟩ := Except.guard_eq_ok.mp hstep
      obtain rfl := Except.ok.inj hstep
      refine Or.inl ⟨⟨hs.idle, hs.kernel, hs.destroyed, ?_⟩, hconnecting⟩
      have htasks := hs.tasks
      rw [System.tasks, hempty, List.nil_append] at htasks
      rw [System.tasks, List.append_nil]
      exact htasks
  | connectDestroyedDirect =>
      simp only [System.step, hconnecting, ↓reduceIte] at hstep
      cases hstep
  | runFunctor result =>
      obtain ⟨rest, hrest, hothers⟩ := hs.tasks
      simp only [System.step] at hstep
      split at hstep
      next => cases hstep
      next task batch hfunctors =>
        obtain ⟨-, hstep⟩ := Except.guard_eq_ok.mp hstep
        obtain ⟨f, hfunctor, hconn, -, -, htasks, -⟩ := execute_eq hstep
        rw [System.tasks, hfunctors, List.cons_append, List.cons.injEq] at hrest
        obtain ⟨rfl, hrest⟩ := hrest
        have hquiet := connectEstablished_quiet hfunctor
        refine Or.inr ⟨?_, fun other hother => ?_⟩
        · rw [hconn]
          exact hquiet.state
        · rcases mem_tasks_absorb htasks hother with hold | hnew
          · exact hothers other (hrest ▸ hold)
          · exact queued_of_keeps (s := s) (connectEstablished_keeps hfunctor) other.functor hnew

/-- What is known of the state in every run, sound or not. -/
structure Begun (ptr : ConnId) (s : System) : Prop where
  connecting : s.conn.state = .kConnecting → s.Waiting ptr
  established : s.conn.state ≠ .kConnecting →
    ∀ task ∈ s.tasks, ∀ conn, task.functor ≠ .connectEstablished conn
  told : s.conn.state = .kDisconnected → .connectionCallback .kDisconnected ∈ s.events

theorem initial_begun (ptr loop : ConnId) (name : String) (sockfd : Int)
    (hasWriteCompleteCallback hasHighWaterMarkCallback : Bool) :
    (initial ptr loop name sockfd hasWriteCompleteCallback hasHighWaterMarkCallback).Begun
      ptr where
  connecting := fun _ => ⟨⟨rfl, rfl⟩, rfl, rfl, [], rfl, nofun⟩
  established := fun hstate => absurd rfl hstate
  told := nofun

/-- The state after a step, of a connection that is established by a first task. -/
theorem Begun.step_state (hs : s.Begun ptr) (hstep : step ptr s action = .ok next) :
    next.conn.state = s.conn.state ∨
    (s.conn.state = .kConnecting ∧ next.conn.state = .kConnected) ∨
    (s.conn.state = .kConnected ∧ next.conn.state = .kDisconnecting) ∨
    (s.conn.state ≠ .kConnecting ∧ next.conn.state = .kDisconnected) := by
  cases System.step_state hstep with
  | same hstate => exact Or.inl hstate
  | shutdown hbefore hafter => exact Or.inr (Or.inr (Or.inl ⟨hbefore, hafter⟩))
  | down hbefore hafter =>
      refine Or.inr (Or.inr (Or.inr ⟨?_, hafter⟩))
      rcases hbefore with hconnected | ⟨hhandlers, -⟩
      · simp [hconnected]
      · exact fun hconnecting => hhandlers (hs.connecting hconnecting).idle.2
  | establish htask hafter =>
      refine Or.inr (Or.inl ⟨?_, hafter⟩)
      by_contra hopen
      obtain ⟨task, hmem, conn, hestablish⟩ := htask
      exact hs.established hopen task hmem conn hestablish

theorem step_begun (hs : s.Begun ptr) (hstep : step ptr s action = .ok next) :
    next.Begun ptr := by
  by_cases hconnecting : s.conn.state = .kConnecting
  · rcases (hs.connecting hconnecting).step hconnecting hstep with ⟨hnext, hstate⟩ |
      ⟨hstate, htasks⟩
    · exact ⟨fun _ => hnext, fun hopen => absurd hstate hopen, by rw [hstate]; exact nofun⟩
    · exact ⟨by rw [hstate]; exact nofun, fun _ => htasks, by rw [hstate]; exact nofun⟩
  · have hrecords := step_records hstep
    have hopen : next.conn.state ≠ .kConnecting := by
      rcases hs.step_state hstep with hstate | ⟨-, hstate⟩ | ⟨-, hstate⟩ | ⟨-, hstate⟩ <;>
        rw [hstate]
      · exact hconnecting
      all_goals exact nofun
    refine ⟨fun hnext => absurd hnext hopen, fun _ task htask => ?_, fun hclosed => ?_⟩
    · exact (hrecords.tasks task htask).elim (hs.established hconnecting task) id
    · cases System.step_state hstep with
      | same hstate => exact hrecords.events.subset (hs.told (hstate ▸ hclosed))
      | shutdown _ hafter =>
          rw [hafter] at hclosed
          cases hclosed
      | down _ _ htold => exact htold
      | establish _ hafter =>
          rw [hafter] at hclosed
          cases hclosed

end System

end TcpConnection

end Muduo
