import Muduo.TcpConnection.Output
import Muduo.TcpConnection.States

/-! # Writes after a half-close

With every call one step, a message of another thread is queued before the
connection leaves `kConnected`, and a queued `shutdownInLoop` is executed after it.
On the loop thread, `shutdown` half-closes at once and overtakes the messages that
are still queued.
-/

open Transition

namespace Muduo

namespace TcpConnection

namespace System

variable {ptr : ConnId} {s next : System} {action : Action}

/-! ## Whole calls -/

/-- The two halves of a `send` by another thread. -/
def Action.halfSend : Action → Bool
  | .send _ _ | .queueSend _ => true
  | _ => false

inductive Call where
  /-- another thread calls `send`, in one step -/
  | sendFrom (thread : ThreadId) (buf : CppString)
  | other (action : Action)

/-- A `send` by another thread. -/
def sendFrom (self : ConnId) (thread : ThreadId) (buf : CppString) (s : System) : System :=
  if s.conn.state = .kConnected then { s with
    pendingFunctors := s.pendingFunctors ++ [⟨.sendInLoop self buf.bytes, some thread⟩]
    called := s.called ++ [(thread, buf.bytes)] }
  else s

def callStep (self : ConnId) (s : System) : Call → Except Stop System
  | .sendFrom thread buf => .ok (s.sendFrom self thread buf)
  | .other action => if action.halfSend then .error .disabled else s.step self action

/-- Whole calls are runs of the connection. -/
theorem callStep_run {call : Call} (hcalling : ∀ thread, s.calling thread = none)
    (hstep : callStep ptr s call = .ok next) :
    ∃ schedule, run (step ptr) s schedule = .ok next := by
  cases call with
  | other action =>
      simp only [callStep] at hstep
      split at hstep
      next => cases hstep
      next => exact ⟨[action], run_cons_eq_ok.mpr ⟨next, hstep, rfl⟩⟩
  | sendFrom thread buf =>
      obtain rfl := Except.ok.inj hstep
      unfold sendFrom
      split
      next hconnected =>
        refine ⟨[.send thread buf, .queueSend thread], ?_⟩
        have hsame : Function.update s.calling thread none = s.calling := by
          rw [← hcalling thread]
          exact Function.update_eq_self thread s.calling
        simp [step, hcalling, hconnected, hsame, bind, Except.bind]
      next => exact ⟨[], rfl⟩

/-- What a step does to the queue and to the records of messages. -/
structure Passes (s : System) (action : Action) (next : System) : Prop where
  tasks : ∃ old new, next.tasks = old ++ new ∧ old <:+ s.tasks ∧ ∀ task ∈ new,
    task.functor.messages = [] ∧ ∀ this, task.functor = .shutdownInLoop this →
      next.conn.state ≠ .kConnecting ∧ next.conn.state ≠ .kConnected
  called : next.called = s.called
  calling : next.calling = s.calling
  executed : next.executed = s.executed ∨ s.conn.state = .kConnected ∨
    ∃ task rest, s.tasks = task :: rest ∧ task.functor.messages ≠ []

theorem Passes.same (htasks : next.tasks = s.tasks) (hcalled : next.called = s.called)
    (hcalling : next.calling = s.calling) (hexecuted : next.executed = s.executed) :
    s.Passes action next :=
  ⟨⟨s.tasks, [], by rw [htasks, List.append_nil], List.suffix_refl _, nofun⟩, hcalled, hcalling,
    Or.inl hexecuted⟩

/-- The functors a member function queues on the loop thread carry no message. -/
theorem notifications_of_keeps {self : ConnId} {f : Frame} (hkeeps : s.frame.Keeps self f) :
    ∀ functor ∈ f.queued, functor.messages = [] ∧ ∀ this, functor ≠ .shutdownInLoop this := by
  obtain ⟨queued, hqueued, hnotifies⟩ := hkeeps.queued
  rw [frame, List.nil_append] at hqueued
  intro functor hfunctor
  have hnotify := hnotifies functor (hqueued ▸ hfunctor)
  cases functor with
  | writeCompleteCallback | highWaterMarkCallback => exact ⟨rfl, by rintro _ ⟨⟩⟩
  | connectEstablished | connectDestroyed | sendInLoop | shutdownInLoop | removeConnectionInLoop =>
      exact hnotify.elim

/-- A step that takes over a member function on the loop thread. -/
theorem Passes.absorb {self : ConnId} {f : Frame} {old : List Task}
    (hkeeps : s.frame.Keeps self f) (hold : old <:+ s.tasks)
    (htasks : next.tasks = old ++ f.queued.map (⟨·, none⟩)) (hcalled : next.called = s.called)
    (hcalling : next.calling = s.calling)
    (hexecuted : next.executed = s.executed ∨ s.conn.state = .kConnected ∨
      ∃ task rest, s.tasks = task :: rest ∧ task.functor.messages ≠ []) :
    s.Passes action next := by
  refine ⟨⟨old, _, htasks, hold, fun task htask => ?_⟩, hcalled, hcalling, hexecuted⟩
  obtain ⟨functor, hfunctor, rfl⟩ := List.mem_map.mp htask
  obtain ⟨hmessages, hother⟩ := notifications_of_keeps hkeeps functor hfunctor
  exact ⟨hmessages, fun this hthis => absurd hthis (hother this)⟩

theorem step_passes (hwhole : action.halfSend = false) (hstep : step ptr s action = .ok next) :
    s.Passes action next := by
  cases action with
  | send | queueSend => cases hwhole
  | sendDirect buf result =>
      obtain ⟨f, hsend, hstep⟩ := Except.bind_eq_ok.mp hstep
      obtain rfl := Except.ok.inj hstep
      refine .absorb (send_keeps hsend) (List.suffix_refl _) (tasks_absorb s f) rfl rfl ?_
      dsimp only
      split
      next hconnected => exact Or.inr (Or.inl hconnected)
      next => exact Or.inl rfl
  | shutdown =>
      obtain rfl := Except.ok.inj hstep
      rcases shutdown_queues ptr s.frame with ⟨-, hsame⟩ | ⟨-, hqueues⟩
      · rw [hsame, absorb_frame]
        exact .same rfl rfl rfl rfl
      · rw [hqueues]
        refine ⟨⟨s.tasks, [⟨.shutdownInLoop ptr, none⟩], ?_, List.suffix_refl _, ?_⟩, rfl, rfl,
          Or.inl rfl⟩
        · exact (List.append_assoc _ _ _).symm
        · intro task htask
          rw [List.mem_singleton.mp htask]
          exact ⟨rfl, fun _ _ => ⟨nofun, nofun⟩⟩
  | shutdownDirect =>
      obtain rfl := Except.ok.inj hstep
      have hkeeps : s.frame.Keeps ptr (TcpConnection.shutdown ptr true s.frame) :=
        shutdown_keeps s.frame
      exact .absorb hkeeps (List.suffix_refl _) (tasks_absorb s _) rfl rfl (Or.inl rfl)
  | setHighWaterMarkCallback | setWriteCompleteCallback | retrieve =>
      obtain rfl := Except.ok.inj hstep
      exact .same rfl rfl rfl rfl
  | queueConnectDestroyed =>
      obtain rfl := Except.ok.inj hstep
      refine ⟨⟨s.tasks, [⟨.connectDestroyed ptr, none⟩], (List.append_assoc _ _ _).symm,
        List.suffix_refl _, fun task htask => ?_⟩, rfl, rfl, Or.inl rfl⟩
      rw [List.mem_singleton.mp htask]
      exact ⟨rfl, fun _ => nofun⟩
  | connectDestroyedDirect =>
      obtain ⟨-, f, hdestroy, rfl⟩ := step_connectDestroyedDirect hstep
      exact .absorb (connectDestroyed_keeps hdestroy) (List.suffix_refl _) (tasks_absorb s f)
        rfl rfl (Or.inl rfl)
  | poll | handleEvent =>
      obtain ⟨-, hstep⟩ := Except.guard_eq_ok.mp hstep
      obtain rfl := Except.ok.inj hstep
      exact .same rfl rfl rfl rfl
  | swap =>
      obtain ⟨hidle, hstep⟩ := Except.guard_eq_ok.mp hstep
      obtain rfl := Except.ok.inj hstep
      refine .same ?_ rfl rfl rfl
      rw [tasks, tasks, hidle.2, List.append_nil, List.nil_append]
  | callback calls =>
      obtain ⟨callback, rest, f, hhandlers, hcallback, rfl⟩ := step_callback hstep
      exact .absorb (onCallback_keeps hcallback) (List.suffix_refl _) (tasks_absorb s f) rfl rfl
        (Or.inl rfl)
  | runFunctor result =>
      obtain ⟨task, rest, hfunctors, -, hstep⟩ := step_runFunctor hstep
      obtain ⟨f, hfunctor, -, -, hcalling, htasks, -, hexecuted, -, -, -, hcalled⟩ :=
        execute_eq hstep
      have hhead : s.tasks = task :: (rest ++ s.pendingFunctors) := by
        rw [tasks, hfunctors, List.cons_append]
      refine .absorb (onFunctor_keeps hfunctor) ?_ (htasks.trans (tasks_absorb _ f)) hcalled
        hcalling ?_
      · rw [hhead]
        exact List.suffix_cons _ _
      · by_cases hmessages : task.functor.messages = []
        · rw [hmessages] at hexecuted
          exact Or.inl (hexecuted.trans (List.append_nil _))
        · exact Or.inr (Or.inr ⟨task, _, hhead, hmessages⟩)

/-! ## The order of messages and half-closes -/

/-- The connection can still be shut down. -/
def Open (s : System) : Prop := s.conn.state = .kConnecting ∨ s.conn.state = .kConnected

/-- A queued half-close is not followed by a message. -/
def Blocks (first second : Task) : Prop :=
  (∃ this, first.functor = .shutdownInLoop this) → second.functor.messages = []

/-- What holds in every state of a run of whole calls. -/
structure Disciplined (ptr : ConnId) (s : System) : Prop where
  ordered : s.Ordered ptr
  calling : ∀ thread, s.calling thread = none
  senders : ∀ task ∈ s.tasks, task.functor.messages ≠ [] → ∃ thread, task.sender = some thread
  blocks : s.tasks.Pairwise Blocks
  opened : s.Open → (∀ task ∈ s.tasks, ∀ this, task.functor ≠ .shutdownInLoop this) ∧
    ∀ unsent, .shutdownWrite unsent ∉ s.events

theorem initial_disciplined (ptr loop : ConnId) (name : String) (sockfd : Int)
    (hasWriteCompleteCallback hasHighWaterMarkCallback : Bool) :
    (initial ptr loop name sockfd hasWriteCompleteCallback
      hasHighWaterMarkCallback).Disciplined ptr where
  ordered := initial_ordered ptr loop name sockfd _ _
  calling := fun _ => rfl
  senders := by
    intro task htask hmessages
    rw [List.mem_singleton.mp htask] at hmessages
    exact absurd rfl hmessages
  blocks := List.pairwise_singleton _ _
  opened := by
    refine fun _ => ⟨fun task htask this => ?_, fun unsent => List.not_mem_nil⟩
    rw [List.mem_singleton.mp htask]
    exact nofun

/-- No connection is opened again. -/
theorem opened_before {cause : Cause} {state after : StateE} {before left : List UInt8}
    {sent : List (List UInt8)} {events : List IoEvent}
    (heffect : Effect cause state before sent events after left)
    (hafter : after = .kConnecting ∨ after = .kConnected) :
    state = .kConnecting ∨ state = .kConnected := by
  cases heffect <;> simp_all

/-- Only `shutdown` on the loop thread and a queued functor half-close. -/
theorem cause_halfClose (hcause : s.cause action = .halfClose) :
    (action = .shutdownDirect ∧ s.conn.state = .kConnected) ∨
      ∃ task rest this, s.tasks = task :: rest ∧ task.functor = .shutdownInLoop this := by
  cases action with
  | shutdownDirect =>
      simp only [cause, causeOfShutdown, true_and] at hcause
      split at hcause
      next hconnected => exact Or.inl ⟨rfl, hconnected⟩
      next => cases hcause
  | callback calls =>
      simp only [cause] at hcause
      split at hcause
      next callback _ _ => cases callback <;> cases hcause
      next => cases hcause
  | runFunctor result =>
      simp only [cause] at hcause
      split at hcause
      next task rest hfunctors =>
        refine Or.inr ⟨task, rest ++ s.pendingFunctors, ?_⟩
        cases hfunctor : task.functor with
        | shutdownInLoop this => exact ⟨this, by rw [tasks, hfunctors, List.cons_append], rfl⟩
        | connectEstablished | connectDestroyed | sendInLoop | removeConnectionInLoop
        | writeCompleteCallback | highWaterMarkCallback =>
            rw [hfunctor] at hcause
            cases hcause
      next => cases hcause
  | _ => cases hcause

theorem not_open_shutdownDirect (hconnected : s.conn.state = .kConnected)
    (hstep : step ptr s .shutdownDirect = .ok next) : ¬ next.Open := by
  obtain rfl := Except.ok.inj hstep
  have hstate : (s.absorb (TcpConnection.shutdown ptr true s.frame)).conn.state =
      .kDisconnecting := (shutdown_state ptr true s.frame).trans (if_pos hconnected)
  unfold Open
  rw [hstate]
  exact nofun

/-- The messages of other threads that are queued, if every message has a sender. -/
theorem queued_messages (hsenders : ∀ task ∈ s.tasks, task.functor.messages ≠ [] →
    ∃ thread, task.sender = some thread) :
    (∀ thread, s.queuedBy thread = []) ↔ ∀ task ∈ s.tasks, task.functor.messages = [] := by
  unfold queuedBy
  simp only [List.flatMap_eq_nil_iff]
  constructor
  · intro hnone task htask
    by_contra hmessages
    obtain ⟨thread, hsender⟩ := hsenders task htask hmessages
    have hempty := hnone thread task htask
    rw [Task.sentBy, if_pos hsender] at hempty
    exact hmessages hempty
  · intro hnone thread task htask
    unfold Task.sentBy
    split
    · exact hnone task htask
    · rfl

/-- All messages have been handed to `sendInLoop` when none is queued. -/
theorem Disciplined.handed_iff (hs : s.Disciplined ptr) :
    (∀ thread, s.executedBy thread = s.calledBy thread) ↔
      ∀ task ∈ s.tasks, task.functor.messages = [] := by
  rw [← queued_messages hs.senders]
  refine forall_congr' fun thread => ?_
  have horder := hs.ordered.inOrder thread
  rw [hs.calling thread, Option.toList_none, List.append_nil] at horder
  rw [← horder]
  exact List.self_eq_append_right

/-- The step of a message that another thread queues. -/
theorem Disciplined.sendFrom (hs : s.Disciplined ptr) (thread : ThreadId) (buf : CppString)
    (hordered : (s.sendFrom ptr thread buf).Ordered ptr) :
    (s.sendFrom ptr thread buf).Disciplined ptr := by
  unfold System.sendFrom at hordered ⊢
  split
  next hconnected =>
    rw [if_pos hconnected] at hordered
    have htasks (task : Task) : s.functors ++ (s.pendingFunctors ++ [task]) = s.tasks ++ [task] :=
      (List.append_assoc _ _ _).symm
    obtain ⟨hnone, hevents⟩ := hs.opened (Or.inr hconnected)
    refine ⟨hordered, hs.calling, fun task htask hmessages => ?_, ?_, fun _ => ⟨?_, hevents⟩⟩
    · rw [tasks, htasks] at htask
      rcases List.mem_append.mp htask with hold | hnew
      · exact hs.senders task hold hmessages
      · exact ⟨thread, by rw [List.mem_singleton.mp hnew]⟩
    · rw [tasks, htasks, List.pairwise_append]
      refine ⟨hs.blocks, List.pairwise_singleton _ _, ?_⟩
      rintro first hfirst - - ⟨this, hthis⟩
      exact absurd hthis (hnone first hfirst this)
    · intro task htask
      rw [tasks, htasks] at htask
      rcases List.mem_append.mp htask with hold | hnew
      · exact hnone task hold
      · rw [List.mem_singleton.mp hnew]
        rintro _ ⟨⟩
  next => exact hs

theorem Disciplined.step (hs : s.Disciplined ptr) (hwhole : action.halfSend = false)
    (hstep : step ptr s action = .ok next) : next.Disciplined ptr := by
  obtain ⟨⟨old, new, htasks, hold, hnew⟩, -, hcalling, -⟩ := step_passes hwhole hstep
  obtain ⟨-, sent, events, hmoves⟩ := step_ok hs.ordered.invariant hstep
  have hsubset := hold.subset
  refine ⟨step_ordered s action next hs.ordered hstep, fun thread => ?_, ?_, ?_, fun hopen => ?_⟩
  · rw [hcalling]
    exact hs.calling thread
  · intro task htask hmessages
    rw [htasks] at htask
    rcases List.mem_append.mp htask with hmem | hmem
    · exact hs.senders task (hsubset hmem) hmessages
    · exact absurd (hnew task hmem).1 hmessages
  · rw [htasks, List.pairwise_append]
    refine ⟨hs.blocks.sublist hold.sublist, ?_, fun _ _ second hsecond _ => (hnew second hsecond).1⟩
    exact List.pairwise_of_forall_mem_list fun _ _ second hsecond _ => (hnew second hsecond).1
  · obtain ⟨hnone, hevents⟩ := hs.opened (opened_before hmoves.effect hopen)
    refine ⟨fun task htask this hthis => ?_, fun unsent hmem => ?_⟩
    · rw [htasks] at htask
      rcases List.mem_append.mp htask with hmem | hmem
      · exact hnone task (hsubset hmem) this hthis
      · obtain ⟨hconnecting, hconnected⟩ := (hnew task hmem).2 this hthis
        exact hopen.elim hconnecting hconnected
    · rw [hmoves.calls] at hmem
      rcases List.mem_append.mp hmem with hbefore | hcall
      · exact hevents unsent hbefore
      · rcases cause_halfClose (of_not_not fun hother =>
          hmoves.effect.not_halfCloses hother unsent hcall) with ⟨rfl, hconnected⟩ |
          ⟨task, rest, this, hhead, hthis⟩
        · exact not_open_shutdownDirect hconnected hstep hopen
        · exact hnone task (by rw [hhead]; exact List.mem_cons_self) this hthis

/-! ## The law -/

/-- The second call is not a write if the first is a half-close. -/
def Precedes (first second : IoEvent) : Prop :=
  (∃ unsent, first = .shutdownWrite unsent) → ∀ offered result, second ≠ .write offered result

/-- A half-close is followed by no write, and preceded by the messages of all sends. -/
structure HalfClosesLast (s : System) : Prop where
  silent : s.events.Pairwise Precedes
  handed : ∀ unsent, .shutdownWrite unsent ∈ s.events →
    ∀ thread, s.executedBy thread = s.calledBy thread

/-- A `shutdown` on the loop thread that half-closes finds no message in the queue. -/
def OvertakesNothing (s : System) : Call → Prop
  | .other .shutdownDirect =>
      s.conn.state = .kConnected → ∀ task ∈ s.tasks, task.functor.messages = []
  | _ => True

instance (s : System) (call : Call) : Decidable (s.OvertakesNothing call) := by
  unfold OvertakesNothing
  split <;> infer_instance

/-- Only a message makes writes. -/
theorem no_write {cause : Cause} {state after : StateE} {before left : List UInt8}
    {events : List IoEvent} (heffect : Effect cause state before [] events after left)
    (offered : List UInt8) (result : WriteResult) : .write offered result ∉ events := by
  cases heffect <;> simp

/-- One member function does not write after a half-close. -/
theorem effect_precedes {cause : Cause} {state after : StateE} {before left : List UInt8}
    {sent : List (List UInt8)} {events : List IoEvent}
    (heffect : Effect cause state before sent events after left) : events.Pairwise Precedes := by
  by_cases hcause : cause = .halfClose
  · rw [heffect.halfCloses hcause]
    exact List.pairwise_singleton _ _
  · refine List.pairwise_of_forall_mem_list ?_
    rintro first hfirst - - ⟨unsent, rfl⟩
    exact absurd hfirst (heffect.not_halfCloses hcause unsent)

/-- After a half-close the queue holds no message, and nothing is written. -/
theorem HalfClosesLast.step (hs : s.Disciplined ptr) (hlaw : s.HalfClosesLast) {unsent : Nat}
    (hclosed : .shutdownWrite unsent ∈ s.events) (hwhole : action.halfSend = false)
    (hstep : step ptr s action = .ok next) : next.HalfClosesLast := by
  obtain ⟨-, sent, events, hmoves⟩ := step_ok hs.ordered.invariant hstep
  obtain ⟨-, hcalled, -, hexecuted⟩ := step_passes hwhole hstep
  have hempty := hs.handed_iff.mp (hlaw.handed unsent hclosed)
  have hsame : next.executed = s.executed := by
    rcases hexecuted with hsame | hconnected | ⟨task, rest, hhead, hmessages⟩
    · exact hsame
    · exact absurd hclosed ((hs.opened (Or.inr hconnected)).2 unsent)
    · exact absurd (hempty task (by rw [hhead]; exact List.mem_cons_self)) hmessages
  have hnone : sent = [] := by
    have hmessages := hmoves.messages
    rw [hsame] at hmessages
    exact List.self_eq_append_right.mp hmessages
  subst hnone
  constructor
  · rw [hmoves.calls, List.pairwise_append]
    refine ⟨hlaw.silent, effect_precedes hmoves.effect, ?_⟩
    rintro first - second hsecond - offered result rfl
    exact no_write hmoves.effect offered result hsecond
  · intro _ _ thread
    unfold executedBy calledBy
    rw [hsame, hcalled]
    exact hlaw.handed unsent hclosed thread

theorem overtakesNothing_iff : s.OvertakesNothing (.other action) ↔
    (action = .shutdownDirect → s.conn.state = .kConnected →
      ∀ task ∈ s.tasks, task.functor.messages = []) := by
  cases action <;> simp [OvertakesNothing]

/-- The first half-close finds all messages handed over, if none is queued. -/
theorem first_halfClose (hs : s.Disciplined ptr) (hlaw : s.HalfClosesLast)
    (hopen : ∀ unsent, .shutdownWrite unsent ∉ s.events) (hwhole : action.halfSend = false)
    (hcause : s.cause action = .halfClose) (hstep : step ptr s action = .ok next) :
    next.HalfClosesLast ↔ ∀ task ∈ s.tasks, task.functor.messages = [] := by
  obtain ⟨-, sent, events, hmoves⟩ := step_ok hs.ordered.invariant hstep
  obtain ⟨-, hcalled, -, hexecuted⟩ := step_passes hwhole hstep
  have hevents := hmoves.effect.halfCloses hcause
  have hsilent : next.events.Pairwise Precedes := by
    rw [hmoves.calls, List.pairwise_append]
    refine ⟨hlaw.silent, effect_precedes hmoves.effect, ?_⟩
    rintro first hfirst - - ⟨unsent, rfl⟩
    exact absurd hfirst (hopen unsent)
  have hsame : next.executed = s.executed := by
    rcases cause_halfClose hcause with ⟨rfl, -⟩ | ⟨task, rest, this, hhead, hthis⟩
    · obtain rfl := Except.ok.inj hstep
      rfl
    · rcases hexecuted with hsame | hconnected | ⟨other, others, hother, hmessages⟩
      · exact hsame
      · have hmem : task ∈ s.tasks := by
          rw [hhead]
          exact List.mem_cons_self
        have hnone := (hs.opened (Or.inr hconnected)).1 task hmem
        exact absurd hthis (hnone this)
      · obtain ⟨rfl, -⟩ := List.cons.inj (hhead.symm.trans hother)
        rw [hthis] at hmessages
        exact absurd rfl hmessages
  have hhanded (thread : ThreadId) : next.executedBy thread = next.calledBy thread ↔
      s.executedBy thread = s.calledBy thread := by
    unfold executedBy calledBy
    rw [hsame, hcalled]
  rw [← hs.handed_iff]
  constructor
  · intro hnext thread
    have hmem : .shutdownWrite s.conn.backlog.length ∈ next.events := by
      rw [hmoves.calls, hevents]
      exact List.mem_append_right _ List.mem_cons_self
    exact (hhanded thread).mp (hnext.handed _ hmem thread)
  · exact fun hall => ⟨hsilent, fun _ _ thread => (hhanded thread).mpr (hall thread)⟩

theorem callStep_halfClosesLast {call : Call} (hs : s.Disciplined ptr) (hlaw : s.HalfClosesLast)
    (hstep : callStep ptr s call = .ok next) :
    next.HalfClosesLast ↔ s.OvertakesNothing call := by
  cases call with
  | sendFrom thread buf =>
      obtain rfl := Except.ok.inj hstep
      refine iff_of_true ?_ trivial
      unfold System.sendFrom
      split
      next hconnected =>
        exact ⟨hlaw.silent, fun unsent hmem =>
          absurd hmem ((hs.opened (Or.inr hconnected)).2 unsent)⟩
      next => exact hlaw
  | other action =>
      simp only [callStep] at hstep
      split at hstep
      next => cases hstep
      next hwhole =>
        rw [Bool.not_eq_true] at hwhole
        rw [overtakesNothing_iff]
        by_cases hclosed : ∃ unsent, .shutdownWrite unsent ∈ s.events
        · obtain ⟨unsent, hmem⟩ := hclosed
          refine iff_of_true (hlaw.step hs hmem hwhole hstep) fun _ hconnected => ?_
          exact absurd hmem ((hs.opened (Or.inr hconnected)).2 unsent)
        · rw [not_exists] at hclosed
          by_cases hcause : s.cause action = .halfClose
          · rw [first_halfClose hs hlaw hclosed hwhole hcause hstep]
            refine ⟨fun hall _ _ => hall, fun hmeets => ?_⟩
            rcases cause_halfClose hcause with ⟨rfl, hconnected⟩ | ⟨task, rest, this, hhead, hthis⟩
            · exact hmeets rfl hconnected
            · -- a queued half-close has no message behind it
              have hblocks := hs.blocks
              rw [hhead, List.pairwise_cons] at hblocks
              rw [hhead]
              intro other hother
              rcases List.mem_cons.mp hother with rfl | hlater
              · rw [hthis]
                rfl
              · exact hblocks.1 other hlater ⟨this, hthis⟩
          · obtain ⟨-, sent, events, hmoves⟩ := step_ok hs.ordered.invariant hstep
            have hopen (unsent : Nat) : .shutdownWrite unsent ∉ next.events := by
              rw [hmoves.calls, List.mem_append, not_or]
              exact ⟨hclosed unsent, hmoves.effect.not_halfCloses hcause unsent⟩
            refine iff_of_true ⟨?_, fun unsent hmem => absurd hmem (hopen unsent)⟩ ?_
            · refine List.pairwise_of_forall_mem_list ?_
              rintro first hfirst - - ⟨unsent, rfl⟩
              exact absurd hfirst (hopen unsent)
            · rintro rfl hconnected
              exact absurd (by simp [cause, causeOfShutdown, hconnected]) hcause

theorem callStep_disciplined (s : System) (call : Call) (next : System) (hs : s.Disciplined ptr)
    (hstep : callStep ptr s call = .ok next) : next.Disciplined ptr := by
  cases call with
  | sendFrom thread buf =>
      obtain ⟨schedule, hrun⟩ := callStep_run hs.calling hstep
      obtain rfl := Except.ok.inj hstep
      exact hs.sendFrom thread buf (run_invariant step_ordered hs.ordered hrun)
  | other action =>
      simp only [callStep] at hstep
      split at hstep
      next => cases hstep
      next hwhole => exact hs.step (Bool.eq_false_of_not_eq_true hwhole) hstep

/-- In every state of a run of whole calls the half-close comes last, if and only if
every `shutdown` on the loop thread that half-closes finds no message queued. -/
theorem halfCloses_last_iff {loop : ConnId} {name : String} {sockfd : Int}
    {hasWriteCompleteCallback hasHighWaterMarkCallback : Bool} {schedule : List Call}
    (hrun : run (callStep ptr) (initial ptr loop name sockfd hasWriteCompleteCallback
      hasHighWaterMarkCallback) schedule = .ok s) :
    EveryState (callStep ptr) HalfClosesLast (initial ptr loop name sockfd
        hasWriteCompleteCallback hasHighWaterMarkCallback) schedule ↔
      EveryStep (callStep ptr) OvertakesNothing (initial ptr loop name sockfd
        hasWriteCompleteCallback hasHighWaterMarkCallback) schedule := by
  apply everyState_iff _ _ (initial_disciplined ptr loop name sockfd _ _) _ hrun
  · exact fun s call next hs _ hstep => callStep_disciplined s call next hs hstep
  · exact fun s call next hs hlaw hstep => callStep_halfClosesLast hs hlaw hstep
  · exact ⟨List.Pairwise.nil, fun _ hmem => absurd hmem List.not_mem_nil⟩

/-- Thread 1 sends and shuts down; the loop thread executes both. -/
def sendThenShutdown : List Call :=
  [.other .swap, .other (.runFunctor (.accepted 0)), .sendFrom 1 ⟨[1, 2], by decide⟩,
    .other .shutdown, .other .swap, .other (.runFunctor (.accepted 2)),
    .other (.runFunctor (.accepted 0))]

theorem halfCloses_last_iff_sendThenShutdown :
    ∃ s, run (callStep 0) plain sendThenShutdown = .ok s ∧
      .shutdownWrite 0 ∈ s.events ∧ s.HalfClosesLast := by
  have hends : ends (fun s => decide (.shutdownWrite 0 ∈ s.events))
      (run (callStep 0) plain sendThenShutdown) = true := by decide +kernel
  obtain ⟨s, hrun, hmem⟩ := exists_of_ends hends
  have hmeets : EveryStep (callStep 0) OvertakesNothing plain sendThenShutdown := by
    decide +kernel
  exact ⟨s, hrun, of_decide_eq_true hmem, ((halfCloses_last_iff hrun).mpr hmeets).final hrun⟩

/-- Thread 1 sends, and the loop thread shuts down before it executes the message. -/
def shutdownOvertakes : List Call :=
  [.other .swap, .other (.runFunctor (.accepted 0)), .sendFrom 1 ⟨[1, 2], by decide⟩,
    .other .shutdownDirect, .other .swap, .other (.runFunctor (.failed .epipe))]

/-- A message is written after the half-close. -/
theorem halfCloses_last_false : ¬ ∀ (schedule : List Call) (s : System),
    run (callStep 0) plain schedule = .ok s → s.HalfClosesLast := by
  intro hlast
  have hends : ends (fun s => decide (s.events =
      [.connectionCallback .kConnected, .shutdownWrite 0, .write [1, 2] (.failed .epipe)]))
      (run (callStep 0) plain shutdownOvertakes) = true := by decide +kernel
  obtain ⟨s, hrun, hcheck⟩ := exists_of_ends hends
  have hsilent := (hlast shutdownOvertakes s hrun).silent
  rw [of_decide_eq_true hcheck] at hsilent
  simp [Precedes] at hsilent

end System

end TcpConnection

end Muduo
