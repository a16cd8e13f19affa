import Muduo.TcpConnection.Effect
import Muduo.TcpConnection.System

/-! # The invariant of a connection

Until `connectEstablished` has run, it is the first task of the loop and nothing
else can happen; afterwards it is never queued again. Under the invariant every
step of the system performs one effect on the connection.
-/

namespace Muduo

/-- A new buffer is the one the constructor builds. -/
theorem Buffer.create_initial : Buffer.create Buffer.kInitialSize = .ok Buffer.initial := rfl

theorem Buffer.initial_valid : Buffer.initial.Valid := by
  have hlength : Buffer.initial.buffer.length = kCheapPrepend + kInitialSize :=
    List.length_replicate
  refine ⟨le_rfl, le_rfl, ?_, ?_⟩
  · rw [hlength]
    exact Nat.le_add_right _ _
  · rw [hlength]
    decide

@[simp] theorem Buffer.initial_readable : Buffer.initial.readable = [] := by
  unfold Buffer.initial Buffer.readable
  rw [Nat.sub_self, List.take_zero]

namespace TcpConnection

namespace System

variable {ptr : ConnId} {s next : System}

/-- The state before `connectEstablished`. -/
structure Fresh (ptr : ConnId) (s : System) : Prop where
  tasks : ∃ rest, s.tasks = ⟨.connectEstablished ptr, none⟩ :: rest ∧
    ∀ task ∈ rest, task.functor = .connectDestroyed ptr
  backlog : s.conn.backlog = []
  index : s.conn.channel.index = .kNew
  idle : s.Idle
  calling : ∀ thread, s.calling thread = none
  events : s.events = []
  executed : s.executed = []

structure Invariant (ptr : ConnId) (s : System) : Prop where
  sound : s.frame.Sound ptr
  admissible : ∀ task ∈ s.tasks, task.functor.Admissible ptr
  calling : ∀ thread buf, s.calling thread = some buf → buf.length ≤ maxSize
  connecting : s.conn.state = .kConnecting → s.Fresh ptr
  established : s.conn.state ≠ .kConnecting →
    ∀ task ∈ s.tasks, task.functor ≠ .connectEstablished ptr
  registered : s.destroyed = false → s.frame.Registered

theorem initial_invariant (ptr loop : ConnId) (name : String) (sockfd : Int)
    (hasWriteCompleteCallback hasHighWaterMarkCallback : Bool) :
    (initial ptr loop name sockfd hasWriteCompleteCallback hasHighWaterMarkCallback).Invariant
      ptr where
  sound := by
    refine ⟨Buffer.initial_valid, Buffer.initial_valid, ?_, ?_⟩
    · exact ⟨rfl, rfl⟩
    · rfl
  admissible := by
    intro task hmem
    have htask : task = ⟨.connectEstablished ptr, none⟩ := List.mem_singleton.mp hmem
    rw [htask]
    exact ⟨rfl, by simp [Functor.messages]⟩
  calling := nofun
  connecting := fun _ =>
    ⟨⟨[], rfl, nofun⟩, Buffer.initial_readable, rfl, ⟨rfl, rfl⟩, fun _ => rfl, rfl, rfl⟩
  established := fun hstate => absurd rfl hstate
  registered := by
    intro _ hstate
    rcases hstate with hstate | hstate <;> cases hstate

/-- What one step does to the connection: it executes some messages and makes
some calls, with one effect. -/
structure Moves (cause : Cause) (s next : System) (sent : List (List UInt8))
    (events : List IoEvent) : Prop where
  calls : next.events = s.events ++ events
  messages : next.executed.map Prod.snd = s.executed.map Prod.snd ++ sent
  effect : Effect cause s.conn.state s.conn.backlog sent events next.conn.state next.conn.backlog
  index : Reindexes cause s.conn next.conn
  revents : s.active = true → next.conn.channel.revents = s.conn.channel.revents

/-- A step that leaves the state, the output and the records of calls alone. -/
theorem Moves.quiet (hstate : next.conn.state = s.conn.state)
    (hbacklog : next.conn.backlog = s.conn.backlog) (hevents : next.events = s.events)
    (hexecuted : next.executed = s.executed)
    (hindex : next.conn.channel.index = s.conn.channel.index)
    (hrevents : s.active = true → next.conn.channel.revents = s.conn.channel.revents) :
    Moves .plain s next [] [] := by
  refine ⟨by simp [hevents], by simp [hexecuted], ?_,
    .of_same hindex (by rw [hstate]; exact id), hrevents⟩
  rw [hstate, hbacklog]
  exact .quiet _ _

/-- A step that takes over the result of a member function. -/
theorem Moves.absorb {cause : Cause} {sent : List (List UInt8)} {f : Frame}
    (hperforms : Performs ptr cause sent s.frame f) (hconn : next.conn = f.conn)
    (hevents : next.events = s.events ++ f.events)
    (hexecuted : next.executed.map Prod.snd = s.executed.map Prod.snd ++ sent) :
    ∃ events, Moves cause s next sent events := by
  obtain ⟨events, hcalls, heffect⟩ := hperforms.effect
  rw [frame, List.nil_append] at hcalls
  refine ⟨events, ⟨by rw [hevents, hcalls], hexecuted, ?_, ?_, fun _ => ?_⟩⟩ <;> rw [hconn]
  · exact heffect
  · exact hperforms.index
  · exact hperforms.keeps.revents

theorem mem_tasks_absorb {f : Frame} (htasks : next.tasks = (s.absorb f).tasks) {task : Task}
    (hmem : task ∈ next.tasks) : task ∈ s.tasks ∨ task.functor ∈ f.queued := by
  rw [htasks] at hmem
  simp only [tasks, System.absorb, List.mem_append, List.mem_map] at hmem ⊢
  rcases hmem with hmem | hmem | ⟨functor, hfunctor, rfl⟩
  · exact Or.inl (Or.inl hmem)
  · exact Or.inl (Or.inr hmem)
  · exact Or.inr hfunctor

/-- A member function that leaves the connection open keeps the invariant when
the step queues nothing but what the function queues. -/
theorem Invariant.absorb (hs : s.Invariant ptr) {cause : Cause} {sent : List (List UInt8)}
    {f : Frame} (hperforms : Performs ptr cause sent s.frame f)
    (hopen : f.conn.state ≠ .kConnecting)
    (hconn : next.conn = f.conn) (hpoller : next.poller = f.poller)
    (hcalling : next.calling = s.calling)
    (htasks : ∀ task ∈ next.tasks, task ∈ s.tasks ∧ task.functor ≠ .connectEstablished ptr ∨
      task.functor ∈ f.queued)
    (hregistered : next.destroyed = false → f.Registered) : next.Invariant ptr := by
  have hfollows : ∀ functor ∈ f.queued, functor.Follows ptr := by
    obtain ⟨queued, hqueued, hfollows⟩ := hperforms.queued
    rw [frame, List.nil_append] at hqueued
    exact hqueued ▸ hfollows
  constructor
  · have hsound := hperforms.sound
    refine ⟨?_, ?_, ?_, ?_⟩ <;> simp only [frame, hconn, hpoller]
    · exact hsound.input
    · exact hsound.output
    · exact hsound.tracks
    · exact hsound.mask
  · intro task hmem
    rcases htasks task hmem with ⟨hold, -⟩ | hnew
    · exact hs.admissible task hold
    · exact (hfollows _ hnew).admissible.1
  · rw [hcalling]
    exact hs.calling
  · rw [hconn]
    exact fun hconnecting => absurd hconnecting hopen
  · intro _ task hmem
    rcases htasks task hmem with ⟨-, hother⟩ | hnew
    · exact hother
    · exact (hfollows _ hnew).admissible.2.1
  · intro hdestroyed
    unfold Frame.Registered
    simp only [frame, hconn]
    exact hregistered hdestroyed

/-- The same for a step that adds the queued functors to the tasks of an open
connection. -/
theorem Invariant.absorb_open (hs : s.Invariant ptr) (hopen : s.conn.state ≠ .kConnecting)
    {cause : Cause} {sent : List (List UInt8)} {f : Frame}
    (hperforms : Performs ptr cause sent s.frame f)
    (hconn : next.conn = f.conn) (hpoller : next.poller = f.poller)
    (hcalling : next.calling = s.calling) (htasks : next.tasks = (s.absorb f).tasks)
    (hregistered : next.destroyed = false → f.Registered) : next.Invariant ptr := by
  obtain ⟨events, -, heffect⟩ := hperforms.effect
  refine hs.absorb hperforms (heffect.stays_open hopen) hconn hpoller hcalling ?_ hregistered
  intro task hmem
  rcases mem_tasks_absorb htasks hmem with hold | hnew
  · exact Or.inl ⟨hold, hs.established hopen task hold⟩
  · exact Or.inr hnew

/-- User code changes settings and takes bytes out of the input buffer. -/
theorem Invariant.settings (hs : s.Invariant ptr) (hinput : next.conn.inputBuffer.Valid)
    (houtput : next.conn.outputBuffer = s.conn.outputBuffer)
    (hchannel : next.conn.channel = s.conn.channel) (hstate : next.conn.state = s.conn.state)
    (hrest : next = { s with conn := next.conn }) : next.Invariant ptr := by
  have hpoller : next.poller = s.poller := by rw [hrest]
  have htasks : next.tasks = s.tasks := by rw [hrest]; rfl
  have hcalling : next.calling = s.calling := by rw [hrest]
  have hbacklog : next.conn.backlog = s.conn.backlog := by rw [backlog, houtput, backlog]
  constructor
  · refine ⟨hinput, ?_, ?_, ?_⟩
    · rw [frame, houtput]
      exact hs.sound.output
    · rw [frame, hchannel, hpoller]
      exact hs.sound.tracks
    · rw [frame, hchannel, hstate, hbacklog]
      exact hs.sound.mask
  · rw [htasks]
    exact hs.admissible
  · rw [hcalling]
    exact hs.calling
  · intro hconnecting
    rw [hstate] at hconnecting
    obtain ⟨hqueue, hempty, hindex, hidle, hnone, hevents, hexecuted⟩ := hs.connecting hconnecting
    refine ⟨by rw [htasks]; exact hqueue, by rw [hbacklog]; exact hempty,
      by rw [hchannel]; exact hindex, ?_, by rw [hcalling]; exact hnone, ?_, ?_⟩
    · rw [hrest]
      exact hidle
    · rw [hrest]
      exact hevents
    · rw [hrest]
      exact hexecuted
  · rw [hstate, htasks]
    exact hs.established
  · intro hdestroyed hstays
    rw [hrest] at hdestroyed
    rw [frame, hchannel]
    unfold Established frame at hstays
    rw [hstate] at hstays
    exact hs.registered hdestroyed hstays

@[simp] theorem absorb_frame (s : System) : s.absorb s.frame = s := by
  simp [System.absorb, frame]

/-! ## Steps -/

/-- The kind of member function a step runs. -/
def cause (s : System) : Action → Cause
  | .shutdownDirect => causeOfShutdown true s.conn.state
  | .connectDestroyedDirect => .destroy
  | .callback _ =>
      match s.handlers with
      | callback :: _ => causeOfCallback callback
      | [] => .plain
  | .runFunctor _ =>
      match s.functors with
      | task :: _ => causeOfFunctor task.functor
      | [] => .plain
  | _ => .plain

/-- A step that keeps the connection, the tasks and the records. -/
theorem Invariant.of_same (hs : s.Invariant ptr) (hconn : next.conn = s.conn)
    (hpoller : next.poller = s.poller) (htasks : next.tasks = s.tasks)
    (hcalling : ∀ thread buf, next.calling thread = some buf → buf.length ≤ maxSize)
    (hdestroyed : next.destroyed = s.destroyed)
    (hconnecting : s.conn.state = .kConnecting → next.Fresh ptr) : next.Invariant ptr := by
  have hframe : next.frame = s.frame := by rw [frame, hconn, hpoller, frame]
  constructor
  · rw [hframe]
    exact hs.sound
  · rw [htasks]
    exact hs.admissible
  · exact hcalling
  · rw [hconn]
    exact hconnecting
  · rw [hconn, htasks]
    exact hs.established
  · rw [hdestroyed, hframe]
    exact hs.registered

theorem send_ok (hs : s.Invariant ptr) {thread : ThreadId} {buf : CppString}
    (hstep : step ptr s (.send thread buf) = .ok next) :
    next.Invariant ptr ∧ Moves .plain s next [] [] := by
  obtain ⟨-, hstep⟩ := Except.guard_eq_ok.mp hstep
  split at hstep
  next hconnected =>
    rw [Except.ok.injEq] at hstep
    subst hstep
    refine ⟨hs.of_same rfl rfl rfl ?_ rfl (by simp [hconnected]),
      Moves.quiet rfl rfl rfl rfl rfl fun _ => rfl⟩
    intro other message hmessage
    dsimp only at hmessage
    by_cases hother : other = thread
    · subst hother
      rw [Function.update_self, Option.some.injEq] at hmessage
      exact hmessage ▸ buf.fits
    · rw [Function.update_of_ne hother] at hmessage
      exact hs.calling other message hmessage
  next =>
    rw [Except.ok.injEq] at hstep
    exact hstep ▸ ⟨hs, Moves.quiet rfl rfl rfl rfl rfl fun _ => rfl⟩

/-- Queueing an admissible task keeps the invariant of an open connection. -/
theorem Invariant.queue (hs : s.Invariant ptr) (task : Task)
    (hadmissible : task.functor.Admissible ptr)
    (hother : task.functor ≠ .connectEstablished ptr)
    (hconn : next.conn = s.conn) (hpoller : next.poller = s.poller)
    (htasks : next.tasks = s.tasks ++ [task])
    (hcalling : ∀ thread buf, next.calling thread = some buf → buf.length ≤ maxSize)
    (hdestroyed : next.destroyed = s.destroyed)
    (hconnecting : s.conn.state = .kConnecting → next.Fresh ptr) : next.Invariant ptr := by
  have hframe : next.frame = s.frame := by rw [frame, hconn, hpoller, frame]
  constructor
  · rw [hframe]
    exact hs.sound
  · rw [htasks]
    intro other hmem
    rcases List.mem_append.mp hmem with hold | hnew
    · exact hs.admissible other hold
    · exact List.mem_singleton.mp hnew ▸ hadmissible
  · exact hcalling
  · rw [hconn]
    exact hconnecting
  · rw [hconn, htasks]
    intro hopen other hmem
    rcases List.mem_append.mp hmem with hold | hnew
    · exact hs.established hopen other hold
    · exact List.mem_singleton.mp hnew ▸ hother
  · rw [hdestroyed, hframe]
    exact hs.registered

theorem queueSend_ok (hs : s.Invariant ptr) {thread : ThreadId}
    (hstep : step ptr s (.queueSend thread) = .ok next) :
    next.Invariant ptr ∧ Moves .plain s next [] [] := by
  obtain ⟨buf, hbuf, rfl⟩ := step_queueSend hstep
  refine ⟨hs.queue ⟨.sendInLoop ptr buf, some thread⟩ ?_ (by simp) rfl rfl ?_ ?_ rfl ?_,
    Moves.quiet rfl rfl rfl rfl rfl fun _ => rfl⟩
  · refine ⟨rfl, ?_⟩
    simp only [Functor.messages, List.mem_singleton, forall_eq]
    exact hs.calling thread buf hbuf
  · exact (List.append_assoc _ _ _).symm
  · intro other message hmessage
    dsimp only at hmessage
    by_cases hother : other = thread
    · rw [hother, Function.update_self] at hmessage
      cases hmessage
    · rw [Function.update_of_ne hother] at hmessage
      exact hs.calling other message hmessage
  · intro hconnecting
    rw [(hs.connecting hconnecting).calling thread] at hbuf
    cases hbuf

theorem queueConnectDestroyed_ok (hs : s.Invariant ptr)
    (hstep : step ptr s .queueConnectDestroyed = .ok next) :
    next.Invariant ptr ∧ Moves .plain s next [] [] := by
  simp only [step, Except.ok.injEq] at hstep
  subst hstep
  have htasks : s.functors ++ (s.pendingFunctors ++ [⟨.connectDestroyed ptr, none⟩]) =
      s.tasks ++ [⟨.connectDestroyed ptr, none⟩] := (List.append_assoc _ _ _).symm
  refine ⟨hs.queue ⟨.connectDestroyed ptr, none⟩ ⟨rfl, by simp [Functor.messages]⟩
    (by simp) rfl rfl htasks hs.calling rfl ?_, Moves.quiet rfl rfl rfl rfl rfl fun _ => rfl⟩
  intro hconnecting
  have hfresh := hs.connecting hconnecting
  obtain ⟨rest, hrest, hdestroys⟩ := hfresh.tasks
  refine { hfresh with tasks := ⟨rest ++ [⟨.connectDestroyed ptr, none⟩], ?_, ?_⟩ }
  · exact htasks.trans (by rw [hrest, List.cons_append])
  · intro task hmem
    rcases List.mem_append.mp hmem with hold | hnew
    · exact hdestroys task hold
    · rw [List.mem_singleton.mp hnew]

theorem sendDirect_ok (hs : s.Invariant ptr) {buf : CppString} {result : WriteResult}
    (hstep : step ptr s (.sendDirect buf result) = .ok next) :
    next.Invariant ptr ∧ ∃ sent events, Moves .plain s next sent events := by
  obtain ⟨f, hsend, hnext⟩ := step_sendDirect hstep
  unfold TcpConnection.send at hsend
  by_cases hconnected : s.conn.state = .kConnected
  · have hopen : s.conn.state ≠ .kConnecting := by simp [hconnected]
    simp only [frame, hconnected, ↓reduceIte] at hsend hnext
    obtain ⟨hperforms, hregistered⟩ := sendInLoop_performs hs.sound hopen buf.fits hsend
    subst hnext
    refine ⟨hs.absorb_open hopen hperforms rfl rfl rfl rfl
      fun hdestroyed => hregistered (hs.registered hdestroyed), [buf.bytes], ?_⟩
    exact Moves.absorb hperforms rfl rfl (by simp)
  · simp only [frame, hconnected, ↓reduceIte, Except.ok.injEq] at hsend hnext
    subst hsend
    obtain rfl : next = s := hnext.trans s.absorb_frame
    exact ⟨hs, [], [], Moves.quiet rfl rfl rfl rfl rfl fun _ => rfl⟩

theorem shutdown_ok (hs : s.Invariant ptr) (inLoopThread : Bool) :
    (s.absorb (TcpConnection.shutdown ptr inLoopThread s.frame)).Invariant ptr ∧
      ∃ events, Moves (causeOfShutdown inLoopThread s.conn.state) s
        (s.absorb (TcpConnection.shutdown ptr inLoopThread s.frame)) [] events := by
  by_cases hconnected : s.conn.state = .kConnected
  · have hopen : s.conn.state ≠ .kConnecting := by simp [hconnected]
    obtain ⟨hperforms, hregistered⟩ := shutdown_performs hs.sound inLoopThread
    exact ⟨hs.absorb_open hopen hperforms rfl rfl rfl rfl
      fun hdestroyed => hregistered (hs.registered hdestroyed),
      Moves.absorb hperforms rfl rfl (by simp [System.absorb])⟩
  · have hsame : TcpConnection.shutdown ptr inLoopThread s.frame = s.frame := if_neg hconnected
    rw [hsame, absorb_frame, causeOfShutdown, if_neg (fun hboth => hconnected hboth.2)]
    exact ⟨hs, [], Moves.quiet rfl rfl rfl rfl rfl fun _ => rfl⟩

theorem connectDestroyedDirect_ok (hs : s.Invariant ptr)
    (hstep : step ptr s .connectDestroyedDirect = .ok next) :
    next.Invariant ptr ∧ ∃ events, Moves .destroy s next [] events := by
  obtain ⟨hopen, f, hdestroy, rfl⟩ := step_connectDestroyedDirect hstep
  have hperforms := connectDestroyed_performs hs.sound hdestroy
  exact ⟨hs.absorb_open hopen hperforms rfl rfl rfl rfl nofun,
    Moves.absorb hperforms rfl rfl (by simp [System.absorb])⟩

/-- An event is only reported for a registered channel, so never before
`connectEstablished`. -/
theorem poll_ok (hs : s.Invariant ptr) {revents : EventMask}
    (hstep : step ptr s (.poll revents) = .ok next) :
    next.Invariant ptr ∧ Moves .plain s next [] [] := by
  obtain ⟨hpoll, hstep⟩ := Except.guard_eq_ok.mp hstep
  obtain rfl := Except.ok.inj hstep
  have hopen : s.conn.state ≠ .kConnecting := by
    intro hconnecting
    have htracks := hs.sound.tracks
    unfold EpollPoller.Tracks at htracks
    simp only [frame, (hs.connecting hconnecting).index] at htracks
    rw [htracks.2] at hpoll
    exact absurd hpoll.2.2 (by simp)
  refine ⟨⟨⟨hs.sound.input, hs.sound.output, hs.sound.tracks, hs.sound.mask⟩, hs.admissible,
    hs.calling, fun hconnecting => absurd hconnecting hopen, hs.established, hs.registered⟩,
    Moves.quiet rfl rfl rfl rfl rfl fun hactive => ?_⟩
  rw [hpoll.1.1] at hactive
  cases hactive

theorem handleEvent_ok (hs : s.Invariant ptr) (hstep : step ptr s .handleEvent = .ok next) :
    next.Invariant ptr ∧ Moves .plain s next [] [] := by
  obtain ⟨hactive, hstep⟩ := Except.guard_eq_ok.mp hstep
  obtain rfl := Except.ok.inj hstep
  refine ⟨hs.of_same rfl rfl rfl hs.calling rfl ?_, Moves.quiet rfl rfl rfl rfl rfl fun _ => rfl⟩
  intro hconnecting
  rw [(hs.connecting hconnecting).idle.1] at hactive
  cases hactive

theorem callback_ok (hs : s.Invariant ptr) {calls : Syscalls}
    (hstep : step ptr s (.callback calls) = .ok next) :
    next.Invariant ptr ∧ ∃ events, Moves (s.cause (.callback calls)) s next [] events := by
  obtain ⟨callback, rest, f, hhandlers, hcallback, rfl⟩ := step_callback hstep
  have hopen : s.conn.state ≠ .kConnecting := by
    intro hconnecting
    rw [(hs.connecting hconnecting).idle.2] at hhandlers
    cases hhandlers
  obtain ⟨hperforms, hregistered⟩ := onCallback_performs hs.sound hcallback
  simp only [cause, hhandlers]
  exact ⟨hs.absorb_open hopen hperforms rfl rfl rfl rfl
    fun hdestroyed => hregistered (hs.registered hdestroyed),
    Moves.absorb hperforms rfl rfl (by simp [System.absorb])⟩

theorem swap_ok (hs : s.Invariant ptr) (hstep : step ptr s .swap = .ok next) :
    next.Invariant ptr ∧ Moves .plain s next [] [] := by
  obtain ⟨hidle, hstep⟩ := Except.guard_eq_ok.mp hstep
  obtain rfl := Except.ok.inj hstep
  have htasks : s.pendingFunctors ++ [] = s.tasks := by
    rw [List.append_nil, tasks, hidle.2, List.nil_append]
  refine ⟨hs.of_same rfl rfl htasks hs.calling rfl ?_, Moves.quiet rfl rfl rfl rfl rfl fun _ => rfl⟩
  intro hconnecting
  have hfresh := hs.connecting hconnecting
  exact { hfresh with tasks := by rw [tasks, htasks]; exact hfresh.tasks }

/-- The records a functor leaves: a message is executed, and `connectDestroyed`
is remembered. -/
theorem execute_eq {task : Task} {result : WriteResult}
    (hexecute : execute task result s = .ok next) :
    ∃ f, onFunctor task.functor result s.frame = .ok f ∧ next.conn = f.conn ∧
      next.poller = f.poller ∧ next.calling = s.calling ∧ next.tasks = (s.absorb f).tasks ∧
      next.events = s.events ++ f.events ∧
      next.executed = s.executed ++ task.functor.messages.map (task.sender, ·) ∧
      (next.destroyed = false →
        s.destroyed = false ∧ ∀ conn, task.functor ≠ .connectDestroyed conn) ∧
      next.active = s.active ∧ next.handlers = s.handlers ∧ next.called = s.called := by
  unfold execute at hexecute
  obtain ⟨f, hfunctor, hexecute⟩ := Except.bind_eq_ok.mp hexecute
  refine ⟨f, hfunctor, ?_⟩
  obtain ⟨functor, sender⟩ := task
  cases functor
  all_goals
    simp only [pure, Except.pure, Except.ok.injEq] at hexecute
    subst hexecute
    simp [System.absorb, tasks, Functor.messages]

theorem runFunctor_ok (hs : s.Invariant ptr) {result : WriteResult}
    (hstep : step ptr s (.runFunctor result) = .ok next) :
    next.Invariant ptr ∧ ∃ sent events,
      Moves (s.cause (.runFunctor result)) s next sent events := by
  obtain ⟨task, rest, hfunctors, hidle, hstep⟩ := step_runFunctor hstep
  obtain ⟨f, hfunctor, hconn, hpoller, hcalling, htasks, hevents, hexecuted, hdestroyed, -⟩ :=
    execute_eq hstep
  have hhead : s.tasks = task :: (rest ++ s.pendingFunctors) := by
    rw [tasks, hfunctors, List.cons_append]
  have hmem : task ∈ s.tasks := by simp [hhead]
  have hestablish : task.functor = .connectEstablished ptr ↔
      s.conn.state = .kConnecting := by
    constructor
    · intro heq
      by_contra hopen
      exact hs.established hopen task hmem heq
    · intro hconnecting
      obtain ⟨others, hothers, -⟩ := (hs.connecting hconnecting).tasks
      rw [hhead, List.cons.injEq] at hothers
      rw [hothers.1]
  obtain ⟨hperforms, hregistered⟩ := onFunctor_performs hs.sound (hs.admissible task hmem)
    hestablish (fun hconnecting => (hs.connecting hconnecting).backlog) hfunctor
  simp only [cause, hfunctors]
  refine ⟨hs.absorb hperforms ?_ hconn hpoller hcalling ?_ fun hnot =>
      hregistered ((hdestroyed hnot).2 ptr) (hs.registered (hdestroyed hnot).1),
    task.functor.messages, Moves.absorb hperforms hconn hevents ?_⟩
  · exact onFunctor_opens hs.sound hestablish
      (fun hconnecting => (hs.connecting hconnecting).backlog) hperforms hfunctor
  · intro other hother
    rcases mem_tasks_absorb htasks hother with hold | hnew
    · have hbehind : other ∈ s.tasks := by
        rw [hhead]
        exact List.mem_cons_of_mem _ hold
      refine Or.inl ⟨hbehind, ?_⟩
      by_cases hconnecting : s.conn.state = .kConnecting
      · obtain ⟨others, hothers, hdestroys⟩ := (hs.connecting hconnecting).tasks
        rw [hhead, List.cons.injEq] at hothers
        simp [hdestroys other (hothers.2 ▸ hold)]
      · exact hs.established hconnecting other hbehind
    · exact Or.inr hnew
  · rw [hexecuted, List.map_append, List.map_map]
    simp

theorem settings_ok (hs : s.Invariant ptr) {conn : TcpConnection}
    (hstep : .ok { s with conn } = (.ok next : Except Stop System))
    (hinput : conn.inputBuffer.Valid) (houtput : conn.outputBuffer = s.conn.outputBuffer)
    (hchannel : conn.channel = s.conn.channel) (hstate : conn.state = s.conn.state) :
    next.Invariant ptr ∧ ∃ sent events, Moves .plain s next sent events := by
  rw [Except.ok.injEq] at hstep
  subst hstep
  exact ⟨hs.settings hinput houtput hchannel hstate rfl, [], [],
    Moves.quiet hstate (by rw [backlog, houtput, backlog]) rfl rfl (by rw [hchannel])
      fun _ => by rw [hchannel]⟩

/-- Every step keeps the invariant and performs one effect. -/
theorem step_ok (hs : s.Invariant ptr) {action : Action} (hstep : step ptr s action = .ok next) :
    next.Invariant ptr ∧ ∃ sent events, Moves (s.cause action) s next sent events := by
  cases action with
  | send thread buf =>
      obtain ⟨hnext, hmoves⟩ := send_ok hs hstep
      exact ⟨hnext, _, _, hmoves⟩
  | queueSend thread =>
      obtain ⟨hnext, hmoves⟩ := queueSend_ok hs hstep
      exact ⟨hnext, _, _, hmoves⟩
  | sendDirect buf result => exact sendDirect_ok hs hstep
  | shutdown =>
      simp only [step, Except.ok.injEq] at hstep
      subst hstep
      obtain ⟨hnext, events, hmoves⟩ := shutdown_ok hs false
      exact ⟨hnext, _, _, hmoves⟩
  | shutdownDirect =>
      simp only [step, Except.ok.injEq] at hstep
      subst hstep
      obtain ⟨hnext, events, hmoves⟩ := shutdown_ok hs true
      exact ⟨hnext, _, _, hmoves⟩
  | setHighWaterMarkCallback => exact settings_ok hs hstep hs.sound.input rfl rfl rfl
  | setWriteCompleteCallback => exact settings_ok hs hstep hs.sound.input rfl rfl rfl
  | retrieve len => exact settings_ok hs hstep (hs.sound.input.retrieve len) rfl rfl rfl
  | queueConnectDestroyed =>
      obtain ⟨hnext, hmoves⟩ := queueConnectDestroyed_ok hs hstep
      exact ⟨hnext, _, _, hmoves⟩
  | connectDestroyedDirect =>
      obtain ⟨hnext, events, hmoves⟩ := connectDestroyedDirect_ok hs hstep
      exact ⟨hnext, _, _, hmoves⟩
  | poll revents =>
      obtain ⟨hnext, hmoves⟩ := poll_ok hs hstep
      exact ⟨hnext, _, _, hmoves⟩
  | handleEvent =>
      obtain ⟨hnext, hmoves⟩ := handleEvent_ok hs hstep
      exact ⟨hnext, _, _, hmoves⟩
  | callback calls =>
      obtain ⟨hnext, events, hmoves⟩ := callback_ok hs hstep
      exact ⟨hnext, _, _, hmoves⟩
  | swap =>
      obtain ⟨hnext, hmoves⟩ := swap_ok hs hstep
      exact ⟨hnext, _, _, hmoves⟩
  | runFunctor result => exact runFunctor_ok hs hstep

theorem step_invariant (s : System) (action : Action) (next : System) (hs : s.Invariant ptr)
    (hstep : step ptr s action = .ok next) : next.Invariant ptr :=
  (step_ok hs hstep).1

end System

end TcpConnection

end Muduo
