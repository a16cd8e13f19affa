import Muduo.TcpServer.Contract

/-! # One loop per thread

A connection is shared by the thread of its loop, the base loop, the idle wheel and user code,
and no lock guards it. Any thread may push to the queue of a loop, which is guarded, and mark a
connection as closing; everything else about a loop and its connections is left to its own thread,
and the tables of the server to the thread of the base loop.
-/

open Transition

namespace Muduo

open TcpConnection

namespace System

variable {s middle next : System} {conn : ConnId} {loop other : LoopId}
  {touched wider : ConnId → Prop}

/-- The loop on whose thread the step is taken. User code may be on any other thread. -/
def thread (s : System) : Action → Option LoopId
  | .poll loop _ | .handleEvent loop | .callback loop _ _ | .endHandling loop | .swap loop
  | .runFunctor loop _ | .endFunctors loop => some loop
  | .sendDirect conn _ _ | .shutdownDirect conn => some (s.own conn)
  | .keep _ | .drop _ | .queueSend _ _ | .shutdown _ | .user _ _ | .testShutdown _ => none
  | .storeShutdown call | .queueShutdown call =>
      if call.caller = .entry then some baseLoop else none
  | .newConnection _ _ _ | .onTimerTick | .destroyEntry _ | .testEntryShutdown _ => some baseLoop
  | .destructor | .destroyConnection _ | .wheelDestructor | .dropBucket
  | .endDestructor => some baseLoop

/-! ## What another thread may do -/

/-- `shutdown` marks an open connection as closing. -/
def Spared (s next : System) (conn : ConnId) : Prop :=
  next.conns conn = s.conns conn ∨ (s.conns conn).state = .kConnected ∧
    next.conns conn = { s.conns conn with state := .kDisconnecting }

theorem Spared.own (hspared : Spared s next conn) : next.own conn = s.own conn := by
  rcases hspared with hsame | ⟨-, hclosing⟩
  · rw [System.own, hsame, System.own]
  · rw [System.own, hclosing, System.own]

theorem Spared.trans (hfirst : Spared s middle conn) (hsecond : Spared middle next conn) :
    Spared s next conn := by
  rcases hfirst with hsame | ⟨hconnected, hclosing⟩
  · unfold Spared at hsecond ⊢
    rw [hsame] at hsecond
    exact hsecond
  · -- a closing connection is not connected any more
    rcases hsecond with hkept | ⟨hopen, -⟩
    · exact Or.inr ⟨hconnected, hkept.trans hclosing⟩
    · rw [hclosing] at hopen
      cases hopen

/-- What the threads of other loops and user code do to a loop and its connections, except to
those that user code touches. -/
structure Undisturbed (loop : LoopId) (touched : ConnId → Prop) (s next : System) : Prop where
  accepted : s.accepted ≤ next.accepted
  queue : ∃ functors, next.loops loop = { s.loops loop with
    pendingFunctors := (s.loops loop).pendingFunctors ++ functors }
  conns : ∀ conn < s.accepted, ¬ touched conn → s.own conn = loop → Spared s next conn
  tables : loop = baseLoop → next.accepted = s.accepted ∧
    next.server = { s.server with timerWheel := next.server.timerWheel }

theorem Undisturbed.of_same (haccepted : next.accepted = s.accepted)
    (hloop : next.loops loop = s.loops loop) (hconns : next.conns = s.conns)
    (hserver : next.server = { s.server with timerWheel := next.server.timerWheel }) :
    Undisturbed loop touched s next where
  accepted := le_of_eq haccepted.symm
  queue := ⟨[], by rw [hloop, List.append_nil]⟩
  conns := fun conn _ _ _ => Or.inl (congrFun hconns conn)
  tables := fun _ => ⟨haccepted, hserver⟩

theorem Undisturbed.refl (loop : LoopId) (touched : ConnId → Prop) (s : System) :
    Undisturbed loop touched s s := .of_same rfl rfl rfl rfl

theorem Undisturbed.trans (hfirst : Undisturbed loop touched s middle)
    (hsecond : Undisturbed loop touched middle next) : Undisturbed loop touched s next where
  accepted := hfirst.accepted.trans hsecond.accepted
  queue := by
    obtain ⟨early, hearly⟩ := hfirst.queue
    obtain ⟨late, hlate⟩ := hsecond.queue
    refine ⟨early ++ late, ?_⟩
    rw [hlate, hearly, ← List.append_assoc]
  conns := by
    intro conn hconn huntouched hown
    have hspared := hfirst.conns conn hconn huntouched hown
    have hstays : middle.own conn = loop := hspared.own.trans hown
    exact hspared.trans
      (hsecond.conns conn (lt_of_lt_of_le hconn hfirst.accepted) huntouched hstays)
  tables := by
    intro hbase
    obtain ⟨hearly, hbefore⟩ := hfirst.tables hbase
    obtain ⟨hlate, hafter⟩ := hsecond.tables hbase
    refine ⟨hlate.trans hearly, ?_⟩
    rw [hafter, hbefore]

theorem Undisturbed.mono (hs : Undisturbed loop touched s next)
    (htouched : ∀ conn < s.accepted, touched conn → wider conn) :
    Undisturbed loop wider s next where
  accepted := hs.accepted
  queue := hs.queue
  conns := fun conn hconn huntouched =>
    hs.conns conn hconn fun htouch => huntouched (htouched conn hconn htouch)
  tables := hs.tables

/-! ## Pieces of steps -/

theorem Undisturbed.updateLoop (hs : Undisturbed loop touched s middle) (hother : other ≠ loop)
    (change : IoLoop → IoLoop) : Undisturbed loop touched s (middle.updateLoop other change) :=
  hs.trans (.of_same rfl (updateLoop_of_ne hother.symm _ _) rfl rfl)

/-- Any thread may queue a functor. -/
theorem Undisturbed.queueInLoop (hs : Undisturbed loop touched s middle) (other : LoopId)
    (functor : Functor) : Undisturbed loop touched s (middle.queueInLoop other functor) := by
  refine hs.trans ⟨le_rfl, ?_, fun _ _ _ _ => Or.inl rfl, fun _ => ⟨rfl, rfl⟩⟩
  by_cases hsame : loop = other
  · subst hsame
    exact ⟨[functor], updateLoop_self _ _ _⟩
  · exact ⟨[], by rw [System.queueInLoop, updateLoop_of_ne hsame, List.append_nil]⟩

theorem Undisturbed.record (hs : Undisturbed loop touched s middle) (other : LoopId)
    (conn : ConnId) (milestone : Milestone) :
    Undisturbed loop touched s (middle.record other conn milestone) :=
  hs.trans (.of_same rfl rfl rfl rfl)

theorem Undisturbed.withWheel (hs : Undisturbed loop touched s middle)
    (timerWheel : TimerWheel) : Undisturbed loop touched s (middle.withWheel timerWheel) :=
  hs.trans (.of_same rfl rfl rfl rfl)

/-- A connection of another loop, or one that user code touches, changes. -/
theorem Undisturbed.updateConn (hs : Undisturbed loop touched s middle)
    (hother : middle.own conn = loop → touched conn) (change : TcpConnection → TcpConnection) :
    Undisturbed loop touched s (middle.updateConn conn change) := by
  refine hs.trans ⟨le_rfl, ⟨[], by rw [List.append_nil]; rfl⟩, ?_, fun _ => ⟨rfl, rfl⟩⟩
  intro spared _ huntouched hown
  refine Or.inl (updateConn_of_ne ?_ _ _)
  rintro rfl
  exact huntouched (hother hown)

theorem Undisturbed.absorb (hs : Undisturbed loop touched s middle)
    (hother : middle.own conn ≠ loop) (f : Frame) :
    Undisturbed loop touched s (middle.absorb conn f) :=
  (hs.updateConn (fun hown => absurd hown hother) _).updateLoop hother _

/-- The entries of `connections_` are taken out on the base loop. -/
theorem Undisturbed.unmap (hs : Undisturbed loop touched s middle) (hbase : loop ≠ baseLoop)
    (conn : ConnId) : Undisturbed loop touched s (middle.unmap conn) :=
  hs.trans ⟨le_rfl, ⟨[], by rw [List.append_nil]; rfl⟩, fun _ _ _ _ => Or.inl rfl,
    fun hsame => absurd hsame hbase⟩

theorem Undisturbed.removeConnectionInLoop (hs : Undisturbed loop touched s middle)
    (hbase : loop ≠ baseLoop) (conn : ConnId) :
    Undisturbed loop touched s (middle.removeConnectionInLoop conn) :=
  ((hs.unmap hbase conn).queueInLoop _ _).record _ _ _

/-- `shutdown` on another thread marks the connection and queues the rest. -/
theorem Undisturbed.shutdown (hs : Undisturbed loop touched s middle) (conn : ConnId) :
    Undisturbed loop touched s (middle.shutdown conn false) := by
  unfold System.shutdown
  rcases shutdown_queues conn (middle.frame conn) with ⟨-, hsame⟩ | ⟨hconnected, hqueues⟩
  · rw [hsame, absorb_frame]
    exact hs
  · rw [hqueues]
    refine hs.trans ⟨le_rfl, ?_, fun spared _ _ _ => ?_, fun _ => ⟨rfl, rfl⟩⟩
    · by_cases hown : loop = middle.own conn
      · subst hown
        exact ⟨[.shutdownInLoop conn], updateLoop_self _ _ _⟩
      · exact ⟨[], by rw [absorb_loops_of_ne hown, List.append_nil]⟩
    · by_cases hself : spared = conn
      · subst hself
        exact Or.inr ⟨hconnected, absorb_self _ _ _⟩
      · exact Or.inl (absorb_of_ne hself _ _)

/-- An entry of the wheel dies on the thread of the base loop. -/
theorem Undisturbed.destroyEntry (hs : Undisturbed loop touched s middle)
    (hbase : loop ≠ baseLoop) (conn : ConnId) :
    Undisturbed loop touched s (middle.destroyEntry conn) := by
  unfold System.destroyEntry
  split
  next =>
    by_cases hown : middle.own conn = baseLoop
    · rw [decide_eq_true hown]
      exact hs.absorb (fun hsame => hbase (hsame.symm.trans hown)) _
    · rw [decide_eq_false hown]
      exact hs.shutdown conn
  next => exact hs

/-- The wheel is told of a connection on the thread of its loop. -/
theorem Undisturbed.refresh (hs : Undisturbed loop touched s middle)
    (hother : middle.own conn = loop → touched conn) {now : Int}
    (hrefresh : middle.refresh conn now = .ok next) : Undisturbed loop touched s next := by
  rcases refresh_cases hrefresh with rfl | ⟨timerWheel, context, -, rfl⟩
  · exact hs
  · exact (hs.withWheel timerWheel).updateConn hother _

theorem Undisturbed.dispatch (hs : Undisturbed loop touched s middle) (hother : other ≠ loop)
    (hown : middle.own conn = other) {now : Int} {event : IoEvent}
    (hdispatch : middle.dispatch other conn now event = .ok next) :
    Undisturbed loop touched s next ∧ next.own conn = other := by
  have hforeign : middle.own conn = loop → touched conn := fun hsame =>
    absurd (hown.symm.trans hsame) hother
  rcases dispatch_cases hdispatch with ⟨-, hremove⟩ | ⟨-, hrefresh⟩ | rfl
  · rcases removeConnection_cases hremove with ⟨rfl, rfl⟩ | ⟨-, rfl⟩
    · exact ⟨hs.removeConnectionInLoop hother.symm conn, hown⟩
    · exact ⟨hs.queueInLoop _ _, hown⟩
  · refine ⟨hs.refresh hforeign hrefresh, ?_⟩
    rcases refresh_cases hrefresh with rfl | ⟨timerWheel, context, -, rfl⟩
    · exact hown
    · rw [System.own, updateConn_self]
      exact hown
  · exact ⟨hs, hown⟩

/-! ## Steps of other threads -/

/-- A new connection is none of the accepted ones. -/
theorem newConnection_undisturbed (hbase : loop ≠ baseLoop) {sockfd now : Int}
    {hasWriteCompleteCallback : Bool}
    (hnew : s.newConnection sockfd hasWriteCompleteCallback now = .ok next) :
    Undisturbed loop touched s next := by
  have hconstruct : Undisturbed loop (· = s.accepted) s
      (s.construct sockfd hasWriteCompleteCallback) :=
    ⟨Nat.le_succ _, ⟨[], by rw [List.append_nil]; rfl⟩,
      fun conn hconn _ _ => Or.inl (construct_conns _ _ hconn), fun hsame => absurd hsame hbase⟩
  have hborn : Undisturbed loop (· = s.accepted) s next := by
    unfold newConnection at hnew
    obtain ⟨middle, hrefresh, hnew⟩ := Except.bind_eq_ok.mp hnew
    have hrefreshed := hconstruct.refresh (fun _ => rfl) hrefresh
    split at hnew
    next hown =>
      obtain ⟨f, -, hnew⟩ := Except.bind_eq_ok.mp hnew
      obtain rfl := Except.ok.inj hnew
      exact (hrefreshed.absorb (fun hsame => hbase (hsame.symm.trans hown)) f).record _ _ _
    next =>
      obtain rfl := Except.ok.inj hnew
      exact hrefreshed.queueInLoop _ _
  exact hborn.mono fun conn hconn hself => absurd hself (Nat.ne_of_lt hconn)

/-- A registered pointer leads to a connection of the same loop. -/
theorem Invariant.poll_undisturbed (hs : s.Invariant) (hother : other ≠ loop)
    (hbatch : (s.loops other).Batchless) {events : List (Int × EventMask)}
    (hpoll : run (fillActiveChannel other) s events = .ok next) :
    Undisturbed loop touched s next := by
  have hpreserved (middle : System) (event : Int × EventMask) (next : System)
      (hmiddle : (middle.Invariant ∧ (middle.loops other).Batchless) ∧
        Undisturbed loop touched s middle)
      (hfill : fillActiveChannel other middle event = .ok next) :
      (next.Invariant ∧ (next.loops other).Batchless) ∧ Undisturbed loop touched s next := by
    obtain ⟨⟨hinvariant, hempty⟩, hundisturbed⟩ := hmiddle
    obtain ⟨hadvances, -, hafter⟩ := fillActiveChannel_advances hinvariant event hempty hfill
    have hguarded := fillActiveChannel_guarded event hinvariant.guarded hfill
    refine ⟨⟨hadvances.invariant hinvariant hguarded, hafter⟩, ?_⟩
    obtain ⟨mask, conn, hkernel, -, rfl⟩ := fillActiveChannel_ok hfill
    obtain ⟨-, hown, -, -⟩ :=
      hinvariant.records.registry.owned other event.1 conn (Or.inr ⟨mask, hkernel⟩)
    have hforeign : middle.own conn = loop → touched conn := fun hsame =>
      absurd (hown.symm.trans hsame) hother
    exact (hundisturbed.updateConn hforeign _).updateLoop hother _
  exact (run_invariant hpreserved ⟨⟨hs, hbatch⟩, .refl loop touched s⟩ hpoll).2

/-- A handler works on the connection of its loop. -/
theorem Invariant.callback_undisturbed (hs : s.Invariant) (hother : other ≠ loop)
    {calls : Syscalls} {now : Int} (hcallback : s.callback other calls now = .ok next) :
    Undisturbed loop touched s next := by
  obtain ⟨conn, callback, rest, f, hhandling, -, hf, hcallback⟩ := callback_ok hcallback
  have hwatches : (s.loops other).Watches conn := Or.inr (by rw [hhandling]; rfl)
  obtain ⟨-, hown, -⟩ := hs.of_watches hwatches
  have hforeign : s.own conn ≠ loop := fun hsame => hother (hown.symm.trans hsame)
  have hfinish : Undisturbed loop touched s (s.finishCallback other conn callback rest f) :=
    (((Undisturbed.refl loop touched s).absorb hforeign f).record _ _ _).updateLoop hother _
  have hstays : (s.finishCallback other conn callback rest f).own conn = other := by
    change (s.absorb conn f).own conn = other
    rw [System.own, absorb_self, (onCallback_keeps hf).loop]
    exact hown
  have hpreserved (middle : System) (event : IoEvent) (next : System)
      (hmiddle : Undisturbed loop touched s middle ∧ middle.own conn = other)
      (hdispatch : middle.dispatch other conn now event = .ok next) :
      Undisturbed loop touched s next ∧ next.own conn = other :=
    hmiddle.1.dispatch hother hmiddle.2 hdispatch
  exact (run_invariant hpreserved ⟨hfinish, hstays⟩ hcallback).1

/-- A functor works on the connection of its loop, or on the tables of the server. -/
theorem Invariant.runFunctor_undisturbed (hs : s.Invariant) (hother : other ≠ loop)
    {result : WriteResult} (hrun : s.runFunctor other result = .ok next) :
    Undisturbed loop touched s next := by
  obtain ⟨functor, rest, hfunctors, -, hexecute⟩ := runFunctor_ok hrun
  obtain ⟨hhome, -, -⟩ := hs.waits hfunctors
  have hstart := (Undisturbed.refl loop touched s).updateLoop hother
    (IoLoop.startFunctor functor rest)
  rcases execute_cases hexecute with ⟨conn, rfl, rfl⟩ | ⟨hmember, f, -, hnext⟩
  · exact hstart.removeConnectionInLoop (fun hsame => hother (hhome.trans hsame.symm)) conn
  · have hown : s.own functor.target = other := by
      rw [hhome]
      cases functor with
      | removeConnectionInLoop conn => exact absurd rfl (hmember conn)
      | _ => rfl
    have habsorb : Undisturbed loop touched s
        ((s.updateLoop other (IoLoop.startFunctor functor rest)).absorb functor.target f) :=
      hstart.absorb (fun hsame => hother (hown.symm.trans hsame)) f
    rcases hnext with rfl | ⟨milestone, rfl⟩
    · exact habsorb
    · exact habsorb.record _ _ _

/-- A step on another thread, except that user code may touch a connection. -/
theorem step_undisturbed (hs : s.Invariant) {action : Action} (hregular : s.Regular action)
    (hthread : s.thread action ≠ some loop) (hstep : step s action = .ok next) :
    Undisturbed loop (fun conn => ∃ op, action = .user conn op) s next := by
  have hrefl : Undisturbed loop (fun conn => ∃ op, action = .user conn op) s s := .refl _ _ s
  cases action with
  | newConnection sockfd hasWriteCompleteCallback now =>
      obtain ⟨-, hstep⟩ := Except.guard_eq_ok.mp hstep
      exact newConnection_undisturbed (fun hbase => hthread (congrArg some hbase.symm)) hstep
  | poll other events =>
      obtain ⟨⟨-, ⟨-, -, hbatch⟩, -⟩, hstep⟩ := Except.guard_eq_ok.mp hstep
      exact hs.poll_undisturbed (fun hsame => hthread (congrArg some hsame)) hbatch hstep
  | handleEvent other =>
      obtain ⟨-, hstep⟩ := Except.guard_eq_ok.mp hstep
      obtain ⟨conn, rest, -, -, rfl⟩ := handleEvent_ok hstep
      exact hrefl.updateLoop (fun hsame => hthread (congrArg some hsame)) _
  | callback other calls now =>
      obtain ⟨-, hstep⟩ := Except.guard_eq_ok.mp hstep
      exact hs.callback_undisturbed (fun hsame => hthread (congrArg some hsame)) hstep
  | endHandling other =>
      obtain ⟨conn, -, rfl⟩ := endHandling_ok hstep
      exact hrefl.updateLoop (fun hsame => hthread (congrArg some hsame)) _
  | swap other | endFunctors other =>
      obtain ⟨-, hstep⟩ := Except.guard_eq_ok.mp hstep
      obtain rfl := Except.ok.inj hstep
      exact hrefl.updateLoop (fun hsame => hthread (congrArg some hsame)) _
  | runFunctor other result =>
      obtain ⟨-, hstep⟩ := Except.guard_eq_ok.mp hstep
      exact hs.runFunctor_undisturbed (fun hsame => hthread (congrArg some hsame)) hstep
  | onTimerTick =>
      obtain ⟨-, hstep⟩ := Except.guard_eq_ok.mp hstep
      split at hstep
      next => cases hstep
      next =>
        obtain rfl := Except.ok.inj hstep
        exact hrefl.withWheel _
  | destroyEntry entry =>
      obtain ⟨-, hstep⟩ := Except.guard_eq_ok.mp hstep
      have hwheel := hrefl.withWheel (s.server.timerWheel.release entry)
      split at hstep <;> obtain rfl := Except.ok.inj hstep
      · exact hwheel
      · exact hwheel.destroyEntry (fun hbase => hthread (congrArg some hbase.symm)) _
  | keep conn | drop conn =>
      obtain ⟨-, hstep⟩ := Except.guard_eq_ok.mp hstep
      obtain rfl := Except.ok.inj hstep
      exact hrefl.trans (.of_same rfl rfl rfl rfl)
  | queueSend conn buf =>
      obtain ⟨-, hstep⟩ := Except.guard_eq_ok.mp hstep
      obtain rfl := Except.ok.inj hstep
      exact hrefl.queueInLoop _ _
  | sendDirect conn buf result =>
      obtain ⟨-, hstep⟩ := Except.guard_eq_ok.mp hstep
      obtain ⟨f, -, hstep⟩ := Except.bind_eq_ok.mp hstep
      obtain rfl := Except.ok.inj hstep
      exact hrefl.absorb (fun hsame => hthread (congrArg some hsame)) f
  | shutdown conn =>
      obtain ⟨-, hstep⟩ := Except.guard_eq_ok.mp hstep
      obtain rfl := Except.ok.inj hstep
      exact hrefl.shutdown conn
  | shutdownDirect conn =>
      obtain ⟨-, hstep⟩ := Except.guard_eq_ok.mp hstep
      obtain rfl := Except.ok.inj hstep
      exact hrefl.absorb (fun hsame => hthread (congrArg some hsame)) _
  | user conn op =>
      obtain ⟨-, hstep⟩ := Except.guard_eq_ok.mp hstep
      obtain rfl := Except.ok.inj hstep
      exact hrefl.updateConn (fun _ => ⟨op, rfl⟩) _
  | testShutdown | testEntryShutdown | storeShutdown | queueShutdown => exact hregular.elim
  | destructor | destroyConnection | wheelDestructor | dropBucket | endDestructor =>
      exact hregular.elim

/-! ## Runs of other threads -/

/-- The thread of the loop takes no step. -/
def Elsewhere (loop : LoopId) (s : System) (action : Action) : Prop :=
  s.Regular action ∧ s.thread action ≠ some loop

instance (loop : LoopId) (s : System) : DecidablePred (Elsewhere loop s) := fun action =>
  inferInstanceAs (Decidable (s.Regular action ∧ _))

theorem run_undisturbed {schedule : List Action} (hs : s.Invariant)
    (helsewhere : EveryStep step (Elsewhere loop) s schedule)
    (hrun : run step s schedule = .ok next) :
    Undisturbed loop (fun conn => ∃ op, .user conn op ∈ schedule) s next := by
  induction schedule generalizing s with
  | nil =>
      obtain rfl := Except.ok.inj hrun
      exact .refl loop _ s
  | cons action rest ih =>
      obtain ⟨middle, hstep, hrest⟩ := run_cons_eq_ok.mp hrun
      obtain ⟨⟨hregular, hthread⟩, hlater⟩ := helsewhere
      have hinvariant := step_invariant s action middle hs hregular hstep
      have hfirst := step_undisturbed hs hregular hthread hstep
      have hsecond := ih hinvariant (hlater middle hstep) hrest
      refine (hfirst.mono ?_).trans (hsecond.mono ?_)
      · rintro conn - ⟨op, rfl⟩
        exact ⟨op, List.mem_cons_self⟩
      · rintro conn - ⟨op, hmem⟩
        exact ⟨op, List.mem_cons_of_mem _ hmem⟩

/-- **One loop per thread.** Whatever the other threads of a running server do, a loop finds its
own poller, events and batch as it left them, with functors added to its queue; a connection that
user code does not touch is as its loop left it, or marked as closing; and what the base loop keeps
about connections only changes on its thread. -/
theorem loops_confined {listenAddr : InetAddress} {nameArg : String} {timeout numThreads : Nat}
    {before during : List Action}
    (hbefore : EveryStep step Regular (initial listenAddr nameArg timeout numThreads) before)
    (hreach : run step (initial listenAddr nameArg timeout numThreads) before = .ok s)
    (hduring : EveryStep step (Elsewhere loop) s during)
    (hrun : run step s during = .ok next) :
    (∃ functors, next.loops loop = { s.loops loop with
      pendingFunctors := (s.loops loop).pendingFunctors ++ functors }) ∧
    (∀ conn < s.accepted, s.own conn = loop → (∀ op, .user conn op ∉ during) →
      next.conns conn = s.conns conn ∨ (s.conns conn).state = .kConnected ∧
        next.conns conn = { s.conns conn with state := .kDisconnecting }) ∧
    (loop = baseLoop → next.accepted = s.accepted ∧
      next.server = { s.server with timerWheel := next.server.timerWheel }) := by
  have hs : s.Invariant := run_invariant_of_everyStep step_invariant
    (initial_invariant listenAddr nameArg timeout numThreads) hbefore hreach
  have hundisturbed := run_undisturbed hs hduring hrun
  refine ⟨hundisturbed.queue, fun conn hconn hown huntouched => ?_, hundisturbed.tables⟩
  exact hundisturbed.conns conn hconn (fun ⟨op, hmem⟩ => huntouched op hmem) hown

/-- A server with two sub-loops and an idle timeout of four seconds. -/
def twoLoops : System := initial ⟨fun _ => 0, 81⟩ "" 4 2

/-- Each sub-loop has a connection. -/
def oneEach : List Action :=
  [.newConnection 5 false 0, .newConnection 6 false 0, .swap 1, .runFunctor 1 (.accepted 0),
    .endFunctors 1, .swap 2, .runFunctor 2 (.accepted 0), .endFunctors 2]

/-- The second sub-loop reads, the wheel turns, and user code closes the connection of the first
one and sends to it. -/
def secondWorks : List Action :=
  [.poll 2 [(6, EPOLLIN)], .handleEvent 2,
    .callback 2 ⟨.received [71, 72], .other 0, .accepted 0⟩ 1, .shutdown 0, .endHandling 2,
    .onTimerTick, .queueSend 0 ⟨[73], by decide⟩, .user 1 (.retrieve 1)]

theorem loops_confined_secondWorks : ∃ s next, run step twoLoops oneEach = .ok s ∧
    run step s secondWorks = .ok next ∧ (next.conns 0).state = .kDisconnecting ∧
    (∃ functors, next.loops 1 = { s.loops 1 with
      pendingFunctors := (s.loops 1).pendingFunctors ++ functors }) ∧
    (next.conns 0 = s.conns 0 ∨ (s.conns 0).state = .kConnected ∧
      next.conns 0 = { s.conns 0 with state := .kDisconnecting }) := by
  have hends : ends (fun s => decide (s.accepted = 2 ∧ s.own 0 = 1 ∧
      EveryStep step (Elsewhere 1) s secondWorks) &&
      ends (fun next => decide ((next.conns 0).state = .kDisconnecting)) (run step s secondWorks))
      (run step twoLoops oneEach) = true := by decide +kernel
  obtain ⟨s, hreach, hcheck⟩ := exists_of_ends hends
  obtain ⟨hopened, hends⟩ := Bool.and_eq_true_iff.mp hcheck
  obtain ⟨haccepted, hown, helsewhere⟩ := of_decide_eq_true hopened
  obtain ⟨next, hrun, hstate⟩ := exists_of_ends hends
  have hregular : EveryStep step Regular twoLoops oneEach := by decide +kernel
  obtain ⟨hqueue, hconns, -⟩ := loops_confined hregular hreach helsewhere hrun
  refine ⟨s, next, hreach, hrun, of_decide_eq_true hstate, hqueue, hconns 0 ?_ hown ?_⟩
  · rw [haccepted]
    exact Nat.two_pos
  · intro op
    simp [secondWorks]

end System

end Muduo
