import Muduo.TcpServer.Registry

/-! # What steps leave alone in the registry

Accepting a connection names it and puts it into `connections_`. All other steps keep the
names and the counters, and only take entries out.
-/

open Transition

namespace Muduo

namespace System

variable {s middle next : System} {conn : ConnId}

/-- No connection is accepted, renamed or moved to another loop, and `connections_` only loses
entries. -/
structure Steady (s next : System) : Prop where
  name : next.server.name = s.server.name
  ipPort : next.server.ipPort = s.server.ipPort
  nextConnId : next.server.nextConnId = s.server.nextConnId
  threadPool : next.server.threadPool = s.server.threadPool
  accepted : next.accepted = s.accepted
  names : ∀ conn, (next.conns conn).name = (s.conns conn).name
  own : ∀ conn, next.own conn = s.own conn
  connections : ∀ key conn, next.server.connections key = some conn →
    s.server.connections key = some conn

theorem Steady.of_same (hserver : next.server = { s.server with
      timerWheel := next.server.timerWheel }) (haccepted : next.accepted = s.accepted)
    (hnames : ∀ conn, (next.conns conn).name = (s.conns conn).name)
    (hown : ∀ conn, next.own conn = s.own conn) : Steady s next := by
  refine ⟨?_, ?_, ?_, ?_, haccepted, hnames, hown, ?_⟩ <;> rw [hserver]
  exact fun _ _ => id

theorem Steady.refl (s : System) : Steady s s := .of_same rfl rfl (fun _ => rfl) fun _ => rfl

theorem Steady.trans (hfirst : Steady s middle) (hsecond : Steady middle next) :
    Steady s next where
  name := hsecond.name.trans hfirst.name
  ipPort := hsecond.ipPort.trans hfirst.ipPort
  nextConnId := hsecond.nextConnId.trans hfirst.nextConnId
  threadPool := hsecond.threadPool.trans hfirst.threadPool
  accepted := hsecond.accepted.trans hfirst.accepted
  names := fun conn => (hsecond.names conn).trans (hfirst.names conn)
  own := fun conn => (hsecond.own conn).trans (hfirst.own conn)
  connections := fun key conn hmapped =>
    hfirst.connections key conn (hsecond.connections key conn hmapped)

theorem Steady.updateLoop (hsteady : Steady s middle) (loop : LoopId)
    (change : IoLoop → IoLoop) : Steady s (middle.updateLoop loop change) :=
  hsteady.trans (.of_same rfl rfl (fun _ => rfl) fun _ => rfl)

theorem Steady.queueInLoop (hsteady : Steady s middle) (loop : LoopId) (functor : Functor) :
    Steady s (middle.queueInLoop loop functor) := hsteady.updateLoop loop _

theorem Steady.record (hsteady : Steady s middle) (loop : LoopId) (conn : ConnId)
    (milestone : Milestone) : Steady s (middle.record loop conn milestone) :=
  hsteady.trans (.of_same rfl rfl (fun _ => rfl) fun _ => rfl)

theorem Steady.withWheel (hsteady : Steady s middle) (timerWheel : TimerWheel) :
    Steady s (middle.withWheel timerWheel) :=
  hsteady.trans (.of_same rfl rfl (fun _ => rfl) fun _ => rfl)

theorem Steady.updateConn (hsteady : Steady s middle) {change : TcpConnection → TcpConnection}
    (hname : (change (middle.conns conn)).name = (middle.conns conn).name)
    (hloop : (change (middle.conns conn)).loop = (middle.conns conn).loop) :
    Steady s (middle.updateConn conn change) := by
  refine hsteady.trans (.of_same rfl rfl (fun other => ?_) fun other => ?_)
  · by_cases hother : other = conn
    · subst other
      rw [updateConn_self, hname]
    · rw [updateConn_of_ne hother]
  · unfold System.own
    by_cases hother : other = conn
    · subst other
      rw [updateConn_self, hloop]
    · rw [updateConn_of_ne hother]

theorem Steady.absorb (hsteady : Steady s middle) {f : Frame}
    (hname : f.conn.name = (middle.conns conn).name)
    (hloop : f.conn.loop = (middle.conns conn).loop) : Steady s (middle.absorb conn f) :=
  (hsteady.updateConn hname hloop).updateLoop _ _

theorem Steady.absorb_keeps (hsteady : Steady s middle) {f : Frame}
    (hkeeps : (middle.frame conn).Keeps conn f) : Steady s (middle.absorb conn f) :=
  hsteady.absorb hkeeps.name hkeeps.loop

theorem Steady.unmap (hsteady : Steady s middle) (conn : ConnId) :
    Steady s (middle.unmap conn) := by
  refine hsteady.trans
    ⟨rfl, rfl, rfl, rfl, rfl, fun _ => rfl, fun _ => rfl, fun key other hmapped => ?_⟩
  simp only [System.unmap, Function.update_apply] at hmapped
  split at hmapped
  next => cases hmapped
  next => exact hmapped

theorem Steady.removeConnectionInLoop (hsteady : Steady s middle) (conn : ConnId) :
    Steady s (middle.removeConnectionInLoop conn) :=
  ((hsteady.unmap conn).queueInLoop _ _).record _ _ _

theorem Steady.refresh (hsteady : Steady s middle) {now : Int}
    (hrefresh : middle.refresh conn now = .ok next) : Steady s next := by
  rcases refresh_cases hrefresh with rfl | ⟨timerWheel, context, -, rfl⟩
  · exact hsteady
  · exact (hsteady.withWheel timerWheel).updateConn rfl rfl

theorem Steady.dispatch (hsteady : Steady s middle) {loop : LoopId} {now : Int} {event : IoEvent}
    (hdispatch : middle.dispatch loop conn now event = .ok next) : Steady s next := by
  rcases dispatch_cases hdispatch with ⟨-, hremove⟩ | ⟨-, hrefresh⟩ | rfl
  · rcases removeConnection_cases hremove with ⟨-, rfl⟩ | ⟨-, rfl⟩
    · exact hsteady.removeConnectionInLoop conn
    · exact hsteady.queueInLoop _ _
  · exact hsteady.refresh hrefresh
  · exact hsteady

theorem Steady.connectEstablished (hsteady : Steady s middle) {loop : LoopId}
    (hestablish : middle.connectEstablished loop conn = .ok next) : Steady s next := by
  obtain ⟨f, hf, hestablish⟩ := Except.bind_eq_ok.mp hestablish
  obtain rfl := Except.ok.inj hestablish
  exact (hsteady.absorb_keeps (TcpConnection.connectEstablished_keeps hf)).record _ _ _

theorem Steady.connectDestroyed (hsteady : Steady s middle) {loop : LoopId}
    (hdestroy : middle.connectDestroyed loop conn = .ok next) : Steady s next := by
  obtain ⟨f, hf, hdestroy⟩ := Except.bind_eq_ok.mp hdestroy
  obtain rfl := Except.ok.inj hdestroy
  exact (hsteady.absorb_keeps (TcpConnection.connectDestroyed_keeps hf)).record _ _ _

theorem Steady.shutdown (hsteady : Steady s middle) (conn : ConnId) (inLoopThread : Bool) :
    Steady s (middle.shutdown conn inLoopThread) := by
  unfold System.shutdown
  cases inLoopThread with
  | true => exact hsteady.absorb_keeps (TcpConnection.shutdown_keeps (middle.frame conn))
  | false =>
      rcases TcpConnection.shutdown_queues conn (middle.frame conn) with
        ⟨-, hsame⟩ | ⟨-, hqueues⟩
      · rw [hsame]
        exact hsteady.absorb rfl rfl
      · rw [hqueues]
        exact hsteady.absorb rfl rfl

theorem callback_steady {loop : LoopId} {calls : TcpConnection.Syscalls} {now : Int}
    (hcallback : s.callback loop calls now = .ok next) : Steady s next := by
  obtain ⟨conn, callback, rest, f, -, -, hf, hcallback⟩ := callback_ok hcallback
  have habsorb : Steady s (s.absorb conn f) :=
    (Steady.refl s).absorb_keeps (TcpConnection.onCallback_keeps hf)
  have hstart : Steady s (s.finishCallback loop conn callback rest f) :=
    (habsorb.record loop conn (.handled callback)).updateLoop _ _
  exact run_invariant (fun _ _ _ hsteady hdispatch => hsteady.dispatch hdispatch) hstart hcallback

theorem fillActiveChannel_steady {loop : LoopId} {event : Int × EventMask}
    (hsteady : Steady s middle) (hfill : fillActiveChannel loop middle event = .ok next) :
    Steady s next := by
  obtain ⟨mask, conn, -, -, rfl⟩ := fillActiveChannel_ok hfill
  have hrevents : Steady s (middle.setRevents conn event.2) := hsteady.updateConn rfl rfl
  exact hrevents.updateLoop _ _

theorem handleEvent_steady {loop : LoopId} (hhandle : s.handleEvent loop = .ok next) :
    Steady s next := by
  obtain ⟨conn, rest, -, -, rfl⟩ := handleEvent_ok hhandle
  exact (Steady.refl s).updateLoop _ _

theorem runFunctor_steady {loop : LoopId} {result : WriteResult}
    (hrun : s.runFunctor loop result = .ok next) : Steady s next := by
  obtain ⟨functor, rest, -, -, hexecute⟩ := runFunctor_ok hrun
  have hstart := (Steady.refl s).updateLoop loop (IoLoop.startFunctor functor rest)
  rcases execute_cases hexecute with ⟨conn, -, rfl⟩ | ⟨-, f, hf, hnext⟩
  · exact hstart.removeConnectionInLoop _
  · have habsorb : Steady s
        ((s.updateLoop loop (IoLoop.startFunctor functor rest)).absorb functor.target f) :=
      hstart.absorb_keeps (TcpConnection.onFunctor_keeps hf)
    rcases hnext with rfl | ⟨milestone, rfl⟩
    · exact habsorb
    · exact habsorb.record _ _ _

/-- Every step but accepting a connection. -/
theorem step_steady {action : Action}
    (hother : ∀ sockfd hasWriteCompleteCallback now,
      action ≠ .newConnection sockfd hasWriteCompleteCallback now)
    (hstep : step s action = .ok next) : Steady s next := by
  have hrefl := Steady.refl s
  cases action with
  | newConnection sockfd hasWriteCompleteCallback now => exact absurd rfl (hother _ _ _)
  | poll loop events =>
      obtain ⟨-, hstep⟩ := Except.guard_eq_ok.mp hstep
      exact run_invariant (fun _ _ _ => fillActiveChannel_steady) hrefl hstep
  | handleEvent loop =>
      obtain ⟨-, hstep⟩ := Except.guard_eq_ok.mp hstep
      exact handleEvent_steady hstep
  | callback loop calls now =>
      obtain ⟨-, hstep⟩ := Except.guard_eq_ok.mp hstep
      exact callback_steady hstep
  | endHandling loop =>
      obtain ⟨conn, -, rfl⟩ := endHandling_ok hstep
      exact hrefl.updateLoop _ _
  | swap loop | endFunctors loop =>
      obtain ⟨-, hstep⟩ := Except.guard_eq_ok.mp hstep
      obtain rfl := Except.ok.inj hstep
      exact hrefl.updateLoop _ _
  | runFunctor loop result =>
      obtain ⟨-, hstep⟩ := Except.guard_eq_ok.mp hstep
      exact runFunctor_steady hstep
  | onTimerTick =>
      obtain ⟨-, hstep⟩ := Except.guard_eq_ok.mp hstep
      split at hstep
      next => cases hstep
      next =>
        obtain rfl := Except.ok.inj hstep
        exact hrefl.withWheel _
  | destroyEntry entry =>
      obtain ⟨-, hstep⟩ := Except.guard_eq_ok.mp hstep
      split at hstep <;> obtain rfl := Except.ok.inj hstep
      · exact hrefl.withWheel _
      · unfold destroyEntry
        split
        · exact (hrefl.withWheel _).shutdown _ _
        · exact hrefl.withWheel _
  | queueSend conn buf =>
      obtain ⟨-, hstep⟩ := Except.guard_eq_ok.mp hstep
      obtain rfl := Except.ok.inj hstep
      exact hrefl.queueInLoop _ _
  | sendDirect conn buf result =>
      obtain ⟨-, hstep⟩ := Except.guard_eq_ok.mp hstep
      obtain ⟨f, hf, hstep⟩ := Except.bind_eq_ok.mp hstep
      obtain rfl := Except.ok.inj hstep
      exact hrefl.absorb_keeps (TcpConnection.send_keeps hf)
  | shutdown conn | shutdownDirect conn =>
      obtain ⟨-, hstep⟩ := Except.guard_eq_ok.mp hstep
      obtain rfl := Except.ok.inj hstep
      exact hrefl.shutdown _ _
  | user conn op =>
      obtain ⟨-, hstep⟩ := Except.guard_eq_ok.mp hstep
      obtain rfl := Except.ok.inj hstep
      exact hrefl.updateConn (by cases op <;> rfl) (by cases op <;> rfl)
  | storeShutdown call =>
      obtain ⟨-, hstep⟩ := Except.guard_eq_ok.mp hstep
      obtain rfl := Except.ok.inj hstep
      have hstored : Steady s (s.updateConn call.conn ({ · with state := .kDisconnecting })) :=
        hrefl.updateConn rfl rfl
      exact hstored.trans (.of_same rfl rfl (fun _ => rfl) fun _ => rfl)
  | queueShutdown call =>
      obtain ⟨-, hstep⟩ := Except.guard_eq_ok.mp hstep
      obtain rfl := Except.ok.inj hstep
      refine Steady.trans ?_ (.of_same rfl rfl (fun _ => rfl) fun _ => rfl)
      have hkeeps : (s.frame call.conn).Keeps call.conn
          (TcpConnection.shutdownInLoop (s.frame call.conn)) := TcpConnection.shutdownInLoop_keeps _
      split
      · exact hrefl.absorb_keeps hkeeps
      · exact hrefl.queueInLoop _ _
  | destroyConnection conn =>
      obtain ⟨-, hstep⟩ := Except.guard_eq_ok.mp hstep
      split at hstep
      next => exact (hrefl.unmap conn).connectDestroyed hstep
      next =>
        obtain rfl := Except.ok.inj hstep
        exact (hrefl.unmap conn).queueInLoop _ _
  | dropBucket =>
      obtain ⟨-, hstep⟩ := Except.guard_eq_ok.mp hstep
      obtain rfl := Except.ok.inj hstep
      exact hrefl.withWheel _
  | keep conn | drop conn | testShutdown conn | testEntryShutdown entry | destructor
  | wheelDestructor | endDestructor =>
      obtain ⟨-, hstep⟩ := Except.guard_eq_ok.mp hstep
      obtain rfl := Except.ok.inj hstep
      exact .of_same rfl rfl (fun _ => rfl) fun _ => rfl

/-- An accepted connection is established, or its loop is asked to establish it. -/
theorem newConnection_steady {sockfd now : Int} {hasWriteCompleteCallback : Bool}
    (hnew : s.newConnection sockfd hasWriteCompleteCallback now = .ok next) :
    Steady (s.construct sockfd hasWriteCompleteCallback) next := by
  obtain ⟨refreshed, hrefresh, hnew⟩ := Except.bind_eq_ok.mp hnew
  have hrefreshed := (Steady.refl _).refresh hrefresh
  split at hnew
  next => exact hrefreshed.connectEstablished hnew
  next =>
    obtain rfl := Except.ok.inj hnew
    exact hrefreshed.queueInLoop _ _

end System

end Muduo
