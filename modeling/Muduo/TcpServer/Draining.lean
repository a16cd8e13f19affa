import Muduo.TcpServer.Removal
import Muduo.TcpServer.Safety
import Mathlib.Algebra.BigOperators.Group.Finset.Basic

/-! # How a server comes to rest

A loop that gets no new events handles those it has, runs its batch and swaps the queue until
nothing is left. A handler may ask for the removal of its connection, a removal queues the
destruction, and a message queues the callbacks that announce what became of it, so each piece of
work leaves less work than it was.
-/

open Transition

namespace Muduo

open TcpConnection

/-- What a functor may queue, each functor with the two steps that it takes itself. -/
def Functor.load : Functor → Nat
  | .sendInLoop _ _ => 6
  | .removeConnectionInLoop _ => 3
  | _ => 0

/-- The steps that functors take once they are in the queue. -/
def queueWork (functors : List Functor) : Nat := (functors.map (·.load + 3)).sum

/-- The steps that functors of a batch take. -/
def batchWork (functors : List Functor) : Nat := (functors.map (·.load + 2)).sum

/-- An event runs at most four callbacks, and each asks for one removal at most. -/
def handlingWork : Option (ConnId × List Callback) → Nat
  | none => 0
  | some (_, callbacks) => 1 + 7 * callbacks.length

namespace IoLoop

def work (loop : IoLoop) : Nat :=
  30 * loop.activeChannels.length + handlingWork loop.handling + loop.executed.length +
    batchWork loop.functors + queueWork loop.pendingFunctors

end IoLoop

theorem queueWork_append (first second : List Functor) :
    queueWork (first ++ second) = queueWork first + queueWork second := by
  rw [queueWork, List.map_append, List.sum_append, queueWork, queueWork]

/-- A functor takes one step to be moved from the queue to the batch. -/
theorem queueWork_eq (functors : List Functor) :
    queueWork functors = batchWork functors + functors.length := by
  induction functors with
  | nil => rfl
  | cons functor rest ih =>
      unfold queueWork batchWork at ih ⊢
      rw [List.map_cons, List.sum_cons, List.map_cons, List.sum_cons, List.length_cons, ih]
      omega

theorem queueWork_of_notifies {functors : List Functor} {conn : ConnId}
    (hnotifies : ∀ functor ∈ functors, functor.Notifies conn) :
    queueWork functors = 3 * functors.length := by
  induction functors with
  | nil => rfl
  | cons functor rest ih =>
      have hnone : functor.load = 0 := by
        have hnotify := hnotifies functor List.mem_cons_self
        cases functor with
        | writeCompleteCallback | highWaterMarkCallback => rfl
        | connectEstablished | connectDestroyed | sendInLoop | shutdownInLoop
        | removeConnectionInLoop => exact hnotify.elim
      have hrest := ih fun other hmem => hnotifies other (List.mem_cons_of_mem _ hmem)
      unfold queueWork at hrest ⊢
      rw [List.map_cons, List.sum_cons, List.length_cons, hnone, hrest]
      omega

theorem handleEventWithGuard_length (c : Channel) : c.handleEventWithGuard.length ≤ 4 := by
  unfold Channel.handleEventWithGuard
  rw [List.length_append, List.length_append, List.length_append]
  have hbound (condition : Prop) [Decidable condition] (callback : Callback) :
      (if condition then [callback] else []).length ≤ 1 := by
    split
    · exact le_rfl
    · exact Nat.zero_le 1
  have hclose := hbound (c.revents.has EPOLLHUP && !c.revents.has EPOLLIN) .close
  have herror := hbound (c.revents.has EPOLLERR) .error
  have hread := hbound (c.revents.has (EPOLLIN ||| EPOLLPRI)) .read
  have hwrite := hbound (c.revents.has EPOLLOUT) .write
  omega

namespace TcpConnection

variable {self : ConnId} {f next : Frame}

theorem sendInLoopWrite_queues {data : List UInt8} {result : WriteResult} {nwrote : Nat}
    {faultError : Bool}
    (hwrite : sendInLoopWrite self data result f = .ok (next, nwrote, faultError)) :
    next.queued.length ≤ f.queued.length + 1 := by
  unfold sendInLoopWrite at hwrite
  split at hwrite
  next =>
    obtain ⟨wrote, hwrote, hwrite⟩ := Except.bind_eq_ok.mp hwrite
    have hsame : wrote.queued = f.queued := by
      cases result with
      | accepted count =>
          obtain ⟨-, hwrote⟩ := Except.guard_eq_ok.mp hwrote
          obtain rfl := Except.ok.inj hwrote
          rfl
      | failed errno =>
          obtain rfl := Except.ok.inj hwrote
          rfl
    rw [← hsame]
    cases result with
    | accepted count =>
        dsimp only at hwrite
        split at hwrite
        next =>
          obtain ⟨rfl, -⟩ := Prod.mk.inj (Except.ok.inj hwrite)
          rw [Frame.queueInLoop, List.length_append]
          exact le_rfl
        next =>
          obtain ⟨rfl, -⟩ := Prod.mk.inj (Except.ok.inj hwrite)
          exact Nat.le_succ _
    | failed errno =>
        obtain ⟨rfl, -⟩ := Prod.mk.inj (Except.ok.inj hwrite)
        exact Nat.le_succ _
  next =>
    obtain ⟨rfl, -⟩ := Prod.mk.inj (Except.ok.inj hwrite)
    exact Nat.le_succ _

theorem sendInLoopBuffer_queues {rest : List UInt8}
    (hsend : sendInLoopBuffer self rest f = .ok next) :
    next.queued.length ≤ f.queued.length + 1 := by
  unfold sendInLoopBuffer at hsend
  obtain ⟨marked, hmarked, hlength⟩ : ∃ marked, marked =
        (if f.conn.outputBuffer.readableBytes + rest.length ≥ f.conn.highWaterMark ∧
            f.conn.outputBuffer.readableBytes < f.conn.highWaterMark ∧
            f.conn.hasHighWaterMarkCallback then
          f.queueInLoop (.highWaterMarkCallback self
            (f.conn.outputBuffer.readableBytes + rest.length)) else f) ∧
      marked.queued.length ≤ f.queued.length + 1 := by
    refine ⟨_, rfl, ?_⟩
    split
    · rw [Frame.queueInLoop, List.length_append]
      exact le_rfl
    · exact Nat.le_succ _
  simp only [← hmarked] at hsend
  obtain ⟨outputBuffer, -, hsend⟩ := Except.bind_eq_ok.mp hsend
  split at hsend
  next =>
    obtain ⟨⟨poller, channel⟩, -, hsend⟩ := Except.bind_eq_ok.mp hsend
    obtain rfl := Except.ok.inj hsend
    exact hlength
  next =>
    obtain rfl := Except.ok.inj hsend
    exact hlength

/-- A message queues at most two notifications. -/
theorem sendInLoop_queues {data : List UInt8} {result : WriteResult}
    (hsend : sendInLoop self data result f = .ok next) :
    next.queued.length ≤ f.queued.length + 2 := by
  unfold sendInLoop at hsend
  split at hsend
  next =>
    obtain rfl := Except.ok.inj hsend
    exact Nat.le_add_right _ _
  next =>
    obtain ⟨⟨middle, nwrote, faultError⟩, hwrite, hsend⟩ := Except.bind_eq_ok.mp hsend
    have hwritten := sendInLoopWrite_queues hwrite
    dsimp only at hsend
    split at hsend
    next =>
      have hbuffered := sendInLoopBuffer_queues hsend
      omega
    next =>
      obtain rfl := Except.ok.inj hsend
      omega

theorem onChannel_queues
    {op : EpollPoller ConnId → ConnId → Channel → Except Stop (EpollPoller ConnId × Channel)}
    (hop : f.onChannel op self = .ok next) : next.queued = f.queued := by
  obtain ⟨⟨poller, channel⟩, -, hop⟩ := Except.bind_eq_ok.mp hop
  obtain rfl := Except.ok.inj hop
  rfl

theorem connectEstablished_queues (hestablish : connectEstablished self f = .ok next) :
    next.queued = f.queued := by
  obtain ⟨enabled, henable, hestablish⟩ := Except.bind_eq_ok.mp hestablish
  obtain rfl := Except.ok.inj hestablish
  have hqueued := onChannel_queues henable
  exact hqueued

theorem connectDestroyed_queues (hdestroy : connectDestroyed self f = .ok next) :
    next.queued = f.queued := by
  unfold connectDestroyed at hdestroy
  dsimp only at hdestroy
  split at hdestroy
  next =>
    obtain ⟨cleared, hclear, hdestroy⟩ := Except.bind_eq_ok.mp hdestroy
    simp only [pure_bind] at hdestroy
    have hqueued := onChannel_queues hclear
    exact (onChannel_queues hdestroy).trans hqueued
  next =>
    simp only [pure_bind] at hdestroy
    exact onChannel_queues hdestroy

theorem shutdownInLoop_queues (f : Frame) : (shutdownInLoop f).queued = f.queued := by
  unfold shutdownInLoop
  split
  · rfl
  · rfl

/-- A functor queues less than its load. -/
theorem onFunctor_queueWork {functor : Functor} {result : WriteResult} (hnone : f.queued = [])
    (hremove : ∀ conn, functor ≠ .removeConnectionInLoop conn)
    (hfunctor : onFunctor functor result f = .ok next) :
    queueWork next.queued ≤ functor.load := by
  obtain ⟨queued, hqueued, hnotifies⟩ := (onFunctor_keeps hfunctor).queued
  rw [hnone, List.nil_append] at hqueued
  have hwork : queueWork next.queued = 3 * next.queued.length := by
    rw [hqueued]
    exact queueWork_of_notifies hnotifies
  rw [hwork]
  cases functor with
  | sendInLoop conn buf =>
      have hlength := sendInLoop_queues hfunctor
      rw [hnone, List.length_nil] at hlength
      rw [Functor.load]
      omega
  | removeConnectionInLoop conn => exact absurd rfl (hremove conn)
  | connectEstablished conn =>
      rw [connectEstablished_queues hfunctor, hnone]
      exact Nat.zero_le _
  | connectDestroyed conn =>
      rw [connectDestroyed_queues hfunctor, hnone]
      exact Nat.zero_le _
  | shutdownInLoop this =>
      obtain rfl := Except.ok.inj hfunctor
      rw [shutdownInLoop_queues, hnone]
      exact Nat.zero_le _
  | writeCompleteCallback | highWaterMarkCallback =>
      obtain rfl := Except.ok.inj hfunctor
      rw [Frame.emit, hnone]
      exact Nat.zero_le _

/-! ## Calls that the kernel refuses -/

/-- With a read that fails, a handler closes the connection or does nothing. -/
theorem onCallback_failed (hf : f.Sound self) (callback : Callback) :
    ∃ next, onCallback self callback ⟨.failed .econnreset, .econnreset, .accepted 0⟩ f = .ok next ∧
      (next.events = f.events ∨
        next.events = f.events ++ [.connectionCallback .kDisconnected, .closeCallback]) := by
  obtain ⟨closed, hclose, hcloses⟩ := handleClose_ok hf
  cases callback with
  | write => exact ⟨f, handleWrite_eq hf _, Or.inl rfl⟩
  | close => exact ⟨closed, hclose, Or.inr hcloses.events⟩
  | error | read =>
      exact ⟨closed, (handleError_eq .econnreset f).trans hclose, Or.inr hcloses.events⟩

/-- A message that finds the connection broken is dropped, unless others wait before it. -/
theorem sendInLoop_failed (hf : f.Sound self) {data : List UInt8}
    (hfits : data.length ≤ maxSize) : (sendInLoop self data (.failed .epipe) f).Returns := by
  unfold sendInLoop
  split
  next => exact .ok f
  next =>
    unfold sendInLoopWrite
    rw [hf.not_isWriting]
    split
    next => exact .ok _
    next =>
      change (if (!false && decide (data.length - 0 > 0)) = true then
        sendInLoopBuffer self (data.drop 0) f else return f).Returns
      split
      next => exact sendInLoopBuffer_returns hf hfits
      next => exact .ok f

theorem onFunctor_failed {functor : Functor} (hf : f.Sound functor.target)
    (hfits : ∀ buf ∈ functor.messages, buf.length ≤ maxSize)
    (hestablish : functor = .connectEstablished functor.target →
      f.conn.state = .kConnecting ∧ f.conn.backlog = []) :
    (onFunctor functor (.failed .epipe) f).Returns := by
  cases functor with
  | connectEstablished conn =>
      obtain ⟨hstate, hempty⟩ := hestablish rfl
      obtain ⟨next, hnext, -⟩ := connectEstablished_ok hf hstate hempty
      exact Or.inl ⟨next, hnext⟩
  | connectDestroyed conn =>
      obtain ⟨next, hnext, -⟩ := connectDestroyed_ok hf
      exact Or.inl ⟨next, hnext⟩
  | sendInLoop conn buf => exact sendInLoop_failed hf (hfits buf (List.mem_singleton_self _))
  | shutdownInLoop | removeConnectionInLoop | writeCompleteCallback | highWaterMarkCallback =>
      exact .ok _

end TcpConnection

namespace System

variable {s next : System} {conn : ConnId} {loop : LoopId}

/-! ## The work of a server -/

/-- The work of the loops, and of the entries of the bucket that is destroyed. -/
def work (s : System) : Nat :=
  ∑ loop ∈ Finset.range (s.server.threadPool.numThreads + 1), (s.loops loop).work +
    4 * s.server.timerWheel.expired.length

/-- The work that is not this loop's. -/
def workBeside (loop : LoopId) (s : System) : Nat :=
  ∑ other ∈ (Finset.range (s.server.threadPool.numThreads + 1)).erase loop,
    (s.loops other).work + 4 * s.server.timerWheel.expired.length

theorem work_eq (hloop : loop ∈ s.loopIds) :
    s.work = (s.loops loop).work + s.workBeside loop := by
  have hmem : loop ∈ Finset.range (s.server.threadPool.numThreads + 1) :=
    Finset.mem_range.mpr (List.mem_range.mp hloop)
  rw [work, workBeside, ← Finset.add_sum_erase _ _ hmem, Nat.add_assoc]

theorem workBeside_updateLoop (loop : LoopId) (change : IoLoop → IoLoop) (s : System) :
    (s.updateLoop loop change).workBeside loop = s.workBeside loop := by
  unfold workBeside
  congr 1
  refine Finset.sum_congr rfl fun other hother => ?_
  rw [updateLoop_of_ne (Finset.ne_of_mem_erase hother)]

theorem work_updateLoop (hloop : loop ∈ s.loopIds) (change : IoLoop → IoLoop) :
    (s.updateLoop loop change).work + (s.loops loop).work =
      s.work + (change (s.loops loop)).work := by
  have hsame : loop ∈ (s.updateLoop loop change).loopIds := hloop
  rw [work_eq hloop, work_eq hsame, updateLoop_self, workBeside_updateLoop]
  omega

/-! ## Pieces of steps -/

theorem queueInLoop_work (hloop : loop ∈ s.loopIds) (functor : Functor) :
    (s.queueInLoop loop functor).work = s.work + (functor.load + 3) := by
  have hwork := work_updateLoop hloop fun ioLoop =>
    { ioLoop with pendingFunctors := ioLoop.pendingFunctors ++ [functor] }
  have hqueue : queueWork ((s.loops loop).pendingFunctors ++ [functor]) =
      queueWork (s.loops loop).pendingFunctors + (functor.load + 3) := queueWork_append _ _
  simp only [IoLoop.work] at hwork
  unfold System.queueInLoop
  omega

theorem absorb_work (hown : s.own conn ∈ s.loopIds) (f : Frame) :
    (s.absorb conn f).work = s.work + queueWork f.queued := by
  have hloop : s.own conn ∈ (s.updateConn conn fun _ => f.conn).loopIds := hown
  have hwork := work_updateLoop hloop fun ioLoop =>
    { ioLoop with poller := f.poller, pendingFunctors := ioLoop.pendingFunctors ++ f.queued }
  have hsame : (s.updateConn conn fun _ => f.conn).work = s.work := rfl
  simp only [IoLoop.work, queueWork_append] at hwork
  unfold absorb
  omega

theorem removeConnectionInLoop_work (conn : ConnId) (hown : s.own conn ∈ s.loopIds) :
    (s.removeConnectionInLoop conn).work = s.work + 3 := by
  have hloop : s.own conn ∈ (s.unmap conn).loopIds := hown
  exact queueInLoop_work hloop (.connectDestroyed conn)

/-- A removal waits at the base loop, and then the destruction at the loop of the connection. -/
theorem removeConnection_work (hown : s.own conn ∈ s.loopIds)
    (hremove : s.removeConnection loop conn = .ok next) : next.work ≤ s.work + 6 := by
  rcases removeConnection_cases hremove with ⟨-, rfl⟩ | ⟨-, rfl⟩
  · rw [removeConnectionInLoop_work conn hown]
    omega
  · rw [queueInLoop_work (base_mem_loopIds s)]
    exact le_rfl

theorem withWheel_work (timerWheel : TimerWheel) :
    (s.withWheel timerWheel).work + 4 * s.server.timerWheel.expired.length =
      s.work + 4 * timerWheel.expired.length := by
  unfold work withWheel
  dsimp only
  omega

/-- A refresh destroys no entry. -/
theorem refresh_work {now : Int} (hrefresh : s.refresh conn now = .ok next) :
    next.work = s.work := by
  rcases refresh_cases hrefresh with rfl | ⟨timerWheel, context, hupdate, rfl⟩
  · rfl
  · have hexpired : timerWheel.expired = s.server.timerWheel.expired := by
      rcases TimerWheel.updateConnection_cases hupdate with ⟨_, -, -, rfl, -⟩ |
        ⟨_, _, -, -, -, rfl, -⟩ | ⟨_, -, -, rfl, -⟩
      · rfl
      · rfl
      · rfl
    have hwork := withWheel_work (s := s) timerWheel
    rw [hexpired] at hwork
    exact Nat.add_right_cancel hwork

theorem shutdown_work (hown : s.own conn ∈ s.loopIds) (inLoopThread : Bool) :
    (s.shutdown conn inLoopThread).work ≤ s.work + 3 := by
  unfold System.shutdown
  rw [absorb_work hown]
  unfold TcpConnection.shutdown
  split
  next =>
    split
    next =>
      rw [shutdownInLoop_queues]
      exact Nat.le_add_right _ 3
    next => exact le_rfl
  next => exact Nat.le_add_right _ 3

/-! ## Each step lowers the work -/

/-- The loops go on with the events and functors they have, and the base loop with the entries of
the bucket that is destroyed. -/
def Continues (s : System) : Action → Prop
  | .handleEvent _ | .callback .. | .endHandling _ | .runFunctor .. | .destroyEntry _ => True
  | .swap loop => (s.loops loop).pendingFunctors ≠ []
  | .endFunctors loop => (s.loops loop).executed ≠ []
  | _ => False

instance (s : System) : (action : Action) → Decidable (s.Continues action) := by
  rintro ⟨⟩ <;> dsimp only [Continues] <;> infer_instance

theorem Continues.regular {action : Action} (hcontinues : s.Continues action) :
    s.Regular action := by
  cases action with
  | handleEvent | callback | endHandling | runFunctor | destroyEntry | swap | endFunctors =>
      trivial
  | _ => exact hcontinues.elim

theorem handleEvent_work (hloop : loop ∈ s.loopIds) (hhandling : (s.loops loop).handling = none)
    (hhandle : s.handleEvent loop = .ok next) : next.work < s.work := by
  obtain ⟨conn, rest, hactive, -, rfl⟩ := handleEvent_ok hhandle
  have hlength := handleEventWithGuard_length (s.conns conn).channel
  have hwork := work_updateLoop hloop fun ioLoop => { ioLoop with
    activeChannels := rest
    handling := some (conn, (s.conns conn).channel.handleEventWithGuard)
    guard := if (s.conns conn).channel.tied then some conn else none }
  simp only [IoLoop.work, hactive, hhandling, handlingWork, List.length_cons] at hwork
  omega

theorem finishCallback_work (hloop : loop ∈ s.loopIds) (hown : s.own conn = loop)
    {callback : Callback} {rest : List Callback}
    (hhandling : (s.loops loop).handling = some (conn, callback :: rest)) (f : Frame) :
    (s.finishCallback loop conn callback rest f).work + 7 = s.work + queueWork f.queued := by
  subst hown
  have habsorb := absorb_work hloop f
  have hsame : (((s.absorb conn f).record (s.own conn) conn (.handled callback)).loops
      (s.own conn)).handling = (s.loops (s.own conn)).handling := by
    change ((s.absorb conn f).loops (s.own conn)).handling = _
    rw [absorb, updateLoop_self]
    rfl
  have hmem : s.own conn ∈
      ((s.absorb conn f).record (s.own conn) conn (.handled callback)).loopIds := hloop
  have hwork := work_updateLoop hmem ({ · with handling := some (conn, rest) })
  have hrecord : ((s.absorb conn f).record (s.own conn) conn (.handled callback)).work =
      (s.absorb conn f).work := rfl
  simp only [IoLoop.work, hsame, hhandling, handlingWork, List.length_cons] at hwork
  unfold finishCallback
  omega

theorem Invariant.callback_work (hs : s.Invariant) (hloop : loop ∈ s.loopIds) {calls : Syscalls}
    {now : Int} (hcallback : s.callback loop calls now = .ok next) : next.work < s.work := by
  obtain ⟨conn, callback, rest, f, hhandling, halive, hf, hdispatch⟩ := callback_ok hcallback
  have hwatches : (s.loops loop).Watches conn := Or.inr (by rw [hhandling]; rfl)
  obtain ⟨-, hown, -⟩ := hs.of_watches hwatches
  have hfinish := finishCallback_work hloop hown hhandling f
  rcases onCallback_cases (hs.records.registry.sound conn halive) hf with
    ⟨-, rfl⟩ | ⟨-, hcloses⟩ | ⟨-, hdelivers⟩
  · -- nothing is called
    obtain rfl := Except.ok.inj hdispatch
    have hnone : queueWork (s.frame conn).queued = 0 := rfl
    omega
  · have hnone : queueWork f.queued = 0 := congrArg queueWork hcloses.queued
    rw [hcloses.events] at hdispatch
    have hremove : (s.finishCallback loop conn callback rest f).removeConnection loop conn =
        .ok next := by
      obtain ⟨middle, hconnection, hclose⟩ := run_cons_eq_ok.mp hdispatch
      obtain rfl := Except.ok.inj hconnection
      obtain ⟨removed, hremove, hend⟩ := run_cons_eq_ok.mp hclose
      obtain rfl := Except.ok.inj hend
      exact hremove
    have hfinished : (s.finishCallback loop conn callback rest f).Guarded :=
      finishCallback_guarded hs.guarded halive.1 (onCallback_keeps hf) loop callback rest
    have hremoved := removeConnection_work (hfinished.wellformed.own conn halive.1) hremove
    omega
  · have hnone : queueWork f.queued = 0 := congrArg queueWork hdelivers.queued
    rw [hdelivers.events] at hdispatch
    obtain ⟨refreshed, hmessage, hend⟩ := run_cons_eq_ok.mp hdispatch
    obtain rfl := Except.ok.inj hend
    have hrefresh : refreshed.work = (s.finishCallback loop conn callback rest f).work := by
      rcases dispatch_cases hmessage with ⟨hclose, -⟩ | ⟨-, hrefresh⟩ | rfl
      · cases hclose
      · exact refresh_work hrefresh
      · rfl
    omega

theorem Invariant.runFunctor_work (hs : s.Invariant) (hloop : loop ∈ s.loopIds)
    {result : WriteResult} (hrun : s.runFunctor loop result = .ok next) : next.work < s.work := by
  obtain ⟨functor, rest, hfunctors, halive, hexecute⟩ := runFunctor_ok hrun
  have hown : s.own functor.target ∈ s.loopIds := hs.guarded.wellformed.own _ halive.1
  have hframe : (s.updateLoop loop (IoLoop.startFunctor functor rest)).frame functor.target =
      s.frame functor.target := frame_updateLoop rfl _
  have hstart := work_updateLoop hloop (IoLoop.startFunctor functor rest)
  simp only [IoLoop.work, IoLoop.startFunctor, hfunctors, batchWork, List.map_cons, List.sum_cons,
    List.length_append, List.length_singleton] at hstart
  have hstarted : s.own functor.target ∈
      (s.updateLoop loop (IoLoop.startFunctor functor rest)).loopIds := hown
  rcases execute_cases hexecute with ⟨conn, rfl, rfl⟩ | ⟨hother, f, hf, hnext⟩
  · have hremoved := removeConnectionInLoop_work conn hstarted
    have hload : (Functor.removeConnectionInLoop conn).load = 3 := rfl
    omega
  · rw [hframe] at hf
    have hqueued := onFunctor_queueWork rfl hother hf
    have habsorb := absorb_work hstarted f
    have hnext : next.work =
        ((s.updateLoop loop (IoLoop.startFunctor functor rest)).absorb functor.target f).work := by
      rcases hnext with rfl | ⟨milestone, rfl⟩
      · rfl
      · rfl
    omega

theorem destroyEntry_work (hown : ∀ conn < s.accepted, s.own conn ∈ s.loopIds) (conn : ConnId) :
    (s.destroyEntry conn).work ≤ s.work + 3 := by
  unfold destroyEntry
  split
  next halive => exact shutdown_work (hown conn halive.1) _
  next => exact Nat.le_add_right _ 3

/-- **No step of the loops makes work for itself.** -/
theorem Invariant.step_work (hs : s.Invariant) {action : Action}
    (hcontinues : s.Continues action) (hstep : step s action = .ok next) :
    next.work < s.work := by
  cases action with
  | handleEvent loop =>
      obtain ⟨⟨hruns, hhandling, -⟩, hstep⟩ := Except.guard_eq_ok.mp hstep
      exact handleEvent_work hruns.1 hhandling hstep
  | callback loop calls now =>
      obtain ⟨hruns, hstep⟩ := Except.guard_eq_ok.mp hstep
      exact hs.callback_work hruns.1 hstep
  | endHandling loop =>
      simp only [step] at hstep
      split at hstep
      next conn hhandling =>
        obtain ⟨hruns, hstep⟩ := Except.guard_eq_ok.mp hstep
        obtain rfl := Except.ok.inj hstep
        have hwork := work_updateLoop hruns.1 ({ · with handling := none, guard := none })
        simp only [IoLoop.work, hhandling, handlingWork, List.length_nil] at hwork
        omega
      next => cases hstep
  | swap loop =>
      obtain ⟨⟨hruns, -, -, hexecuted, hfunctors⟩, hstep⟩ := Except.guard_eq_ok.mp hstep
      obtain rfl := Except.ok.inj hstep
      have hpending : 0 < (s.loops loop).pendingFunctors.length :=
        List.length_pos_iff.mpr hcontinues
      have hmoved := queueWork_eq (s.loops loop).pendingFunctors
      have hwork := work_updateLoop hruns.1 IoLoop.swapFunctors
      have hnone : batchWork [] = 0 := rfl
      have hempty : queueWork [] = 0 := rfl
      simp only [IoLoop.work, IoLoop.swapFunctors, hfunctors] at hwork
      omega
  | runFunctor loop result =>
      obtain ⟨hruns, hstep⟩ := Except.guard_eq_ok.mp hstep
      exact hs.runFunctor_work hruns.1 hstep
  | endFunctors loop =>
      obtain ⟨⟨hruns, -⟩, hstep⟩ := Except.guard_eq_ok.mp hstep
      obtain rfl := Except.ok.inj hstep
      have hexecuted : 0 < (s.loops loop).executed.length := List.length_pos_iff.mpr hcontinues
      have hwork := work_updateLoop hruns.1 IoLoop.destroyBatch
      simp only [IoLoop.work, IoLoop.destroyBatch, List.length_nil] at hwork
      omega
  | destroyEntry entry =>
      obtain ⟨⟨hentry, -⟩, hstep⟩ := Except.guard_eq_ok.mp hstep
      have hpositive : 0 < s.server.timerWheel.expired.length := List.length_pos_of_mem hentry
      have hlength : (s.server.timerWheel.release entry).expired.length =
          s.server.timerWheel.expired.length - 1 := List.length_erase_of_mem hentry
      have hwheel := withWheel_work (s := s) (s.server.timerWheel.release entry)
      split at hstep
      next =>
        obtain rfl := Except.ok.inj hstep
        omega
      next =>
        obtain rfl := Except.ok.inj hstep
        have hdestroyed := destroyEntry_work
          (s := s.withWheel (s.server.timerWheel.release entry)) hs.guarded.wellformed.own
          ((s.server.timerWheel.release entry).entries entry).conn
        omega
  | _ => exact hcontinues.elim

/-! ## No loop is stuck -/

/-- A handler whose read fails closes the connection. -/
theorem Invariant.callback_returns (hs : s.Invariant) {callback : Callback}
    {rest : List Callback} (hhandling : (s.loops loop).handling = some (conn, callback :: rest)) :
    (s.callback loop ⟨.failed .econnreset, .econnreset, .accepted 0⟩ 0).Returns := by
  have hwatches : (s.loops loop).Watches conn := Or.inr (by rw [hhandling]; rfl)
  have halive := (hs.of_watches hwatches).1
  obtain ⟨f, hf, hevents⟩ := onCallback_failed (hs.records.registry.sound conn halive) callback
  unfold System.callback
  rw [hhandling]
  dsimp only
  rw [if_pos halive, hf]
  change (run (dispatch loop conn 0) (s.finishCallback loop conn callback rest f) f.events).Returns
  rcases hevents with hnone | hcloses
  · rw [hnone]
    exact .ok _
  · have hrunning : (s.finishCallback loop conn callback rest f).lifetime ≠ .destroyed := by
      change s.lifetime ≠ .destroyed
      rw [hs.records.running]
      decide
    rw [hcloses]
    refine Except.Returns.bind (.ok _) fun middle hconnection => ?_
    obtain rfl := Except.ok.inj hconnection
    refine Except.Returns.bind ?_ fun removed _ => .ok removed
    change (removeConnection loop conn _).Returns
    unfold removeConnection
    rw [if_neg hrunning]
    split
    · exact .ok _
    · exact .ok _

theorem Invariant.runFunctor_returns (hs : s.Invariant) {functor : Functor}
    {rest : List Functor} (hfunctors : (s.loops loop).functors = functor :: rest) :
    (s.runFunctor loop (.failed .epipe)).Returns := by
  obtain ⟨halive, hfits, hestablish⟩ := hs.functor_ready hfunctors
  have hsound := hs.records.registry.sound functor.target halive
  have hframe : (s.updateLoop loop (IoLoop.startFunctor functor rest)).frame functor.target =
      s.frame functor.target := frame_updateLoop rfl _
  have hmember := onFunctor_failed hsound hfits hestablish
  unfold System.runFunctor
  rw [hfunctors]
  dsimp only
  rw [if_pos halive]
  unfold execute
  split
  next conn =>
    rw [if_neg (by simp [updateLoop, hs.records.running])]
    exact .ok _
  next =>
    rw [hframe]
    refine hmember.bind fun f _ => ?_
    dsimp only
    split
    · exact .ok _
    · exact .ok _

/-- Where no step of the loops is possible, they have nothing to do. -/
theorem Invariant.rests (hs : s.Invariant)
    (hstuck : ∀ action, s.Continues action → step s action = .error .disabled) :
    s.AtRest ∧ s.server.timerWheel.expired = [] := by
  have hcalls : ∀ call ∈ s.calls, call.caller ≠ .entry := by
    rw [hs.records.calls]
    exact nofun
  have hexpired : s.server.timerWheel.expired = [] := by
    by_contra hentries
    obtain ⟨entry, hentry⟩ := List.exists_mem_of_ne_nil _ hentries
    have hdisabled := hstuck (.destroyEntry entry) trivial
    simp only [step] at hdisabled
    rw [if_pos ⟨hentry, hcalls⟩] at hdisabled
    split at hdisabled
    · cases hdisabled
    · cases hdisabled
  refine ⟨fun loop hloop => ?_, hexpired⟩
  have hruns : s.Runs loop := by
    refine ⟨hloop, fun _ => ?_⟩
    rintro (hdestructor | hwheel | hentries | ⟨call, hcall, hentry⟩)
    · cases hs.records.running.symm.trans hdestructor
    · cases hs.records.running.symm.trans hwheel
    · exact hentries hexpired
    · exact hcalls call hcall hentry
  have hhandling : (s.loops loop).handling = none := by
    cases heq : (s.loops loop).handling with
    | none => rfl
    | some event =>
        obtain ⟨conn, callbacks⟩ := event
        cases callbacks with
        | nil =>
            have hdisabled := hstuck (.endHandling loop) trivial
            simp only [step, heq] at hdisabled
            rw [if_pos hruns] at hdisabled
            cases hdisabled
        | cons callback rest =>
            have hdisabled :=
              hstuck (.callback loop ⟨.failed .econnreset, .econnreset, .accepted 0⟩ 0) trivial
            simp only [step] at hdisabled
            rw [if_pos hruns] at hdisabled
            exact absurd hdisabled (hs.callback_returns heq).ne_disabled
  have hfunctors : (s.loops loop).functors = [] := by
    cases heq : (s.loops loop).functors with
    | nil => rfl
    | cons functor rest =>
        have hdisabled := hstuck (.runFunctor loop (.failed .epipe)) trivial
        simp only [step] at hdisabled
        rw [if_pos hruns] at hdisabled
        exact absurd hdisabled (hs.runFunctor_returns heq).ne_disabled
  have hexecuted : (s.loops loop).executed = [] := by
    by_contra hsome
    have hdisabled := hstuck (.endFunctors loop) hsome
    simp only [step] at hdisabled
    rw [if_pos ⟨hruns, hfunctors⟩] at hdisabled
    cases hdisabled
  have hactive : (s.loops loop).activeChannels = [] := by
    cases heq : (s.loops loop).activeChannels with
    | nil => rfl
    | cons conn rest =>
        have hwatches : (s.loops loop).Watches conn := Or.inl (by rw [heq]; exact .head rest)
        have hdisabled := hstuck (.handleEvent loop) trivial
        simp only [step] at hdisabled
        rw [if_pos ⟨hruns, hhandling, hexecuted, hfunctors⟩] at hdisabled
        unfold System.handleEvent at hdisabled
        rw [heq] at hdisabled
        dsimp only at hdisabled
        rw [if_pos (hs.of_watches hwatches).1] at hdisabled
        cases hdisabled
  have hidle : (s.loops loop).Idle := ⟨hactive, hhandling, hexecuted, hfunctors⟩
  refine ⟨hidle, ?_⟩
  by_contra hsome
  have hdisabled := hstuck (.swap loop) hsome
  simp only [step] at hdisabled
  rw [if_pos ⟨hruns, hidle⟩] at hdisabled
  cases hdisabled

/-! ## Runs -/

/-- **A server comes to rest.** From any state of a running server the loops take a bounded number
of steps without new events, ticks and calls, and unless an exception ends the process they stop
only where no loop has an event to handle or a functor to run. -/
theorem comes_to_rest {listenAddr : InetAddress} {nameArg : String} {timeout numThreads : Nat}
    {schedule more : List Action} {final : System}
    (hregular : EveryStep step Regular (initial listenAddr nameArg timeout numThreads) schedule)
    (hrun : run step (initial listenAddr nameArg timeout numThreads) schedule = .ok s)
    (hcontinues : EveryStep step Continues s more) (hmore : run step s more = .ok final) :
    more.length + final.work ≤ s.work ∧
      ((∀ action, final.Continues action → step final action = .error .disabled) →
        final.AtRest ∧ final.server.timerWheel.expired = []) := by
  have hs : s.Invariant := run_invariant_of_everyStep step_invariant
    (initial_invariant listenAddr nameArg timeout numThreads) hregular hrun
  have hpreserved (s : System) (action : Action) (next : System) (hs : s.Invariant)
      (hcontinues : s.Continues action) (hstep : step s action = .ok next) : next.Invariant :=
    step_invariant s action next hs hcontinues.regular hstep
  have hfinal : final.Invariant := run_invariant_of_everyStep hpreserved hs hcontinues hmore
  refine ⟨?_, hfinal.rests⟩
  exact length_add_measure_le hpreserved (fun _ _ _ hs => hs.step_work) hs hcontinues hmore

/-- The peer closes its connection. -/
def peerLeaves : List Action :=
  [.newConnection 8 false 0, .swap 1, .runFunctor 1 (.accepted 0), .endFunctors 1,
    .poll 1 [(8, EPOLLIN)]]

def clearsUp : List Action :=
  [.handleEvent 1, .callback 1 ⟨.received [], .other 0, .accepted 0⟩ 0, .endHandling 1, .swap 0,
    .runFunctor 0 (.accepted 0), .endFunctors 0, .swap 1, .runFunctor 1 (.accepted 0),
    .endFunctors 1]

theorem comes_to_rest_peerLeaves : ∃ s final, run step idleServer peerLeaves = .ok s ∧
    run step s clearsUp = .ok final ∧ clearsUp.length + final.work ≤ s.work ∧ final.AtRest := by
  have hends : ends (fun s => decide (EveryStep step Continues s clearsUp) &&
      ends (fun final => decide final.AtRest) (run step s clearsUp))
      (run step idleServer peerLeaves) = true := by decide +kernel
  obtain ⟨s, hrun, hcheck⟩ := exists_of_ends hends
  rw [Bool.and_eq_true] at hcheck
  obtain ⟨hcontinues, hmore⟩ := hcheck
  obtain ⟨final, hmore, hrest⟩ := exists_of_ends hmore
  have hregular : EveryStep step Regular idleServer peerLeaves := by decide +kernel
  have hbounded := (comes_to_rest hregular hrun (of_decide_eq_true hcontinues) hmore).1
  exact ⟨s, final, hrun, hmore, hbounded, of_decide_eq_true hrest⟩

end System

end Muduo
