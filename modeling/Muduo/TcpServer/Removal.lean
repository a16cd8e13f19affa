import Muduo.TcpServer.Contract

/-! # What a server keeps when it rests

A connection that is closed has been given up for removal in the same step, one that is open is
registered with the poller of its loop, and only a loop that handles an event holds the connection
of the event. So once the loops have nothing left to do, the open connections are registered and
kept, and the closed ones are gone.
-/

open Transition

namespace Muduo

open TcpConnection

/-- Removals are asked for, and are not taken back. -/
def Stage.asked (g : Stage) : Nat := g.toRemove + g.removed

theorem Stage.Move.asked_le {g next : Stage} (hmove : g.Move next) : g.asked ≤ next.asked := by
  unfold Stage.asked
  cases hmove with
  | establish | work | close | destroy | watch | unwatch => exact le_rfl
  | requestRemoval | removeDirectly | remove =>
      dsimp only
      omega

theorem Stage.asked_le_of_moves {g next : Stage}
    (hmoves : Relation.ReflTransGen Stage.Move g next) : g.asked ≤ next.asked := by
  induction hmoves with
  | refl => exact le_rfl
  | tail _ hmove ih => exact ih.trans hmove.asked_le

/-- An open connection is closed by a handler or destroyed. -/
theorem TcpConnection.Effect.closed_of_cause {cause : Cause} {state after : StateE}
    {before left : List UInt8} {sent : List (List UInt8)} {events : List IoEvent}
    (heffect : Effect cause state before sent events after left) (hreact : cause ≠ .react)
    (hdestroy : cause ≠ .destroy) (hafter : after = .kDisconnected) :
    state = .kDisconnected := by
  cases heffect with
  | close | deliver => exact absurd rfl hreact
  | destroy | remove => exact absurd rfl hdestroy
  | message | quiet | refuse | writeComplete | highWaterMark | halfClose => exact hafter
  | shutdown | shutdownHalfClose | establish => cases hafter

namespace System

variable {s middle next : System} {conn : ConnId} {loop : LoopId} {closing : ConnId → Prop}

/-- What holds of closed connections, of open ones and of loops between two events. -/
structure Tidy (s : System) : Prop where
  requested : ∀ conn < s.accepted, (s.conns conn).state = .kDisconnected →
    0 < (s.stage conn).asked
  registered : ∀ conn < s.accepted, (s.frame conn).Registered
  unguarded : ∀ loop, (s.loops loop).handling = none → (s.loops loop).guard = none

theorem initial_tidy (listenAddr : InetAddress) (nameArg : String) (timeout numThreads : Nat) :
    (initial listenAddr nameArg timeout numThreads).Tidy where
  requested := nofun
  registered := nofun
  unguarded := fun _ _ => rfl

/-! ## Pieces of steps -/

/-- A step closes no other connections than those named, keeps open ones registered, and lets go
of a connection when it ends the handling of an event. -/
structure Preserves (closing : ConnId → Prop) (s next : System) : Prop where
  accepted : next.accepted = s.accepted
  closed : ∀ conn, ¬ closing conn → (next.conns conn).state = .kDisconnected →
    (s.conns conn).state = .kDisconnected
  registered : ∀ conn, (s.frame conn).Registered → (next.frame conn).Registered
  unguarded : ∀ loop, ((s.loops loop).handling = none → (s.loops loop).guard = none) →
    (next.loops loop).handling = none → (next.loops loop).guard = none

theorem Preserves.of_same (haccepted : next.accepted = s.accepted) (hconns : next.conns = s.conns)
    (hloops : ∀ loop, (next.loops loop).handling = (s.loops loop).handling ∧
      (next.loops loop).guard = (s.loops loop).guard) : Preserves closing s next where
  accepted := haccepted
  closed := fun conn _ => by rw [hconns]; exact id
  registered := fun conn => by
    unfold Frame.Registered frame
    rw [hconns]
    exact id
  unguarded := fun loop => by rw [(hloops loop).1, (hloops loop).2]; exact id

theorem Preserves.refl (s : System) : Preserves closing s s :=
  .of_same rfl rfl fun _ => ⟨rfl, rfl⟩

theorem Preserves.trans (hfirst : Preserves closing s middle)
    (hsecond : Preserves closing middle next) : Preserves closing s next where
  accepted := hsecond.accepted.trans hfirst.accepted
  closed := fun conn hopen hclosed =>
    hfirst.closed conn hopen (hsecond.closed conn hopen hclosed)
  registered := fun conn hregistered =>
    hsecond.registered conn (hfirst.registered conn hregistered)
  unguarded := fun loop hunguarded => hsecond.unguarded loop (hfirst.unguarded loop hunguarded)

theorem Preserves.updateLoop (hs : Preserves closing s middle) {change : IoLoop → IoLoop}
    (hunguarded : ((middle.loops loop).handling = none → (middle.loops loop).guard = none) →
      (change (middle.loops loop)).handling = none → (change (middle.loops loop)).guard = none) :
    Preserves closing s (middle.updateLoop loop change) := by
  refine hs.trans ⟨rfl, fun _ _ => id, fun _ => id, fun other => ?_⟩
  by_cases hother : other = loop
  · subst hother
    rw [updateLoop_self]
    exact hunguarded
  · rw [updateLoop_of_ne hother]
    exact id

/-- The functors of a loop change, and the events it has. -/
theorem Preserves.sameHandling (hs : Preserves closing s middle) {change : IoLoop → IoLoop}
    (hhandling : (change (middle.loops loop)).handling = (middle.loops loop).handling)
    (hguard : (change (middle.loops loop)).guard = (middle.loops loop).guard) :
    Preserves closing s (middle.updateLoop loop change) :=
  hs.updateLoop (by rw [hhandling, hguard]; exact id)

theorem Preserves.queueInLoop (hs : Preserves closing s middle) (loop : LoopId)
    (functor : Functor) : Preserves closing s (middle.queueInLoop loop functor) :=
  hs.sameHandling rfl rfl

theorem Preserves.record (hs : Preserves closing s middle) (loop : LoopId) (conn : ConnId)
    (milestone : Milestone) : Preserves closing s (middle.record loop conn milestone) :=
  hs.trans (.of_same rfl rfl fun _ => ⟨rfl, rfl⟩)

theorem Preserves.withWheel (hs : Preserves closing s middle) (timerWheel : TimerWheel) :
    Preserves closing s (middle.withWheel timerWheel) :=
  hs.trans (.of_same rfl rfl fun _ => ⟨rfl, rfl⟩)

theorem Preserves.updateConn (hs : Preserves closing s middle)
    {change : TcpConnection → TcpConnection}
    (hclosed : ¬ closing conn → (change (middle.conns conn)).state = .kDisconnected →
      (middle.conns conn).state = .kDisconnected)
    (hregistered : (middle.frame conn).Registered →
      (change (middle.conns conn)).Established →
        (change (middle.conns conn)).channel.index = .kAdded) :
    Preserves closing s (middle.updateConn conn change) := by
  refine hs.trans ⟨rfl, fun other => ?_, fun other => ?_, fun _ => id⟩
  · by_cases hother : other = conn
    · subst hother
      rw [updateConn_self]
      exact hclosed
    · rw [updateConn_of_ne hother]
      exact fun _ => id
  · by_cases hother : other = conn
    · subst hother
      unfold Frame.Registered frame
      dsimp only
      rw [updateConn_self]
      exact hregistered
    · unfold Frame.Registered frame
      dsimp only
      rw [updateConn_of_ne hother]
      exact id

/-- The state and the registration stay. -/
theorem Preserves.settings (hs : Preserves closing s middle)
    {change : TcpConnection → TcpConnection}
    (hstate : (change (middle.conns conn)).state = (middle.conns conn).state)
    (hindex : (change (middle.conns conn)).channel.index = (middle.conns conn).channel.index) :
    Preserves closing s (middle.updateConn conn change) := by
  refine hs.updateConn (fun _ => by rw [hstate]; exact id) ?_
  unfold Frame.Registered Established frame
  rw [hstate, hindex]
  exact id

/-- A member function runs that keeps an open connection registered. -/
theorem Preserves.absorb (hs : Preserves closing s middle) {f : Frame}
    (hclosed : ¬ closing conn → f.conn.state = .kDisconnected →
      (middle.conns conn).state = .kDisconnected)
    (hregistered : (middle.frame conn).Registered → f.Registered) :
    Preserves closing s (middle.absorb conn f) :=
  (hs.updateConn hclosed hregistered).sameHandling rfl rfl

theorem Preserves.removeConnectionInLoop (hs : Preserves closing s middle) (conn : ConnId) :
    Preserves closing s (middle.removeConnectionInLoop conn) := by
  have hunmap : Preserves closing s (middle.unmap conn) :=
    hs.trans (.of_same rfl rfl fun _ => ⟨rfl, rfl⟩)
  exact (hunmap.queueInLoop _ _).record _ _ _

theorem Preserves.removeConnection (hs : Preserves closing s middle)
    (hremove : middle.removeConnection loop conn = .ok next) : Preserves closing s next := by
  rcases removeConnection_cases hremove with ⟨-, rfl⟩ | ⟨-, rfl⟩
  · exact hs.removeConnectionInLoop conn
  · exact hs.queueInLoop _ _

theorem Preserves.refresh (hs : Preserves closing s middle) {now : Int}
    (hrefresh : middle.refresh conn now = .ok next) : Preserves closing s next := by
  rcases refresh_cases hrefresh with rfl | ⟨timerWheel, context, -, rfl⟩
  · exact hs
  · exact (hs.withWheel timerWheel).settings rfl rfl

theorem Preserves.shutdown (hs : Preserves closing s middle)
    (hsound : (middle.frame conn).Sound conn) (inLoopThread : Bool) :
    Preserves closing s (middle.shutdown conn inLoopThread) := by
  obtain ⟨hperforms, hregistered⟩ := shutdown_performs hsound inLoopThread
  obtain ⟨events, -, heffect⟩ := hperforms.effect
  refine hs.absorb (fun _ => heffect.closed_of_cause ?_ ?_) hregistered
  · unfold causeOfShutdown
    split
    · decide
    · decide
  · exact causeOfShutdown_ne_destroy _ _

theorem Preserves.destroyEntry (hs : Preserves closing s middle) (hinvariant : middle.Invariant)
    (conn : ConnId) : Preserves closing s (middle.destroyEntry conn) := by
  unfold System.destroyEntry
  split
  next halive => exact hs.shutdown (hinvariant.records.registry.sound conn halive) _
  next => exact hs

theorem Tidy.preserve (hs : s.Tidy) (hpreserves : Preserves closing s next)
    (hasked : ∀ conn < s.accepted, (s.stage conn).asked ≤ (next.stage conn).asked)
    (hclosing : ∀ conn, closing conn → 0 < (next.stage conn).asked) : next.Tidy where
  requested := by
    intro conn hconn hclosed
    rw [hpreserves.accepted] at hconn
    by_cases hother : closing conn
    · exact hclosing conn hother
    · have hbefore := hpreserves.closed conn hother hclosed
      exact lt_of_lt_of_le (hs.requested conn hconn hbefore) (hasked conn hconn)
  registered := by
    rw [hpreserves.accepted]
    exact fun conn hconn => hpreserves.registered conn (hs.registered conn hconn)
  unguarded := fun loop => hpreserves.unguarded loop (hs.unguarded loop)

/-! ## Steps -/

/-- The removal of a connection is asked for at the base loop, or has begun there. -/
theorem removeConnection_asks (hremove : s.removeConnection loop conn = .ok next) :
    0 < (next.stage conn).asked := by
  unfold Stage.asked
  rcases removeConnection_cases hremove with ⟨-, rfl⟩ | ⟨-, rfl⟩
  · have hremoved : 0 < ((s.removeConnectionInLoop conn).stage conn).removed := by
      refine List.count_pos_iff.mpr ?_
      exact List.mem_append_right _ (List.mem_singleton_self _)
    omega
  · have hwaits : 0 < ((s.queueInLoop baseLoop (.removeConnectionInLoop conn)).stage
        conn).toRemove := by
      refine List.count_pos_iff.mpr ?_
      rw [System.queueInLoop, updateLoop_self, IoLoop.tasks]
      exact List.mem_append_right _ (List.mem_append_right _ (List.mem_singleton_self _))
    omega

/-- A functor that runs finds its connection in the state it was queued for. -/
theorem Invariant.functor_performs (hs : s.Invariant) {functor : Functor} {rest : List Functor}
    (hfunctors : (s.loops loop).functors = functor :: rest) (halive : s.Alive functor.target)
    {result : WriteResult} {f : Frame}
    (hf : onFunctor functor result (s.frame functor.target) = .ok f) :
    Performs functor.target (causeOfFunctor functor) functor.messages
        (s.frame functor.target) f ∧
      (functor ≠ .connectDestroyed functor.target →
        (s.frame functor.target).Registered → f.Registered) := by
  obtain ⟨-, hfits, hmem⟩ := hs.waits hfunctors
  have hlaw := hs.laws functor.target halive.1
  have honce := hlaw.once
  refine onFunctor_performs (hs.records.registry.sound _ halive) ⟨rfl, hfits⟩ ⟨?_, ?_⟩ ?_ hf
  · intro hestablish
    rw [hestablish] at hmem
    have hwaits : 0 < (s.stage functor.target).toEstablish := List.count_pos_iff.mpr hmem
    exact hlaw.connecting.mpr (by omega)
  · intro hconnecting
    obtain ⟨-, honly⟩ := hs.records.rounds.connecting functor.target halive.1 hconnecting
    exact honly _ functor hmem rfl
  · exact fun hconnecting =>
      (hs.records.rounds.connecting functor.target halive.1 hconnecting).1

/-- A connection that waits to be destroyed is closed. -/
theorem Invariant.closed_of_destroy (hs : s.Invariant) {rest : List Functor}
    (hfunctors : (s.loops loop).functors = .connectDestroyed conn :: rest)
    (hconn : conn < s.accepted) : (s.conns conn).state = .kDisconnected := by
  obtain ⟨-, -, hmem⟩ := hs.waits hfunctors
  have hwaits : 0 < (s.stage conn).toDestroy := List.count_pos_iff.mpr hmem
  have hlaw := hs.laws conn hconn
  have hremovals := hlaw.removals
  exact hlaw.closed (by omega)

theorem Invariant.runFunctor_preserves (hs : s.Invariant) {result : WriteResult}
    (hrun : s.runFunctor loop result = .ok next) : Preserves (fun _ => False) s next := by
  obtain ⟨functor, rest, hfunctors, halive, hexecute⟩ := runFunctor_ok hrun
  have hframe : (s.updateLoop loop (IoLoop.startFunctor functor rest)).frame functor.target =
      s.frame functor.target := frame_updateLoop rfl _
  have hstart : Preserves (fun _ => False) s
      (s.updateLoop loop (IoLoop.startFunctor functor rest)) :=
    (Preserves.refl s).sameHandling rfl rfl
  rcases execute_cases hexecute with ⟨conn, -, rfl⟩ | ⟨-, f, hf, hnext⟩
  · exact hstart.removeConnectionInLoop conn
  · rw [hframe] at hf
    obtain ⟨hperforms, hregistered⟩ := hs.functor_performs hfunctors halive hf
    obtain ⟨events, -, heffect⟩ := hperforms.effect
    have habsorb : Preserves (fun _ => False) s
        ((s.updateLoop loop (IoLoop.startFunctor functor rest)).absorb functor.target f) := by
      by_cases hdestroy : functor = .connectDestroyed functor.target
      · have hclosed : (s.conns functor.target).state = .kDisconnected := by
          rw [hdestroy] at hfunctors
          exact hs.closed_of_destroy hfunctors halive.1
        refine hstart.absorb (fun _ _ => hclosed) fun _ hopen => ?_
        have hstays := heffect.stays_disconnected hclosed
        rcases hopen with hconnected | hdisconnecting
        · rw [hstays] at hconnected
          cases hconnected
        · rw [hstays] at hdisconnecting
          cases hdisconnecting
      · refine hstart.absorb (fun _ => heffect.closed_of_cause ?_ ?_) ?_
        · cases functor <;> simp [causeOfFunctor]
        · cases functor with
          | connectDestroyed => exact absurd rfl hdestroy
          | _ => simp [causeOfFunctor]
        · rw [hframe]
          exact hregistered hdestroy
    rcases hnext with rfl | ⟨milestone, rfl⟩
    · exact habsorb
    · exact habsorb.record _ _ _

/-- A handler that closes its connection asks for its removal. -/
theorem Invariant.callback_preserves (hs : s.Invariant) {calls : Syscalls} {now : Int}
    (hcallback : s.callback loop calls now = .ok next) :
    ∃ closing, Preserves closing s next ∧ ∀ conn, closing conn → 0 < (next.stage conn).asked := by
  obtain ⟨conn, callback, rest, f, -, halive, hf, hcallback⟩ := callback_ok hcallback
  have hsound := hs.records.registry.sound conn halive
  have hfinish (closing : ConnId → Prop) (hclosed : ¬ closing conn →
      f.conn.state = .kDisconnected → (s.conns conn).state = .kDisconnected) :
      Preserves closing s (s.finishCallback loop conn callback rest f) := by
    have habsorb : Preserves closing s (s.absorb conn f) :=
      (Preserves.refl s).absorb hclosed (onCallback_performs hsound hf).2
    exact (habsorb.record loop conn _).updateLoop fun _ => nofun
  rcases onCallback_cases hsound hf with ⟨-, rfl⟩ | ⟨-, hcloses⟩ | ⟨-, hdelivers⟩
  · obtain rfl : s.finishCallback loop conn callback rest (s.frame conn) = next :=
      Except.ok.inj hcallback
    exact ⟨fun _ => False, hfinish _ fun _ => id, nofun⟩
  · have hevents : f.events = [.connectionCallback .kDisconnected, .closeCallback] :=
      hcloses.events
    rw [hevents, run_cons_eq_ok] at hcallback
    obtain ⟨told, htold, hcallback⟩ := hcallback
    obtain rfl : _ = told := Except.ok.inj htold
    rw [run_cons_eq_ok] at hcallback
    obtain ⟨removed, hremoved, hcallback⟩ := hcallback
    obtain rfl : removed = next := Except.ok.inj hcallback
    refine ⟨(· = conn), ?_, ?_⟩
    · exact (hfinish (· = conn) fun hother => absurd rfl hother).removeConnection hremoved
    · rintro _ rfl
      exact removeConnection_asks hremoved
  · have hevents : f.events = [.messageCallback] := hdelivers.events
    rw [hevents, run_cons_eq_ok] at hcallback
    obtain ⟨refreshed, hdispatch, hcallback⟩ := hcallback
    obtain rfl : refreshed = next := Except.ok.inj hcallback
    refine ⟨fun _ => False, ?_, nofun⟩
    have hstate : f.conn.state = .kDisconnected → (s.conns conn).state = .kDisconnected := by
      rw [hdelivers.state]
      exact id
    rcases dispatch_cases hdispatch with ⟨hother, -⟩ | ⟨-, hrefresh⟩ | rfl
    · cases hother
    · exact (hfinish _ fun _ => hstate).refresh hrefresh
    · exact hfinish _ fun _ => hstate

/-- A step that accepts no connection. -/
theorem Invariant.step_preserves (hs : s.Invariant) {action : Action}
    (hregular : s.Regular action) (hother : ∀ sockfd hasWriteCompleteCallback now,
      action ≠ .newConnection sockfd hasWriteCompleteCallback now)
    (hstep : step s action = .ok next) :
    ∃ closing, Preserves closing s next ∧ ∀ conn, closing conn → 0 < (next.stage conn).asked := by
  have hrefl : Preserves (fun _ => False) s s := .refl s
  have hquiet (hpreserves : Preserves (fun _ => False) s next) :
      ∃ closing, Preserves closing s next ∧
        ∀ conn, closing conn → 0 < (next.stage conn).asked := ⟨_, hpreserves, nofun⟩
  cases action with
  | newConnection sockfd hasWriteCompleteCallback now => exact absurd rfl (hother _ _ _)
  | callback loop calls now =>
      obtain ⟨-, hstep⟩ := Except.guard_eq_ok.mp hstep
      exact hs.callback_preserves hstep
  | poll loop events =>
      obtain ⟨-, hstep⟩ := Except.guard_eq_ok.mp hstep
      have hfill (middle : System) (event : Int × EventMask) (next : System)
          (hmiddle : Preserves (fun _ => False) s middle)
          (hfill : fillActiveChannel loop middle event = .ok next) :
          Preserves (fun _ => False) s next := by
        obtain ⟨mask, conn, -, -, rfl⟩ := fillActiveChannel_ok hfill
        have hrevents : Preserves (fun _ => False) s (middle.setRevents conn event.2) :=
          hmiddle.settings rfl rfl
        exact hrevents.sameHandling rfl rfl
      exact hquiet (run_invariant hfill hrefl hstep)
  | handleEvent loop =>
      obtain ⟨-, hstep⟩ := Except.guard_eq_ok.mp hstep
      obtain ⟨conn, rest, -, -, rfl⟩ := handleEvent_ok hstep
      exact hquiet (hrefl.updateLoop fun _ => nofun)
  | endHandling loop =>
      obtain ⟨conn, -, rfl⟩ := endHandling_ok hstep
      exact hquiet (hrefl.updateLoop fun _ _ => rfl)
  | swap loop | endFunctors loop =>
      obtain ⟨-, hstep⟩ := Except.guard_eq_ok.mp hstep
      obtain rfl := Except.ok.inj hstep
      exact hquiet (hrefl.sameHandling rfl rfl)
  | runFunctor loop result =>
      obtain ⟨-, hstep⟩ := Except.guard_eq_ok.mp hstep
      exact hquiet (hs.runFunctor_preserves hstep)
  | onTimerTick =>
      obtain ⟨-, hstep⟩ := Except.guard_eq_ok.mp hstep
      split at hstep
      next => cases hstep
      next =>
        obtain rfl := Except.ok.inj hstep
        exact hquiet (hrefl.withWheel _)
  | destroyEntry entry =>
      obtain ⟨-, hstep⟩ := Except.guard_eq_ok.mp hstep
      have hwheel := hrefl.withWheel (s.server.timerWheel.release entry)
      split at hstep <;> obtain rfl := Except.ok.inj hstep
      · exact hquiet hwheel
      · have hadvances := withWheel_advances hs (s.server.timerWheel.release entry)
        exact hquiet (hwheel.destroyEntry
          (hadvances.invariant hs (hs.guarded.withWheel _)) _)
  | keep conn | drop conn =>
      obtain ⟨-, hstep⟩ := Except.guard_eq_ok.mp hstep
      obtain rfl := Except.ok.inj hstep
      exact hquiet (.of_same rfl rfl fun _ => ⟨rfl, rfl⟩)
  | queueSend conn buf =>
      obtain ⟨-, hstep⟩ := Except.guard_eq_ok.mp hstep
      obtain rfl := Except.ok.inj hstep
      exact hquiet (hrefl.queueInLoop _ _)
  | sendDirect conn buf result =>
      obtain ⟨⟨halive, -⟩, hstep⟩ := Except.guard_eq_ok.mp hstep
      obtain ⟨f, hf, hstep⟩ := Except.bind_eq_ok.mp hstep
      obtain rfl := Except.ok.inj hstep
      have hsound := hs.records.registry.sound conn halive
      unfold TcpConnection.send at hf
      split at hf
      next hconnected =>
        have hopen : (s.conns conn).state ≠ .kConnecting := by
          intro hconnecting
          cases hconnected.symm.trans hconnecting
        obtain ⟨hperforms, hregistered⟩ := sendInLoop_performs hsound hopen buf.fits hf
        obtain ⟨events, -, heffect⟩ := hperforms.effect
        exact hquiet (hrefl.absorb (fun _ =>
          heffect.closed_of_cause (by decide) (by decide)) hregistered)
      next =>
        obtain rfl := Except.ok.inj hf
        exact hquiet (hrefl.absorb (fun _ => id) id)
  | shutdown conn =>
      obtain ⟨halive, hstep⟩ := Except.guard_eq_ok.mp hstep
      obtain rfl := Except.ok.inj hstep
      exact hquiet (hrefl.shutdown (hs.records.registry.sound conn halive) _)
  | shutdownDirect conn =>
      obtain ⟨⟨halive, -⟩, hstep⟩ := Except.guard_eq_ok.mp hstep
      obtain rfl := Except.ok.inj hstep
      exact hquiet (hrefl.shutdown (hs.records.registry.sound conn halive) _)
  | user conn op =>
      obtain ⟨-, hstep⟩ := Except.guard_eq_ok.mp hstep
      obtain rfl := Except.ok.inj hstep
      exact hquiet (hrefl.settings (by cases op <;> rfl) (by cases op <;> rfl))
  | testShutdown | testEntryShutdown | storeShutdown | queueShutdown => exact hregular.elim
  | destructor | destroyConnection | wheelDestructor | dropBucket | endDestructor =>
      exact hregular.elim

/-- What is asked for stays asked for. -/
theorem Invariant.step_asked (hs : s.Invariant) {action : Action} (hregular : s.Regular action)
    (hstep : step s action = .ok next) (hconn : conn < s.accepted) :
    (s.stage conn).asked ≤ (next.stage conn).asked := by
  by_cases hpoll : ∃ loop events, action = .poll loop events
  · obtain ⟨loop, events, rfl⟩ := hpoll
    obtain ⟨⟨-, ⟨-, -, hbatch⟩, -⟩, hstep⟩ := Except.guard_eq_ok.mp hstep
    have hfill (middle : System) (event : Int × EventMask) (next : System)
        (hmiddle : (middle.Invariant ∧ (middle.loops loop).Batchless) ∧
          conn < middle.accepted ∧ (s.stage conn).asked ≤ (middle.stage conn).asked)
        (hfill : fillActiveChannel loop middle event = .ok next) :
        (next.Invariant ∧ (next.loops loop).Batchless) ∧
          conn < next.accepted ∧ (s.stage conn).asked ≤ (next.stage conn).asked := by
      obtain ⟨⟨hinvariant, hempty⟩, haccepted, hasked⟩ := hmiddle
      obtain ⟨hadvances, hsame, hafter⟩ := fillActiveChannel_advances hinvariant event hempty hfill
      have hguarded := fillActiveChannel_guarded event hinvariant.guarded hfill
      exact ⟨⟨hadvances.invariant hinvariant hguarded, hafter⟩, hsame ▸ haccepted,
        hasked.trans (Stage.asked_le_of_moves (hadvances.moves conn haccepted))⟩
    exact (run_invariant hfill ⟨⟨hs, hbatch⟩, hconn, le_rfl⟩ hstep).2.2
  · have hother (loop : LoopId) (events : List (Int × EventMask)) : action ≠ .poll loop events :=
      fun heq => hpoll ⟨loop, events, heq⟩
    exact Stage.asked_le_of_moves ((step_advances hs hregular hother hstep).moves conn hconn)

/-- A new connection is connecting, or connected and registered. -/
theorem Invariant.newConnection_tidy (hs : s.Invariant) (htidy : s.Tidy) {sockfd now : Int}
    (hfd : ∀ conn < s.accepted, s.Alive conn → (s.conns conn).channel.fd ≠ sockfd)
    (hbounded : s.accepted < 2 ^ 32) {hasWriteCompleteCallback : Bool}
    (hasked : ∀ conn < s.accepted, (s.stage conn).asked ≤ (next.stage conn).asked)
    (hnew : s.newConnection sockfd hasWriteCompleteCallback now = .ok next) : next.Tidy := by
  unfold newConnection at hnew
  obtain ⟨middle, hrefresh, hnew⟩ := Except.bind_eq_ok.mp hnew
  obtain ⟨hrecords, haccepted, -, hstage⟩ :=
    refresh_records (construct_records _ _ hs hfd) hrefresh
  obtain ⟨-, hself⟩ := stage_construct sockfd hasWriteCompleteCallback hs hbounded
  have hborn : middle.stage s.accepted = { Stage.accepted with toEstablish := 0 } :=
    (hstage _).trans hself
  have hmapped : middle.Mapped s.accepted := of_decide_eq_true (congrArg Stage.mapped hborn)
  have halive : middle.Alive s.accepted := ⟨haccepted ▸ Nat.lt_succ_self _, Or.inl hmapped⟩
  have hconnecting : (middle.conns s.accepted).state = .kConnecting := congrArg Stage.state hborn
  have hrefreshed : Preserves (fun _ => False)
      (s.construct sockfd hasWriteCompleteCallback) middle := (Preserves.refl _).refresh hrefresh
  -- the accepted connections and the loops are as before
  have hfinal : Preserves (fun _ => False) middle next ∧ (next.conns s.accepted).state ≠
      .kDisconnected ∧ (next.frame s.accepted).Registered := by
    split at hnew
    next =>
      obtain ⟨hempty, -⟩ := hrecords.rounds.connecting _ halive.1 hconnecting
      obtain ⟨f, hf, -, hstate, -, hindex, -⟩ :=
        connectEstablished_ok (hrecords.registry.sound _ halive) hconnecting hempty
      unfold connectEstablished at hnew
      rw [hf] at hnew
      obtain rfl := Except.ok.inj hnew
      have habsorb : Preserves (fun _ => False) middle (middle.absorb s.accepted f) := by
        refine (Preserves.refl middle).absorb (fun _ hclosed => ?_) fun _ _ => hindex
        rw [hstate] at hclosed
        cases hclosed
      refine ⟨habsorb.record _ _ _, ?_, fun _ => ?_⟩
      · change ((middle.absorb s.accepted f).conns s.accepted).state ≠ _
        rw [absorb_self, hstate]
        decide
      · change ((middle.absorb s.accepted f).conns s.accepted).channel.index = _
        rw [absorb_self]
        exact hindex
    next =>
      obtain rfl := Except.ok.inj hnew
      refine ⟨(Preserves.refl middle).queueInLoop _ _, ?_, fun hopen => ?_⟩
      · change (middle.conns s.accepted).state ≠ _
        rw [hconnecting]
        decide
      · rcases hopen with hconnected | hdisconnecting
        · cases hconnecting.symm.trans hconnected
        · cases hconnecting.symm.trans hdisconnecting
  obtain ⟨hlater, hopen, hregistered⟩ := hfinal
  have hpreserves := hrefreshed.trans hlater
  have hold (conn : ConnId) (hconn : conn < next.accepted) :
      conn < s.accepted ∨ conn = s.accepted := by
    rw [hpreserves.accepted] at hconn
    exact Nat.lt_succ_iff_lt_or_eq.mp hconn
  refine ⟨fun conn hconn hclosed => ?_, fun conn hconn => ?_, fun loop => ?_⟩
  · rcases hold conn hconn with hbefore | rfl
    · have hstate := hpreserves.closed conn id hclosed
      rw [construct_conns _ _ hbefore] at hstate
      exact lt_of_lt_of_le (htidy.requested conn hbefore hstate) (hasked conn hbefore)
    · exact absurd hclosed hopen
  · rcases hold conn hconn with hbefore | rfl
    · refine hpreserves.registered conn ?_
      rw [frame_construct _ _ hbefore]
      exact htidy.registered conn hbefore
    · exact hregistered
  · exact hpreserves.unguarded loop (htidy.unguarded loop)

theorem step_tidy (s : System) (action : Action) (next : System) (hs : s.Invariant ∧ s.Tidy)
    (hregular : s.Regular action) (hstep : step s action = .ok next) :
    next.Invariant ∧ next.Tidy := by
  obtain ⟨hinvariant, htidy⟩ := hs
  refine ⟨step_invariant s action next hinvariant hregular hstep, ?_⟩
  have hasked (conn : ConnId) (hconn : conn < s.accepted) :
      (s.stage conn).asked ≤ (next.stage conn).asked := hinvariant.step_asked hregular hstep hconn
  by_cases hnew : ∃ sockfd hasWriteCompleteCallback now,
      action = .newConnection sockfd hasWriteCompleteCallback now
  · obtain ⟨sockfd, hasWriteCompleteCallback, now, rfl⟩ := hnew
    obtain ⟨⟨-, -, -, -, hfd⟩, hstep⟩ := Except.guard_eq_ok.mp hstep
    simp only [List.mem_range] at hfd
    have hbounded : s.accepted + 1 < 2 ^ 31 := hregular
    exact hinvariant.newConnection_tidy htidy hfd (by omega) hasked hstep
  · obtain ⟨closing, hpreserves, hclosing⟩ := hinvariant.step_preserves hregular
      (fun sockfd hasWriteCompleteCallback now heq =>
        hnew ⟨sockfd, hasWriteCompleteCallback, now, heq⟩) hstep
    exact htidy.preserve hpreserves hasked hclosing

/-! ## At rest -/

/-- No loop has an event to handle or a functor to run. -/
def AtRest (s : System) : Prop :=
  ∀ loop ∈ s.loopIds, (s.loops loop).Idle ∧ (s.loops loop).pendingFunctors = []

instance (s : System) : Decidable s.AtRest := inferInstanceAs (Decidable (∀ _ ∈ _, _ ∧ _))

theorem AtRest.tasks_eq_nil (hrest : s.AtRest) (hloop : loop ∈ s.loopIds) :
    (s.loops loop).tasks = [] := by
  obtain ⟨⟨-, -, -, hfunctors⟩, hpending⟩ := hrest loop hloop
  rw [IoLoop.tasks, hfunctors, hpending, List.append_nil]

/-- At rest a connection is closed if and only if it has been removed. -/
theorem Invariant.removed_iff (hs : s.Invariant) (htidy : s.Tidy) (hrest : s.AtRest)
    (hconn : conn < s.accepted) :
    (s.stage conn).toDestroy = 0 ∧
      ((s.conns conn).Established ↔ (s.stage conn).removed = 0) := by
  have hlaw := hs.laws conn hconn
  have hown := hs.guarded.wellformed.own conn hconn
  have hnone : (s.stage conn).toEstablish = 0 ∧ (s.stage conn).toRemove = 0 ∧
      (s.stage conn).toDestroy = 0 := by
    simp only [stage, hrest.tasks_eq_nil hown, hrest.tasks_eq_nil (base_mem_loopIds s),
      List.count_nil, and_self]
  have honce := hlaw.once
  refine ⟨hnone.2.2, fun hopen => ?_, fun hremoved => ?_⟩
  · by_contra hremoved
    have hclosed : (s.conns conn).state = .kDisconnected := hlaw.closed (by omega)
    rcases hopen with hconnected | hdisconnecting
    · cases hclosed.symm.trans hconnected
    · cases hclosed.symm.trans hdisconnecting
  · have hestablished : (s.conns conn).state ≠ .kConnecting := by
      intro hconnecting
      have hzero := hlaw.connecting.mp hconnecting
      omega
    have hopen : (s.conns conn).state ≠ .kDisconnected := by
      intro hclosed
      have hasked := htidy.requested conn hconn hclosed
      unfold Stage.asked at hasked
      omega
    unfold Established
    cases hstate : (s.conns conn).state with
    | kDisconnected => exact absurd hstate hopen
    | kConnecting => exact absurd hstate hestablished
    | kConnected => exact Or.inl rfl
    | kDisconnecting => exact Or.inr rfl

/-- At rest a connection is only held by the server and by user code. -/
theorem Records.alive_at_rest (hs : s.Records) (htidy : s.Tidy) (hrest : s.AtRest)
    (hconn : conn < s.accepted) : s.Alive conn ↔ s.Mapped conn ∨ conn ∈ s.references := by
  constructor
  · rintro ⟨-, hmapped | hreference | ⟨call, hcall, -⟩ | ⟨loop, hloop, hheld⟩⟩
    · exact Or.inl hmapped
    · exact Or.inr hreference
    · rw [hs.calls] at hcall
      cases hcall
    · obtain ⟨⟨-, hhandling, hexecuted, hfunctors⟩, hpending⟩ := hrest loop hloop
      rw [IoLoop.held, IoLoop.queued, htidy.unguarded loop hhandling, hexecuted, hfunctors,
        hpending] at hheld
      cases hheld
  · rintro (hmapped | hreference)
    · exact ⟨hconn, Or.inl hmapped⟩
    · exact ⟨hconn, Or.inr (Or.inl hreference)⟩

/-- **Nothing leaks and nothing is lost.** When the loops of a running server have nothing left to
do, `connections_` holds the open connections, each is registered with the poller of its loop and
no other is registered, and beside them only those exist that user code holds. -/
theorem rest_keeps_open {listenAddr : InetAddress} {nameArg : String} {timeout numThreads : Nat}
    {schedule : List Action}
    (hregular : EveryStep step Regular (initial listenAddr nameArg timeout numThreads) schedule)
    (hrun : run step (initial listenAddr nameArg timeout numThreads) schedule = .ok s)
    (hrest : s.AtRest) (hconn : conn < s.accepted) :
    (s.Mapped conn ↔ (s.conns conn).Established) ∧
    (s.Alive conn ↔ (s.conns conn).Established ∨ conn ∈ s.references) ∧
    ∀ loop fd, (∃ mask, (s.loops loop).poller.kernel fd = some ⟨mask, conn⟩) ↔
      (s.conns conn).Established ∧ loop = s.own conn ∧ fd = (s.conns conn).channel.fd := by
  obtain ⟨hs, htidy⟩ : s.Invariant ∧ s.Tidy := run_invariant_of_everyStep step_tidy
    ⟨initial_invariant .., initial_tidy ..⟩ hregular hrun
  have hlaw := hs.laws conn hconn
  obtain ⟨hwaits, hremoved⟩ := hs.removed_iff htidy hrest hconn
  have hmapped : s.Mapped conn ↔ (s.conns conn).Established :=
    decide_eq_true_iff.symm.trans (hlaw.mapped.trans hremoved.symm)
  have halive := hs.records.alive_at_rest htidy hrest hconn
  refine ⟨hmapped, halive.trans (or_congr hmapped Iff.rfl), fun loop fd => ⟨?_, ?_⟩⟩
  · rintro ⟨mask, hkernel⟩
    obtain ⟨-, hown, hfd, hindex⟩ :=
      hs.records.registry.owned loop fd conn (Or.inr ⟨mask, hkernel⟩)
    have hdestroyed := (hlaw.of_registered hindex).2
    have hremovals := hlaw.removals
    exact ⟨hremoved.mpr (by omega), hown.symm, hfd.symm⟩
  · rintro ⟨hopen, rfl, rfl⟩
    have htracks := (hs.records.registry.sound conn
      (halive.mpr (Or.inl (hmapped.mpr hopen)))).tracks
    have hadded : (s.conns conn).channel.index = .kAdded := htidy.registered conn hconn hopen
    unfold EpollPoller.Tracks EpollPoller.Registered frame at htracks
    dsimp only at htracks
    rw [hadded] at htracks
    exact ⟨_, htracks.2⟩

/-- The peer of the first of two connections closes it. -/
def firstCloses : List Action :=
  [.newConnection 5 false 0, .newConnection 6 false 0, .swap 1, .runFunctor 1 (.accepted 0),
    .runFunctor 1 (.accepted 0), .endFunctors 1, .keep 0, .poll 1 [(5, EPOLLIN)], .handleEvent 1,
    .callback 1 ⟨.received [], .other 0, .accepted 0⟩ 0, .endHandling 1, .swap 0,
    .runFunctor 0 (.accepted 0), .endFunctors 0, .swap 1, .runFunctor 1 (.accepted 0),
    .endFunctors 1, .drop 0]

theorem rest_keeps_open_firstCloses : ∃ s, run step idleServer firstCloses = .ok s ∧
    ¬ s.Alive 0 ∧ s.Alive 1 ∧ ∃ mask, (s.loops 1).poller.kernel 6 = some ⟨mask, 1⟩ := by
  have hends : ends (fun s => decide (s.accepted = 2 ∧ s.AtRest ∧ s.references = [] ∧
      ¬ (s.conns 0).Established ∧ (s.conns 1).Established ∧ s.own 1 = 1 ∧
      (s.conns 1).channel.fd = 6)) (run step idleServer firstCloses) = true := by decide +kernel
  obtain ⟨s, hrun, hcheck⟩ := exists_of_ends hends
  obtain ⟨haccepted, hrest, hnone, hclosed, hopen, hown, hfd⟩ := of_decide_eq_true hcheck
  have hregular : EveryStep step Regular idleServer firstCloses := by decide +kernel
  have hsecond : 1 < s.accepted := by
    rw [haccepted]
    exact Nat.one_lt_two
  obtain ⟨-, hfirst, -⟩ := rest_keeps_open hregular hrun hrest (Nat.lt_of_succ_lt hsecond)
  obtain ⟨-, hkept, hregistered⟩ := rest_keeps_open hregular hrun hrest hsecond
  refine ⟨s, hrun, fun halive => ?_, hkept.mpr (Or.inl hopen), ?_⟩
  · rcases hfirst.mp halive with hstill | hheld
    · exact hclosed hstill
    · rw [hnone] at hheld
      cases hheld
  · exact (hregistered 1 6).mpr ⟨hopen, hown.symm, hfd.symm⟩

end System

end Muduo
