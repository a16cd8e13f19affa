import Muduo.TcpConnection.Invariant
import Muduo.TcpServer.Lifecycle

/-! # What the steps of a running server do

While the server is not destroyed and every public method of a connection is one
step, each step keeps the records and moves the stage of every connection by
moves the stage allows.
-/

open Transition

namespace Muduo

namespace TcpConnection

variable {self : ConnId} {f next : Frame}

/-- A closed connection is past sending: what still runs for it changes nothing. -/
theorem onFunctor_closed (hclosed : f.conn.state = .kDisconnected) {functor : Functor}
    {result : WriteResult} (hestablish : functor ≠ .connectEstablished functor.target)
    (hdestroy : functor ≠ .connectDestroyed functor.target)
    (hfunctor : onFunctor functor result f = .ok next) : next.conn = f.conn := by
  cases functor with
  | connectEstablished conn => exact absurd rfl hestablish
  | connectDestroyed conn => exact absurd rfl hdestroy
  | sendInLoop conn buf =>
      rw [onFunctor, sendInLoop, if_pos hclosed, Except.ok.injEq] at hfunctor
      rw [hfunctor]
  | shutdownInLoop conn =>
      rw [onFunctor, Except.ok.injEq] at hfunctor
      rw [← hfunctor, shutdownInLoop]
      split <;> rfl
  | removeConnectionInLoop conn | writeCompleteCallback conn | highWaterMarkCallback conn len =>
      rw [onFunctor, Except.ok.injEq] at hfunctor
      subst hfunctor
      rfl

end TcpConnection

open TcpConnection

namespace System

variable {s next : System} {conn : ConnId}

structure Invariant (s : System) : Prop where
  guarded : s.Guarded
  records : s.Records
  laws : ∀ conn < s.accepted, (s.stage conn).Law

theorem initial_invariant (listenAddr : InetAddress) (nameArg : String)
    (timeout numThreads : Nat) : (initial listenAddr nameArg timeout numThreads).Invariant where
  guarded := initial_guarded listenAddr nameArg timeout numThreads
  records := initial_records listenAddr nameArg timeout numThreads
  laws := fun _ hconn => absurd hconn (Nat.not_lt_zero _)

/-- What a step does: the records stay, every connection makes some moves, and a
new one starts lawfully. -/
structure Advances (s next : System) : Prop where
  records : next.Records
  moves : ∀ conn < s.accepted, Relation.ReflTransGen Stage.Move (s.stage conn) (next.stage conn)
  born : ∀ conn, s.accepted ≤ conn → conn < next.accepted → (next.stage conn).Law

theorem Advances.invariant (hs : s.Invariant) (hadvances : Advances s next)
    (hguarded : next.Guarded) : next.Invariant := by
  refine ⟨hguarded, hadvances.records, fun conn hconn => ?_⟩
  by_cases hold : conn < s.accepted
  · exact (hs.laws conn hold).moves (hadvances.moves conn hold)
  · exact hadvances.born conn (Nat.le_of_not_lt hold) hconn

theorem Advances.trans {middle : System} (hfirst : Advances s middle)
    (hsecond : Advances middle next) (haccepted : middle.accepted = s.accepted) :
    Advances s next where
  records := hsecond.records
  moves := fun conn hconn =>
    (hfirst.moves conn hconn).trans (hsecond.moves conn (haccepted ▸ hconn))
  born := fun conn hold => hsecond.born conn (haccepted ▸ hold)

theorem Advances.of_same (hrecords : next.Records) (haccepted : next.accepted = s.accepted)
    (hstage : ∀ conn < s.accepted, next.stage conn = s.stage conn) : Advances s next where
  records := hrecords
  moves := fun conn hconn => by rw [hstage conn hconn]
  born := fun _ hold hnew => absurd (haccepted ▸ hnew) (Nat.not_lt_of_le hold)

/-- One connection makes one move. -/
theorem Advances.of_move (conn : ConnId) (hrecords : next.Records)
    (haccepted : next.accepted = s.accepted) (hmove : (s.stage conn).Move (next.stage conn))
    (hothers : ∀ other < s.accepted, other ≠ conn → next.stage other = s.stage other) :
    Advances s next where
  records := hrecords
  moves := by
    intro other hother
    by_cases hsame : other = conn
    · exact hsame ▸ .single hmove
    · rw [hothers other hother hsame]
  born := fun _ hold hnew => absurd (haccepted ▸ hnew) (Nat.not_lt_of_le hold)

/-! ## What the law says about the system -/

/-- A connection that has not been destroyed is alive. -/
theorem Invariant.alive (hs : s.Invariant) (hconn : conn < s.accepted)
    (hdestroyed : (s.stage conn).destroyed = 0) : s.Alive conn := by
  rcases (hs.laws conn hconn).held hdestroyed with hmapped | hwaits
  · exact ⟨hconn, Or.inl (of_decide_eq_true hmapped)⟩
  · -- the functor that will destroy it holds a `shared_ptr`
    have hmem := List.count_pos_iff.mp hwaits
    refine .of_held hconn (hs.guarded.wellformed.own conn hconn) (mem_held.mpr (Or.inr ?_))
    exact ⟨_, (s.loops (s.own conn)).tasks_subset_queued hmem, rfl⟩

theorem Invariant.watched (hs : s.Invariant) {loop : LoopId}
    (hwatches : (s.loops loop).Watches conn) :
    conn < s.accepted ∧ s.own conn = loop ∧ (s.stage conn).watched = true := by
  obtain ⟨hconn, hown⟩ := hs.records.rounds.watching loop conn hwatches
  exact ⟨hconn, hown, decide_eq_true (by rw [hown]; exact hwatches)⟩

/-- While events of a connection are handled, it is established and not destroyed. -/
theorem Invariant.of_watches (hs : s.Invariant) {loop : LoopId}
    (hwatches : (s.loops loop).Watches conn) :
    s.Alive conn ∧ s.own conn = loop ∧ (s.conns conn).state ≠ .kConnecting ∧
      (s.stage conn).established = 1 ∧ (s.stage conn).destroyed = 0 := by
  obtain ⟨hconn, hown, hwatched⟩ := hs.watched hwatches
  obtain ⟨hestablished, hdestroyed⟩ := (hs.laws conn hconn).established_of_watched hwatched
  refine ⟨hs.alive hconn hdestroyed, hown, fun hconnecting => ?_, hestablished, hdestroyed⟩
  have hnone := (hs.laws conn hconn).connecting.mp hconnecting
  omega

/-! ## Member functions on the thread of the loop -/

theorem performs_follows {cause : Cause} {sent : List (List UInt8)} {f : Frame}
    (hperforms : Performs conn cause sent (s.frame conn) f) :
    ∀ functor ∈ f.queued, functor.Follows conn := by
  obtain ⟨queued, hqueued, hfollows⟩ := hperforms.queued
  rw [frame, List.nil_append] at hqueued
  exact hqueued ▸ hfollows

theorem absorb_frame (conn : ConnId) (s : System) : s.absorb conn (s.frame conn) = s := by
  simp [absorb, frame, updateConn, updateLoop, own]

/-- A member function that leaves an open connection open, or a closed one alone. -/
theorem Invariant.advances_performs (hs : s.Invariant) (halive : s.Alive conn)
    {cause : Cause} {sent : List (List UInt8)} {f : Frame}
    (hperforms : Performs conn cause sent (s.frame conn) f)
    (hopen : (s.conns conn).state ≠ .kConnecting)
    (hclosed : (s.conns conn).state = .kDisconnected → f.conn.state = .kDisconnected ∧
      f.conn.channel.index = (s.conns conn).channel.index) : Advances s (s.absorb conn f) := by
  have hfollows := performs_follows hperforms
  obtain ⟨events, -, heffect⟩ := hperforms.effect
  have hstays := heffect.stays_open hopen
  have hstage := stage_absorb hperforms.keeps.loop hperforms.keeps.name hfollows
  refine .of_move conn (hs.records.absorb halive hperforms.sound hperforms.keeps
    hfollows hstays fun hconnecting => absurd hconnecting hopen) rfl ?_ fun other _ hother => ?_
  · rw [hstage, if_pos rfl]
    exact .work _ _ hopen hstays hclosed
  · rw [hstage, if_neg hother]

theorem sendDirect_advances (hs : s.Invariant) (halive : s.Alive conn) {buf : CppString}
    {result : WriteResult} {f : Frame}
    (hsend : send conn true buf.bytes result (s.frame conn) = .ok f) :
    Advances s (s.absorb conn f) := by
  unfold send at hsend
  split at hsend
  next hconnected =>
    have hstate : (s.conns conn).state = .kConnected := hconnected
    have hopen : (s.conns conn).state ≠ .kConnecting := by simp [hstate]
    obtain ⟨hperforms, -⟩ :=
      sendInLoop_performs (hs.records.registry.sound conn halive) hopen buf.fits hsend
    exact hs.advances_performs halive hperforms hopen (by simp [hstate])
  next =>
    rw [Except.ok.injEq] at hsend
    rw [← hsend, absorb_frame]
    exact .of_same hs.records rfl fun _ _ => rfl

theorem shutdown_advances (hs : s.Invariant) (halive : s.Alive conn) (inLoopThread : Bool) :
    Advances s (s.shutdown conn inLoopThread) := by
  unfold System.shutdown
  by_cases hstate : (s.conns conn).state = .kConnected
  · obtain ⟨hperforms, -⟩ :=
      shutdown_performs (hs.records.registry.sound conn halive) inLoopThread
    exact hs.advances_performs halive hperforms (by simp [hstate]) (by simp [hstate])
  · have hsame : TcpConnection.shutdown conn inLoopThread (s.frame conn) = s.frame conn :=
      if_neg hstate
    rw [hsame, absorb_frame]
    exact .of_same hs.records rfl fun _ _ => rfl

theorem destroyEntry_advances (hs : s.Invariant) : Advances s (s.destroyEntry conn) := by
  unfold destroyEntry
  split
  next halive => exact shutdown_advances hs halive _
  next => exact .of_same hs.records rfl fun _ _ => rfl

/-! ## Settings -/

theorem user_advances (hs : s.Invariant) (conn : ConnId) (op : UserOp) :
    Advances s (s.updateConn conn op.apply) := by
  have hupdate : (s.updateConn conn op.apply).Records ∧
      ∀ other, (s.updateConn conn op.apply).stage other = s.stage other := by
    cases op with
    | retrieve len =>
        exact hs.records.updateConn rfl rfl rfl rfl rfl rfl fun hsound =>
          ⟨hsound.input.retrieve len, hsound.output, hsound.tracks, hsound.mask⟩
    | setContext | setHighWaterMarkCallback | setWriteCompleteCallback =>
        exact hs.records.updateConn rfl rfl rfl rfl rfl rfl fun hsound =>
          ⟨hsound.input, hsound.output, hsound.tracks, hsound.mask⟩
  exact .of_same hupdate.1 rfl fun other _ => hupdate.2 other

theorem withWheel_records (hs : s.Records) (timerWheel : TimerWheel) :
    (s.withWheel timerWheel).Records :=
  hs.of_same rfl rfl rfl rfl rfl rfl rfl fun _ => Or.inl

/-- The wheel is told of the connection. -/
theorem refresh_records (hs : s.Records) {now : Int} (hrefresh : s.refresh conn now = .ok next) :
    next.Records ∧ next.accepted = s.accepted ∧ (∀ other, next.own other = s.own other) ∧
      ∀ other, next.stage other = s.stage other := by
  rcases refresh_cases hrefresh with rfl | ⟨timerWheel, context, -, rfl⟩
  · exact ⟨hs, rfl, fun _ => rfl, fun _ => rfl⟩
  · obtain ⟨hrecords, hstage⟩ :
        ((s.withWheel timerWheel).updateConn conn ({ · with context })).Records ∧
          ∀ other, ((s.withWheel timerWheel).updateConn conn ({ · with context })).stage other =
            (s.withWheel timerWheel).stage other :=
      (withWheel_records hs timerWheel).updateConn rfl rfl rfl rfl rfl rfl fun hsound =>
        ⟨hsound.input, hsound.output, hsound.tracks, hsound.mask⟩
    exact ⟨hrecords, rfl, fun other => (grows_updateConn rfl rfl).own other, hstage⟩

/-! ## Events -/

theorem setRevents_records (hs : s.Records) (conn : ConnId) (revents : EventMask) :
    (s.setRevents conn revents).Records ∧
      ∀ other, (s.setRevents conn revents).stage other = s.stage other :=
  hs.updateConn rfl rfl rfl rfl rfl rfl fun hsound =>
    ⟨hsound.input, hsound.output, hsound.tracks, hsound.mask⟩

theorem watches_activate {loop : IoLoop} {other : ConnId} :
    (loop.activate conn).Watches other ↔ loop.Watches other ∨ other = conn := by
  simp only [IoLoop.Watches, IoLoop.activate, List.mem_append, List.mem_singleton]
  tauto

/-- A reported channel is registered, so its connection may be watched. -/
theorem fillActiveChannel_advances (hs : s.Invariant) {loop : LoopId} (event : Int × EventMask)
    (hbatch : (s.loops loop).Batchless) (hfill : fillActiveChannel loop s event = .ok next) :
    Advances s next ∧ next.accepted = s.accepted ∧ (next.loops loop).Batchless := by
  obtain ⟨mask, conn, hkernel, halive, rfl⟩ := fillActiveChannel_ok hfill
  obtain ⟨hconn, hown, -, hindex⟩ :=
    hs.records.registry.owned loop event.1 conn (Or.inr ⟨mask, hkernel⟩)
  obtain ⟨hrecords, hstage⟩ := setRevents_records hs.records conn event.2
  have hsame : (s.setRevents conn event.2).own conn = loop := by
    rw [own, setRevents, updateConn_self]
    exact hown
  have hall : ((s.setRevents conn event.2).updateLoop loop
      (IoLoop.activate conn)).Records := by
    refine hrecords.events rfl rfl rfl rfl (fun _ => Or.inl) fun other hwatches => ?_
    rcases watches_activate.mp hwatches with hold | rfl
    · exact Or.inl hold
    · exact Or.inr ⟨hbatch, hconn, hsame⟩
  have hactivated : ((s.setRevents conn event.2).updateLoop loop
      (IoLoop.activate conn)).stage conn = { (s.setRevents conn event.2).stage conn with
        watched := decide ((((s.setRevents conn event.2).updateLoop loop
          (IoLoop.activate conn)).loops
            ((s.setRevents conn event.2).own conn)).Watches conn) } :=
    stage_events rfl rfl conn
  refine ⟨.of_move conn hall rfl ?_ fun other hother hdifferent => ?_, rfl, ?_⟩
  · have hwatched : decide ((((s.setRevents conn event.2).updateLoop loop
        (IoLoop.activate conn)).loops loop).Watches conn) = true := by
      rw [updateLoop_self]
      exact decide_eq_true (watches_activate.mpr (Or.inr rfl))
    rw [hactivated, hstage, hsame, hwatched]
    exact .watch hindex
  · rw [← hstage other]
    refine stage_events_same rfl rfl (watches_activate.trans ?_)
    simp only [hdifferent, or_false]
  · rw [updateLoop_self]
    exact hbatch

/-- Handling starts with the connection taken from the list. -/
theorem handleEvent_advances (hs : s.Invariant) {loop : LoopId}
    (hhandling : (s.loops loop).handling = none) (hhandle : s.handleEvent loop = .ok next) :
    Advances s next := by
  obtain ⟨conn, rest, hactive, halive, rfl⟩ := handleEvent_ok hhandle
  have hwatches {callbacks : List Callback} {guard : Option ConnId} (other : ConnId) :
      ({ s.loops loop with
        activeChannels := rest
        handling := some (conn, callbacks)
        guard := guard } : IoLoop).Watches other ↔ (s.loops loop).Watches other := by
    simp only [IoLoop.Watches, hactive, hhandling, Option.map_some, Option.some.injEq,
      Option.map_none, reduceCtorEq, or_false, List.mem_cons]
    tauto
  refine .of_same (hs.records.events rfl rfl rfl rfl ?_ ?_) rfl fun other _ =>
    stage_events_same rfl rfl (hwatches other)
  · intro locked hlocked
    dsimp only at hlocked
    split at hlocked
    · exact Or.inr (Option.some.inj hlocked ▸ halive)
    · cases hlocked
  · exact fun other hmem => Or.inl ((hwatches other).mp hmem)

theorem endHandling_advances (hs : s.Invariant) (loop : LoopId) :
    Advances s (s.updateLoop loop ({ · with handling := none, guard := none })) := by
  have hwatches (other : ConnId)
      (hmem : ({ s.loops loop with handling := none, guard := none } : IoLoop).Watches other) :
      (s.loops loop).Watches other := by
    simp only [IoLoop.Watches, Option.map_none, reduceCtorEq, or_false] at hmem
    exact Or.inl hmem
  have hrecords : (s.updateLoop loop ({ · with handling := none, guard := none })).Records :=
    hs.records.events rfl rfl rfl rfl (by rintro _ ⟨⟩)
      fun other hmem => Or.inl (hwatches other hmem)
  refine ⟨hrecords, fun other _ => ?_, fun _ hold hnew => absurd hnew (Nat.not_lt_of_le hold)⟩
  have hstage : (s.updateLoop loop ({ · with handling := none, guard := none })).stage other =
      { s.stage other with watched := decide (((s.updateLoop loop
        ({ · with handling := none, guard := none })).loops (s.own other)).Watches other) } :=
    stage_events rfl rfl other
  rw [hstage]
  by_cases hstill : ((s.updateLoop loop ({ · with handling := none, guard := none })).loops
      (s.own other)).Watches other
  · have hbefore : (s.loops (s.own other)).Watches other := by
      by_cases hown : s.own other = loop
      · rw [hown, updateLoop_self] at hstill
        rw [hown]
        exact hwatches other hstill
      · rw [updateLoop_of_ne hown] at hstill
        exact hstill
    have hsame : s.stage other = { s.stage other with watched := true } := by
      simp [stage, hbefore]
    rw [decide_eq_true hstill, ← hsame]
  · rw [decide_eq_false hstill]
    exact .single .unwatch

/-! ## Removal -/

/-- The removal of a closed connection, in the loop of the server. -/
theorem removeConnection_advances (hs : s.Invariant) (halive : s.Alive conn) {loop : LoopId}
    (hclosed : (s.conns conn).state = .kDisconnected)
    (hremove : s.removeConnection loop conn = .ok next) : Advances s next := by
  have hopen : (s.conns conn).state ≠ .kConnecting := by simp [hclosed]
  rcases removeConnection_cases hremove with ⟨-, rfl⟩ | ⟨-, rfl⟩
  · have hwellformed := hs.guarded.wellformed
    refine .of_move conn (hs.records.removeConnectionInLoop halive hopen) rfl ?_
      fun other hother hdifferent => ?_
    · rw [stage_removeConnectionInLoop hwellformed halive.1 halive.1, if_pos rfl]
      exact .removeDirectly hclosed
    · rw [stage_removeConnectionInLoop hwellformed halive.1 hother, if_neg hdifferent]
  · have hstage (other : ConnId) : (s.queueInLoop baseLoop (.removeConnectionInLoop conn)).stage
        other = { s.stage other with
          toRemove := (s.stage other).toRemove + if other = conn then 1 else 0 } := by
      have hgrows := grows_queueInLoop baseLoop (.removeConnectionInLoop conn) s
      rw [hgrows.stage (List.append_nil _).symm other]
      simp only [count_only, watches_queueInLoop, List.count_nil, Nat.add_zero]
      simp [stage, System.queueInLoop, System.updateLoop, eq_comm]
    refine .of_move conn (hs.records.queueInLoop halive rfl (by rintro _ ⟨⟩) fun hconnecting =>
      absurd hconnecting hopen) rfl ?_ fun other _ hdifferent => ?_
    · rw [hstage, if_pos rfl]
      exact .requestRemoval hclosed
    · rw [hstage, if_neg hdifferent]
      rfl

/-! ## Callbacks -/

theorem handling_absorb (conn : ConnId) (f : Frame) (s : System) (loop : LoopId) :
    ((s.absorb conn f).loops loop).handling = (s.loops loop).handling :=
  updateLoop_same (s := s.updateConn conn fun _ => f.conn) IoLoop.handling rfl loop

theorem watches_handling {loop : IoLoop} {rest callbacks : List Callback}
    (hhandling : loop.handling = some (conn, callbacks)) (other : ConnId) :
    ({ loop with handling := some (conn, rest) } : IoLoop).Watches other ↔ loop.Watches other := by
  simp only [IoLoop.Watches, hhandling, Option.map_some]

theorem stage_finishCallback {loop : LoopId} (callback : Callback) (rest : List Callback)
    {callbacks : List Callback} {f : Frame}
    (hhandling : (s.loops loop).handling = some (conn, callbacks))
    (hloop : f.conn.loop = s.own conn) (hname : f.conn.name = (s.conns conn).name)
    (hfollows : ∀ functor ∈ f.queued, functor.Follows conn) (other : ConnId) :
    (s.finishCallback loop conn callback rest f).stage other =
      if other = conn then
        { s.stage conn with state := f.conn.state, index := f.conn.channel.index }
      else s.stage other := by
  rw [← stage_absorb hloop hname hfollows other]
  have hsame := (handling_absorb conn f s loop).trans hhandling
  have hrecord : ((s.absorb conn f).record loop conn (.handled callback)).stage other =
      (s.absorb conn f).stage other := by
    rw [stage_record]
    simp
  rw [← hrecord]
  exact stage_events_same rfl rfl (watches_handling hsame other)

/-- A callback closes the connection, or leaves its state and index. -/
theorem finishCallback_advances (hs : s.Invariant) {loop : LoopId} {callback : Callback}
    {rest : List Callback} (hhandling : (s.loops loop).handling = some (conn, callback :: rest))
    {calls : Syscalls} {f : Frame} (hf : onCallback conn callback calls (s.frame conn) = .ok f) :
    Advances s (s.finishCallback loop conn callback rest f) := by
  have hwatches : (s.loops loop).Watches conn := Or.inr (by rw [hhandling]; rfl)
  obtain ⟨halive, hown, hopen, hestablished, hdestroyed⟩ := hs.of_watches hwatches
  have hsound := hs.records.registry.sound conn halive
  obtain ⟨hperforms, -⟩ := onCallback_performs hsound hf
  have hfollows := performs_follows hperforms
  obtain ⟨events, -, heffect⟩ := hperforms.effect
  have hstage := stage_finishCallback callback rest hhandling
    hperforms.keeps.loop hperforms.keeps.name hfollows
  have habsorbed : (s.absorb conn f).Records :=
    hs.records.absorb halive hperforms.sound hperforms.keeps hfollows (heffect.stays_open hopen)
      fun hconnecting => absurd hconnecting hopen
  have hsame : (s.absorb conn f).own conn = loop :=
    ((grows_absorb hperforms.keeps.loop hperforms.keeps.name).own conn).trans hown
  have hrecorded : ((s.absorb conn f).record loop conn (.handled callback)).Records := by
    refine habsorbed.record halive.1 hsame.symm fun _ _ => ⟨?_, ?_⟩
    · refine List.count_pos_iff.mp ?_
      rw [← hown]
      exact lt_of_lt_of_eq Nat.one_pos hestablished.symm
    · refine List.count_eq_zero.mp ?_
      rw [← hown]
      exact hdestroyed
  have hrecords : (s.finishCallback loop conn callback rest f).Records := by
    have hsame := (handling_absorb conn f s loop).trans hhandling
    exact hrecorded.events rfl rfl rfl rfl (fun _ => Or.inl) fun other hmem =>
      Or.inl ((watches_handling hsame other).mp hmem)
  refine .of_move conn hrecords rfl ?_ fun other _ hother => ?_
  · rw [hstage, if_pos rfl]
    rcases onCallback_cases hsound hf with ⟨-, rfl⟩ | ⟨-, hcloses⟩ | ⟨-, hdelivers⟩
    · exact .work _ _ hopen hopen fun hclosed => ⟨hclosed, rfl⟩
    · rw [hcloses.state]
      exact .close _ (hs.watched hwatches).2.2
    · rw [hdelivers.state, hdelivers.channel]
      exact .work _ _ hopen hopen fun hclosed => ⟨hclosed, rfl⟩
  · rw [hstage, if_neg hother]

theorem callback_advances (hs : s.Invariant) {loop : LoopId} {calls : Syscalls} {now : Int}
    (hcallback : s.callback loop calls now = .ok next) : Advances s next := by
  obtain ⟨conn, callback, rest, f, hhandling, halive, hf, hcallback⟩ := callback_ok hcallback
  have hfinish := finishCallback_advances hs hhandling hf
  have hfinished := hfinish.invariant hs
    (finishCallback_guarded hs.guarded halive.1 (onCallback_keeps hf) loop callback rest)
  -- a write makes no call into the server, a close one, a read one or a close
  rcases onCallback_cases (hs.records.registry.sound conn halive) hf with
    ⟨-, rfl⟩ | ⟨-, hcloses⟩ | ⟨-, hdelivers⟩
  · simp only [frame, run_nil, Except.ok.injEq] at hcallback
    exact hcallback ▸ hfinish
  · have hevents : f.events = [.connectionCallback .kDisconnected, .closeCallback] :=
      hcloses.events
    rw [hevents, run_cons_eq_ok] at hcallback
    obtain ⟨told, htold, hcallback⟩ := hcallback
    obtain rfl : _ = told := Except.ok.inj htold
    rw [run_cons_eq_ok] at hcallback
    obtain ⟨removed, hremoved, hcallback⟩ := hcallback
    obtain rfl : removed = next := Except.ok.inj hcallback
    have hwatches : ((s.finishCallback loop conn callback rest f).loops loop).Watches conn := by
      rw [finishCallback, updateLoop_self]
      exact Or.inr rfl
    have hclosed : ((s.finishCallback loop conn callback rest f).conns conn).state =
        .kDisconnected := by
      simp [finishCallback, record, absorb, updateLoop, hcloses.state]
    exact hfinish.trans (removeConnection_advances hfinished
      (hfinished.of_watches hwatches).1 hclosed hremoved) rfl
  · have hevents : f.events = [.messageCallback] := hdelivers.events
    rw [hevents, run_cons_eq_ok] at hcallback
    obtain ⟨refreshed, hrefresh, hcallback⟩ := hcallback
    obtain rfl : refreshed = next := Except.ok.inj hcallback
    simp only [dispatch, hfinished.records.running, reduceCtorEq, or_self, ↓reduceIte]
      at hrefresh
    obtain ⟨hrecords, haccepted, -, hstage⟩ := refresh_records hfinished.records hrefresh
    exact hfinish.trans (.of_same hrecords haccepted fun other _ => hstage other) rfl

/-! ## Functors -/

theorem frame_updateLoop {loop : LoopId} {change : IoLoop → IoLoop}
    (hpoller : (change (s.loops loop)).poller = (s.loops loop).poller) (conn : ConnId) :
    (s.updateLoop loop change).frame conn = s.frame conn := by
  unfold frame
  rw [own_updateLoop, updateLoop_same IoLoop.poller hpoller]
  rfl

theorem alive_startFunctor {loop : LoopId} {functor : Functor} {rest : List Functor}
    (hfunctors : (s.loops loop).functors = functor :: rest) (halive : s.Alive conn) :
    (s.updateLoop loop (IoLoop.startFunctor functor rest)).Alive conn := by
  refine halive.imp_right (Or.imp_right (Or.imp_right (Or.imp_right ?_)))
  rintro ⟨other, hloop, hmem⟩
  refine ⟨other, hloop, ?_⟩
  by_cases hother : other = loop
  · subst other
    have hheld : (s.loops loop).held ⊆ ((s.loops loop).startFunctor functor rest).held :=
      held_subset rfl (by simp [IoLoop.queued, IoLoop.startFunctor, hfunctors])
    rw [updateLoop_self]
    exact hheld hmem
  · rw [updateLoop_of_ne hother]
    exact hmem

theorem startFunctor_records (hs : s.Records) {loop : LoopId} {functor : Functor}
    {rest : List Functor} (hfunctors : (s.loops loop).functors = functor :: rest) :
    (s.updateLoop loop (IoLoop.startFunctor functor rest)).Records := by
  refine hs.batch (pop_queued hfunctors) ?_ rfl rfl rfl rfl fun conn hwatches => ?_
  · intro waiting hmem
    rw [IoLoop.tasks, hfunctors, List.cons_append]
    exact List.mem_cons_of_mem _ hmem
  · -- a loop that handles events runs no batch
    have hbatch := (hs.rounds.batches loop conn hwatches).2
    rw [hfunctors] at hbatch
    cases hbatch

/-- A functor that waits finds the stage it was queued for. -/
theorem Invariant.waits (hs : s.Invariant) {loop : LoopId} {functor : Functor}
    {rest : List Functor} (hfunctors : (s.loops loop).functors = functor :: rest) :
    loop = s.home functor ∧ (∀ buf ∈ functor.messages, buf.length ≤ maxSize) ∧
      functor ∈ (s.loops (s.home functor)).tasks := by
  have hmem : functor ∈ (s.loops loop).tasks := by simp [IoLoop.tasks, hfunctors]
  obtain ⟨hhome, hfits⟩ :=
    hs.records.rounds.placed loop functor ((s.loops loop).tasks_subset_queued hmem)
  exact ⟨hhome, hfits, hhome ▸ hmem⟩

theorem runRemoval_advances (hs : s.Invariant) {loop : LoopId} {rest : List Functor}
    (hfunctors : (s.loops loop).functors = .removeConnectionInLoop conn :: rest)
    (halive : s.Alive conn) :
    Advances s ((s.updateLoop loop
      (IoLoop.startFunctor (.removeConnectionInLoop conn) rest)).removeConnectionInLoop conn) := by
  obtain ⟨hhome, -, hmem⟩ := hs.waits hfunctors
  have hwaits : 0 < (s.stage conn).toRemove := List.count_pos_iff.mpr hmem
  -- a removal is only requested for a closed connection
  have hclosed : (s.conns conn).state = .kDisconnected :=
    (hs.laws conn halive.1).closed (by omega)
  have hstart := startFunctor_records hs.records hfunctors
  have hwellformed := hs.guarded.wellformed.updateLoop (pop_queued hfunctors)
  have hstage := stage_startFunctor hfunctors hhome
  refine .of_move conn (hstart.removeConnectionInLoop
    (alive_startFunctor hfunctors halive) (by simp [updateLoop, hclosed])) rfl ?_
      fun other hother hdifferent => ?_
  · rw [stage_removeConnectionInLoop hwellformed halive.1 halive.1, if_pos rfl, hstage]
    simp only [reduceCtorEq, ↓reduceIte, Nat.sub_zero]
    exact .remove hwaits
  · rw [stage_removeConnectionInLoop hwellformed halive.1 hother, if_neg hdifferent, hstage]
    simp [Ne.symm hdifferent]

/-- The member function of a functor keeps the records. -/
theorem runMember_records (hs : s.Records) {loop : LoopId} {functor : Functor}
    {rest : List Functor} (hfunctors : (s.loops loop).functors = functor :: rest)
    (halive : s.Alive conn) {f : Frame} (hsound : f.Sound conn)
    (hkeeps : (s.frame conn).Extends f) (hfollows : ∀ functor ∈ f.queued, functor.Follows conn)
    (hstays : f.conn.state ≠ .kConnecting)
    (hopen : (s.conns conn).state = .kConnecting → f.queued = []) :
    ((s.updateLoop loop (IoLoop.startFunctor functor rest)).absorb conn f).Records ∧
      ((s.updateLoop loop (IoLoop.startFunctor functor rest)).absorb conn f).own conn =
        s.own conn := by
  have hframe : (s.updateLoop loop (IoLoop.startFunctor functor rest)).frame conn =
      s.frame conn := frame_updateLoop rfl conn
  rw [← hframe] at hkeeps
  exact ⟨(startFunctor_records hs hfunctors).absorb (alive_startFunctor hfunctors halive) hsound
    hkeeps hfollows hstays hopen, (grows_absorb hkeeps.loop hkeeps.name).own conn⟩

theorem stage_runMember {loop : LoopId} {functor : Functor} {rest : List Functor}
    (hfunctors : (s.loops loop).functors = functor :: rest) (hhome : loop = s.home functor)
    {f : Frame} (hkeeps : (s.frame conn).Extends f)
    (hfollows : ∀ functor ∈ f.queued, functor.Follows conn) (other : ConnId) :
    ((s.updateLoop loop (IoLoop.startFunctor functor rest)).absorb conn f).stage other =
      { s.stage other with
        state := if other = conn then f.conn.state else (s.stage other).state
        index := if other = conn then f.conn.channel.index else (s.stage other).index
        toEstablish := (s.stage other).toEstablish -
          if functor = .connectEstablished other then 1 else 0
        toRemove := (s.stage other).toRemove -
          if functor = .removeConnectionInLoop other then 1 else 0
        toDestroy := (s.stage other).toDestroy -
          if functor = .connectDestroyed other then 1 else 0 } := by
  have hstage : ((s.updateLoop loop (IoLoop.startFunctor functor rest)).absorb conn f).stage other =
      if other = conn then
        { (s.updateLoop loop (IoLoop.startFunctor functor rest)).stage conn with
          state := f.conn.state, index := f.conn.channel.index }
      else (s.updateLoop loop (IoLoop.startFunctor functor rest)).stage other :=
    stage_absorb (s := s.updateLoop loop (IoLoop.startFunctor functor rest)) hkeeps.loop
      hkeeps.name hfollows other
  rw [hstage, stage_startFunctor hfunctors hhome, stage_startFunctor hfunctors hhome]
  split
  next hother => simp [hother]
  next => rfl

theorem runEstablish_advances (hs : s.Invariant) {loop : LoopId} {rest : List Functor}
    (hfunctors : (s.loops loop).functors = .connectEstablished conn :: rest)
    (halive : s.Alive conn) {f : Frame}
    (hf : TcpConnection.connectEstablished conn (s.frame conn) = .ok f) :
    Advances s (((s.updateLoop loop (IoLoop.startFunctor (.connectEstablished conn) rest)).absorb
      conn f).record loop conn .established) := by
  obtain ⟨hhome, -, hmem⟩ := hs.waits hfunctors
  have hwaits : 0 < (s.stage conn).toEstablish := List.count_pos_iff.mpr hmem
  have hlaw := hs.laws conn halive.1
  have honce := hlaw.once
  have hconnecting : (s.conns conn).state = .kConnecting := hlaw.connecting.mpr (by omega)
  obtain ⟨hempty, -⟩ := hs.records.rounds.connecting conn halive.1 hconnecting
  obtain ⟨other, hother, hsound, hstate, -, hindex, hqueued, -, hkeeps⟩ :=
    connectEstablished_ok (hs.records.registry.sound conn halive) hconnecting hempty
  obtain rfl : f = other := Except.ok.inj (hf.symm.trans hother)
  have hnone : f.queued = [] := hqueued
  have hfollows : ∀ functor ∈ f.queued, functor.Follows conn := by simp [hnone]
  obtain ⟨hrecords, hown⟩ := runMember_records hs.records hfunctors halive hsound hkeeps hfollows
    (by simp [hstate]) fun _ => hnone
  have hplace : s.own conn = loop := hhome.symm
  refine .of_move conn (hrecords.record halive.1 (hown.trans hplace).symm nofun) rfl ?_
    fun other _ hdifferent => ?_
  · have hmove := Stage.Move.establish hconnecting hwaits
    rw [stage_record, hown, hplace, stage_runMember hfunctors hhome hkeeps hfollows]
    simpa [hstate, hindex] using hmove
  · rw [stage_record, stage_runMember hfunctors hhome hkeeps hfollows]
    simp [hdifferent, Ne.symm hdifferent]

theorem runDestroy_advances (hs : s.Invariant) {loop : LoopId} {rest : List Functor}
    (hfunctors : (s.loops loop).functors = .connectDestroyed conn :: rest)
    (halive : s.Alive conn) {f : Frame}
    (hf : TcpConnection.connectDestroyed conn (s.frame conn) = .ok f) :
    Advances s (((s.updateLoop loop (IoLoop.startFunctor (.connectDestroyed conn) rest)).absorb
      conn f).record loop conn .destroyed) := by
  obtain ⟨hhome, -, hmem⟩ := hs.waits hfunctors
  have hwaits : 0 < (s.stage conn).toDestroy := List.count_pos_iff.mpr hmem
  have hlaw := hs.laws conn halive.1
  have hremovals := hlaw.removals
  have hclosed : (s.conns conn).state = .kDisconnected := hlaw.closed (by omega)
  obtain ⟨other, hother, hsound, hstate, -, hindex, hqueued, -, hkeeps⟩ :=
    connectDestroyed_ok (hs.records.registry.sound conn halive)
  obtain rfl : f = other := Except.ok.inj (hf.symm.trans hother)
  have hafter : f.conn.state = .kDisconnected := by
    rw [hstate]
    simp [frame, hclosed]
  have hnone : f.queued = [] := hqueued
  have hfollows : ∀ functor ∈ f.queued, functor.Follows conn := by simp [hnone]
  obtain ⟨hrecords, hown⟩ := runMember_records hs.records hfunctors halive hsound hkeeps hfollows
    (by simp [hafter]) fun _ => hnone
  have hplace : s.own conn = loop := hhome.symm
  have hunwatched : (s.stage conn).watched = false := by
    refine decide_eq_false fun hwatches => ?_
    -- a loop that runs a batch has no events left
    rw [hplace] at hwatches
    have hbatch := (hs.records.rounds.batches loop conn hwatches).2
    rw [hfunctors] at hbatch
    cases hbatch
  refine .of_move conn (hrecords.record halive.1 (hown.trans hplace).symm (by rintro _ ⟨⟩)) rfl ?_
    fun other _ hdifferent => ?_
  · have hmove := Stage.Move.destroy .kDisconnected hwaits hunwatched fun _ => rfl
    rw [stage_record, hown, hplace, stage_runMember hfunctors hhome hkeeps hfollows]
    simpa [hafter, hindex] using hmove
  · rw [stage_record, stage_runMember hfunctors hhome hkeeps hfollows]
    simp [hdifferent, Ne.symm hdifferent]

/-- Messages, half-closes and notifications. -/
theorem runPlain_advances (hs : s.Invariant) {loop : LoopId} {functor : Functor}
    {rest : List Functor} (hfunctors : (s.loops loop).functors = functor :: rest)
    (halive : s.Alive functor.target)
    (hestablish : ∀ conn, functor ≠ .connectEstablished conn)
    (hdestroy : ∀ conn, functor ≠ .connectDestroyed conn)
    (hremove : ∀ conn, functor ≠ .removeConnectionInLoop conn) {result : WriteResult} {f : Frame}
    (hf : onFunctor functor result (s.frame functor.target) = .ok f) :
    Advances s
      ((s.updateLoop loop (IoLoop.startFunctor functor rest)).absorb functor.target f) := by
  obtain ⟨hhome, hfits, hmem⟩ := hs.waits hfunctors
  have hopen : (s.conns functor.target).state ≠ .kConnecting := by
    intro hconnecting
    obtain ⟨-, honly⟩ := hs.records.rounds.connecting functor.target halive.1 hconnecting
    exact hestablish _ (honly _ functor hmem rfl)
  obtain ⟨hperforms, -⟩ := onFunctor_performs (hs.records.registry.sound _ halive) ⟨rfl, hfits⟩
    ⟨fun heq => absurd heq (hestablish _), fun hconnecting => absurd hconnecting hopen⟩
    (fun hconnecting => absurd hconnecting hopen) hf
  have hfollows := performs_follows hperforms
  obtain ⟨events, -, heffect⟩ := hperforms.effect
  have hstays := heffect.stays_open hopen
  obtain ⟨hrecords, -⟩ := runMember_records hs.records hfunctors halive hperforms.sound
    hperforms.keeps hfollows hstays fun hconnecting => absurd hconnecting hopen
  refine .of_move functor.target hrecords rfl ?_ fun other _ hdifferent => ?_
  · have hclosed : (s.conns functor.target).state = .kDisconnected →
        f.conn.state = .kDisconnected ∧
          f.conn.channel.index = (s.conns functor.target).channel.index := by
      intro hclosed
      have hsame := onFunctor_closed hclosed (hestablish _) (hdestroy _) hf
      rw [hsame]
      exact ⟨hclosed, rfl⟩
    have hmove : (s.stage functor.target).Move _ := .work _ _ hopen hstays hclosed
    rw [stage_runMember hfunctors hhome hperforms.keeps hfollows]
    simpa [hestablish, hdestroy, hremove] using hmove
  · rw [stage_runMember hfunctors hhome hperforms.keeps hfollows]
    simp [hdifferent, hestablish, hdestroy, hremove]

theorem runFunctor_advances (hs : s.Invariant) {loop : LoopId} {result : WriteResult}
    (hrun : s.runFunctor loop result = .ok next) : Advances s next := by
  obtain ⟨functor, rest, hfunctors, halive, hrun⟩ := runFunctor_ok hrun
  have hframe : (s.updateLoop loop (IoLoop.startFunctor functor rest)).frame functor.target =
      s.frame functor.target := frame_updateLoop rfl _
  unfold execute at hrun
  cases functor with
  | removeConnectionInLoop conn =>
      have hrunning : (s.updateLoop loop (IoLoop.startFunctor
        (.removeConnectionInLoop conn) rest)).lifetime = .running := hs.records.running
      simp only [hrunning, reduceCtorEq, ↓reduceIte, Except.ok.injEq] at hrun
      exact hrun ▸ runRemoval_advances hs hfunctors halive
  | connectEstablished conn =>
      obtain ⟨f, hf, hrun⟩ := Except.bind_eq_ok.mp hrun
      obtain rfl : _ = next := Except.ok.inj hrun
      exact runEstablish_advances hs hfunctors halive (hframe ▸ hf)
  | connectDestroyed conn =>
      obtain ⟨f, hf, hrun⟩ := Except.bind_eq_ok.mp hrun
      obtain rfl : _ = next := Except.ok.inj hrun
      exact runDestroy_advances hs hfunctors halive (hframe ▸ hf)
  | sendInLoop | shutdownInLoop | writeCompleteCallback | highWaterMarkCallback =>
      obtain ⟨f, hf, hrun⟩ := Except.bind_eq_ok.mp hrun
      obtain rfl : _ = next := Except.ok.inj hrun
      exact runPlain_advances hs hfunctors halive nofun nofun nofun (hframe ▸ hf)

/-! ## New connections -/

section Construct

variable (sockfd : Int) (hasWriteCompleteCallback : Bool)

theorem own_construct (hconn : conn < s.accepted) :
    (s.construct sockfd hasWriteCompleteCallback).own conn = s.own conn := by
  rw [own, construct_conns _ _ hconn, own]

theorem frame_construct (hconn : conn < s.accepted) :
    (s.construct sockfd hasWriteCompleteCallback).frame conn = s.frame conn := by
  rw [frame, own_construct _ _ hconn, construct_conns _ _ hconn]
  rfl

/-- Nothing refers to a connection that has not been accepted. -/
theorem Invariant.unborn (hs : s.Invariant) (loop : LoopId) :
    (∀ functor ∈ (s.loops loop).tasks, functor.target ≠ s.accepted) ∧
      ¬ (s.loops loop).Watches s.accepted := by
  refine ⟨fun functor hmem htarget => ?_, fun hwatches => ?_⟩
  · have hlt := (hs.guarded.wellformed.queued loop functor
      ((s.loops loop).tasks_subset_queued hmem)).2
    exact absurd htarget (Nat.ne_of_lt hlt)
  · exact absurd (hs.records.rounds.watching loop _ hwatches).1 (Nat.lt_irrefl _)

theorem stage_construct (hs : s.Invariant) (hbounded : s.accepted < 2 ^ 32) :
    (∀ conn < s.accepted,
        (s.construct sockfd hasWriteCompleteCallback).stage conn = s.stage conn) ∧
      (s.construct sockfd hasWriteCompleteCallback).stage s.accepted =
        { Stage.accepted with toEstablish := 0 } := by
  constructor
  · intro conn hconn
    refine stage_congr (own_construct _ _ hconn) ?_ ?_
      (hs.guarded.wellformed.construct_mapped _ _ hbounded hconn) Iff.rfl (fun _ => rfl) rfl
    · rw [construct_conns _ _ hconn]
    · rw [construct_conns _ _ hconn]
  · have hmapped : (s.construct sockfd hasWriteCompleteCallback).Mapped s.accepted := by
      rw [Mapped, construct_new]
      exact Function.update_self ..
    have hwatches (loop : LoopId) :
        ¬ ((s.construct sockfd hasWriteCompleteCallback).loops loop).Watches s.accepted :=
      (hs.unborn loop).2
    have htasks (loop : LoopId) (functor : Functor) (htarget : functor.target = s.accepted) :
        ((s.construct sockfd hasWriteCompleteCallback).loops loop).tasks.count functor = 0 :=
      List.count_eq_zero.mpr fun hmem => (hs.unborn loop).1 functor hmem htarget
    have hlog (entry : Record) (hconn : entry.conn = s.accepted) :
        (s.construct sockfd hasWriteCompleteCallback).log.count entry = 0 :=
      List.count_eq_zero.mpr fun hmem =>
        absurd hconn (Nat.ne_of_lt (hs.records.chronicle.accepted entry hmem))
    simp only [stage, hmapped, hwatches, htasks _ (.connectEstablished s.accepted) rfl,
      htasks _ (.removeConnectionInLoop s.accepted) rfl,
      htasks _ (.connectDestroyed s.accepted) rfl,
      hlog ⟨_, s.accepted, .established⟩ rfl, hlog ⟨_, s.accepted, .removed⟩ rfl,
      hlog ⟨_, s.accepted, .destroyed⟩ rfl, construct_new]
    rfl

/-- No poller knows a descriptor that no living connection owns. -/
theorem Invariant.unknown (hs : s.Invariant)
    (hfd : ∀ conn < s.accepted, s.Alive conn → (s.conns conn).channel.fd ≠ sockfd)
    (loop : LoopId) (conn : ConnId) : ¬ (s.loops loop).poller.Refers sockfd conn := by
  intro hrefers
  -- a registered connection is not destroyed yet, so it lives and owns its descriptor
  obtain ⟨hconn, -, hsame, hindex⟩ := hs.records.registry.owned loop sockfd conn hrefers
  have hdestroyed := ((hs.laws conn hconn).of_registered hindex).2
  exact hfd conn hconn (hs.alive hconn hdestroyed) hsame

/-- A newly constructed connection is sound. -/
theorem create_sound {f : Frame} {loop : LoopId} {name : String}
    (hconn : f.conn = TcpConnection.create loop name sockfd hasWriteCompleteCallback false)
    (hunknown : ∀ other, ¬ f.poller.Refers sockfd other) : f.Sound conn := by
  have hchannels : f.poller.channels sockfd = none :=
    Option.eq_none_iff_forall_not_mem.mpr fun other hmem => hunknown other (Or.inl hmem)
  have hkernel : f.poller.kernel sockfd = none :=
    Option.eq_none_iff_forall_not_mem.mpr fun entry hmem =>
      hunknown entry.ptr (Or.inr ⟨entry.events, hmem⟩)
  refine ⟨?_, ?_, ?_, ?_⟩ <;> rw [hconn]
  · exact Buffer.initial_valid
  · exact Buffer.initial_valid
  · exact ⟨hchannels, hkernel⟩
  · rfl

theorem construct_registry (hs : s.Invariant)
    (hfd : ∀ conn < s.accepted, s.Alive conn → (s.conns conn).channel.fd ≠ sockfd) :
    (s.construct sockfd hasWriteCompleteCallback).Registry := by
  have hregistry := hs.records.registry
  have hcases {conn : ConnId}
      (halive : (s.construct sockfd hasWriteCompleteCallback).Alive conn) :
      conn < s.accepted ∧ s.Alive conn ∨ conn = s.accepted := by
    refine (Nat.lt_succ_iff_lt_or_eq.mp halive.1).imp_left fun hconn => ⟨hconn, ?_⟩
    exact alive_construct _ _ hconn halive
  refine ⟨fun conn halive => ?_, fun first second hfirst hsecond hsame => ?_,
    fun loop fd conn hrefers => ?_⟩
  · rcases hcases halive with ⟨hconn, hbefore⟩ | rfl
    · rw [frame_construct _ _ hconn]
      exact hregistry.sound conn hbefore
    · exact create_sound _ _ (construct_new ..) (hs.unknown _ hfd _)
  · rcases hcases hfirst with ⟨hlt, hbefore⟩ | rfl
    · rw [construct_conns _ _ hlt] at hsame
      rcases hcases hsecond with ⟨hother, halive⟩ | rfl
      · rw [construct_conns _ _ hother] at hsame
        exact hregistry.fds first second hbefore halive hsame
      · rw [construct_new] at hsame
        exact absurd hsame (hfd first hlt hbefore)
    · rcases hcases hsecond with ⟨hother, halive⟩ | rfl
      · rw [construct_conns _ _ hother, construct_new] at hsame
        exact absurd hsame.symm (hfd second hother halive)
      · rfl
  · obtain ⟨hconn, hown, hsame, hindex⟩ := hregistry.owned loop fd conn hrefers
    rw [own_construct _ _ hconn, construct_conns _ _ hconn]
    exact ⟨Nat.lt_succ_of_lt hconn, hown, hsame, hindex⟩

theorem construct_rounds (hs : s.Invariant) :
    (s.construct sockfd hasWriteCompleteCallback).Rounds := by
  have hrounds := hs.records.rounds
  refine ⟨fun loop functor hmem => ?_, hrounds.batches, fun loop conn hwatches => ?_,
    fun conn hconn hconnecting => ?_⟩
  · obtain ⟨hhome, hfits⟩ := hrounds.placed loop functor hmem
    have htarget := (hs.guarded.wellformed.queued loop functor hmem).2
    have hsame : (s.construct sockfd hasWriteCompleteCallback).home functor = s.home functor := by
      cases functor <;> first | rfl | exact own_construct _ _ htarget
    exact ⟨hhome.trans hsame.symm, hfits⟩
  · obtain ⟨hconn, hown⟩ := hrounds.watching loop conn hwatches
    rw [own_construct _ _ hconn]
    exact ⟨Nat.lt_succ_of_lt hconn, hown⟩
  · rcases Nat.lt_succ_iff_lt_or_eq.mp hconn with hold | rfl
    · rw [construct_conns _ _ hold] at hconnecting ⊢
      exact hrounds.connecting conn hold hconnecting
    · refine ⟨?_, fun loop functor hmem htarget => ?_⟩
      · rw [construct_new]
        exact Buffer.initial_readable
      · exact absurd htarget ((hs.unborn loop).1 functor hmem)

theorem construct_records (hs : s.Invariant)
    (hfd : ∀ conn < s.accepted, s.Alive conn → (s.conns conn).channel.fd ≠ sockfd) :
    (s.construct sockfd hasWriteCompleteCallback).Records :=
  ⟨hs.records.running, hs.records.calls, construct_registry _ _ hs hfd, construct_rounds _ _ hs,
    hs.records.chronicle.of_same rfl (Nat.le_succ _) fun _ hconn => own_construct _ _ hconn⟩

end Construct

/-- The base loop establishes a new connection of its own at once. -/
theorem bornEstablished (hs : s.Records) (halive : s.Alive conn)
    (hborn : s.stage conn = { Stage.accepted with toEstablish := 0 })
    (hbase : s.own conn = baseLoop) (hestablish : s.connectEstablished baseLoop conn = .ok next) :
    next.Records ∧ next.accepted = s.accepted ∧ (next.stage conn).Law ∧
      ∀ other, other ≠ conn → next.stage other = s.stage other := by
  have hconnecting : (s.conns conn).state = .kConnecting := congrArg Stage.state hborn
  obtain ⟨hempty, -⟩ := hs.rounds.connecting conn halive.1 hconnecting
  obtain ⟨f, hf, hsound, hstate, -, hindex, hqueued, -, hkeeps⟩ :=
    connectEstablished_ok (hs.registry.sound conn halive) hconnecting hempty
  unfold connectEstablished at hestablish
  rw [hf] at hestablish
  obtain rfl := Except.ok.inj hestablish
  have hnone : f.queued = [] := hqueued
  have hfollows : ∀ functor ∈ f.queued, functor.Follows conn := by simp [hnone]
  have hrecords : (s.absorb conn f).Records :=
    hs.absorb halive hsound hkeeps hfollows (by simp [hstate]) fun _ => hnone
  have hplace : baseLoop = (s.absorb conn f).own conn :=
    (((grows_absorb hkeeps.loop hkeeps.name).own conn).trans hbase).symm
  have hstage := stage_absorb hkeeps.loop hkeeps.name hfollows
  refine ⟨hrecords.record halive.1 hplace nofun, rfl, ?_, fun other hother => ?_⟩
  · have hlaw := Stage.accepted_law.move (.establish rfl Nat.one_pos)
    rw [stage_record, ← hplace, hstage, if_pos rfl, hborn]
    simpa [Stage.accepted, hstate, hindex] using hlaw
  · rw [stage_record, hstage, if_neg hother]
    simp [Ne.symm hother]

/-- The establishment of a new connection of a sub-loop is queued there. -/
theorem bornQueued (hs : s.Records) (halive : s.Alive conn)
    (hborn : s.stage conn = { Stage.accepted with toEstablish := 0 }) :
    (s.queueInLoop (s.own conn) (.connectEstablished conn)).Records ∧
      ((s.queueInLoop (s.own conn) (.connectEstablished conn)).stage conn).Law ∧
      ∀ other, other ≠ conn →
        (s.queueInLoop (s.own conn) (.connectEstablished conn)).stage other = s.stage other := by
  have hstage (other : ConnId) :
      (s.queueInLoop (s.own conn) (.connectEstablished conn)).stage other =
        { s.stage other with
          toEstablish := (s.stage other).toEstablish + if other = conn then 1 else 0 } := by
    have hgrows := grows_queueInLoop (s.own conn) (.connectEstablished conn) s
    rw [hgrows.stage (List.append_nil _).symm other]
    simp only [count_only, watches_queueInLoop, List.count_nil, Nat.add_zero]
    by_cases hother : other = conn
    · simp [stage, System.queueInLoop, System.updateLoop, hother]
    · simp [stage, System.queueInLoop, System.updateLoop, hother, Ne.symm hother]
  refine ⟨hs.queueInLoop halive rfl (by rintro _ ⟨⟩) fun _ => rfl, ?_, fun other hother => ?_⟩
  · rw [hstage, if_pos rfl, hborn]
    exact Stage.accepted_law
  · rw [hstage, if_neg hother]
    rfl

theorem newConnection_advances (hs : s.Invariant) (hbounded : s.accepted < 2 ^ 32)
    {sockfd now : Int} {hasWriteCompleteCallback : Bool}
    (hfd : ∀ conn < s.accepted, s.Alive conn → (s.conns conn).channel.fd ≠ sockfd)
    (hnew : s.newConnection sockfd hasWriteCompleteCallback now = .ok next) : Advances s next := by
  unfold newConnection at hnew
  obtain ⟨middle, hrefresh, hnew⟩ := Except.bind_eq_ok.mp hnew
  obtain ⟨hrecords, haccepted, -, hstage⟩ :=
    refresh_records (construct_records _ _ hs hfd) hrefresh
  obtain ⟨hothers, hself⟩ := stage_construct sockfd hasWriteCompleteCallback hs hbounded
  have hborn : middle.stage s.accepted = { Stage.accepted with toEstablish := 0 } :=
    (hstage _).trans hself
  have hmapped : middle.Mapped s.accepted := of_decide_eq_true (congrArg Stage.mapped hborn)
  have halive : middle.Alive s.accepted := ⟨haccepted ▸ Nat.lt_succ_self _, Or.inl hmapped⟩
  have hfinal : next.Records ∧ next.accepted = middle.accepted ∧ (next.stage s.accepted).Law ∧
      ∀ other, other ≠ s.accepted → next.stage other = middle.stage other := by
    split at hnew
    next hbase => exact bornEstablished hrecords halive hborn hbase hnew
    next =>
      obtain rfl := Except.ok.inj hnew
      obtain ⟨hqueued, hlaw, hsame⟩ := bornQueued hrecords halive hborn
      exact ⟨hqueued, rfl, hlaw, hsame⟩
  obtain ⟨hnext, hsame, hlaw, hkept⟩ := hfinal
  refine ⟨hnext, fun other hother => ?_, fun other hold hlt => ?_⟩
  · rw [hkept other (Nat.ne_of_lt hother), hstage, hothers other hother]
  · have hbound : other < s.accepted + 1 := by
      rw [hsame, haccepted] at hlt
      exact hlt
    obtain rfl : other = s.accepted := by omega
    exact hlaw

end System

end Muduo
