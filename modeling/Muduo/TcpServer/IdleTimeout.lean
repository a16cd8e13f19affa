import Muduo.Library.Wheel
import Muduo.TcpServer.Registry

/-! # Idle connections of a server

With an idle timeout, `newConnection` makes an entry of the wheel for the connection,
and the entry calls `shutdown` when it dies. The law is that a connected connection
has an entry. Only `connectEstablished` makes a connection connected, and on a
sub-loop it waits in a queue while the wheel turns: what it finds decides. No other
step breaks the law, neither a tick nor the destruction of the server.
-/

open Transition

namespace Muduo

/-! ## Watched connections -/

namespace TimerWheel

variable {w next : TimerWheel} {conn other : ConnId} {context after : Context} {now : Int}

/-- Some bucket holds an entry of the connection. -/
def Watches (w : TimerWheel) (conn : ConnId) : Prop :=
  ∃ entry ∈ List.range w.made, w.owns entry = true ∧ (w.entries entry).conn = conn

instance (w : TimerWheel) (conn : ConnId) : Decidable (w.Watches conn) :=
  inferInstanceAs (Decidable (∃ _ ∈ _, _))

theorem Watches.of_owns (hwatches : w.Watches conn) (hmade : w.made ≤ next.made)
    (hconns : ∀ entry < w.made, (next.entries entry).conn = (w.entries entry).conn)
    (howns : ∀ entry, (w.entries entry).conn = conn → w.owns entry = true →
      next.owns entry = true) : next.Watches conn := by
  obtain ⟨entry, hmem, hentry, hconn⟩ := hwatches
  have hlt := List.mem_range.mp hmem
  refine ⟨entry, List.mem_range.mpr (hlt.trans_le hmade), howns entry hconn hentry, ?_⟩
  rw [hconns entry hlt]
  exact hconn

/-- The bucket that leaves the wheel holds its entries until it is destroyed. -/
theorem Watches.advance (hwatches : w.Watches conn) (hexpired : w.expired = [])
    (hmade : next.made = w.made) (hentries : next.entries = w.entries)
    (hwheel : ∀ bucket ∈ w.wheel, bucket = next.expired ∨ bucket ∈ next.wheel) :
    next.Watches conn := by
  refine hwatches.of_owns hmade.ge (fun _ _ => by rw [hentries]) fun entry _ howns => ?_
  rw [owns_iff, hexpired] at howns
  obtain ⟨bucket, hbucket, hentry⟩ := howns.resolve_left List.not_mem_nil
  rw [owns_iff]
  rcases hwheel bucket hbucket with rfl | hkept
  · exact Or.inl hentry
  · exact Or.inr ⟨bucket, hkept, hentry⟩

theorem Watches.onTimerTick (hwatches : w.Watches conn) (hexpired : w.expired = []) :
    w.onTimerTick.Watches conn := by
  refine hwatches.advance hexpired rfl rfl fun bucket hbucket => ?_
  unfold TimerWheel.onTimerTick
  cases hwheel : w.wheel with
  | nil =>
      rw [hwheel] at hbucket
      cases hbucket
  | cons front rest =>
      rw [hwheel] at hbucket
      exact (List.mem_cons.mp hbucket).imp_right (List.mem_append_left _)

theorem Watches.dropBucket (hwatches : w.Watches conn) (hexpired : w.expired = []) :
    w.dropBucket.Watches conn := by
  refine hwatches.advance hexpired rfl rfl fun bucket hbucket => ?_
  unfold TimerWheel.dropBucket
  cases hwheel : w.wheel with
  | nil =>
      rw [hwheel] at hbucket
      cases hbucket
  | cons front rest =>
      rw [hwheel] at hbucket
      exact List.mem_cons.mp hbucket

/-- A released entry matters to its own connection, and only if no bucket holds it. -/
theorem Watches.release {entry : EntryId} (hwatches : w.Watches conn)
    (hentry : (w.entries entry).conn = conn → (w.release entry).owns entry = true) :
    (w.release entry).Watches conn := by
  refine hwatches.of_owns le_rfl (fun _ _ => rfl) fun kept hconn howns => ?_
  by_cases hkept : kept = entry
  · subst kept
    exact hentry hconn
  · rw [owns_iff] at howns ⊢
    exact howns.imp_left (List.mem_erase_of_ne hkept).mpr

/-- The last bucket gains an entry. -/
theorem owns_inserted {entry new : EntryId} {bucket : Bucket}
    (hlast : w.wheel.getLast? = some bucket) (hexpired : next.expired = w.expired)
    (hwheel : next.wheel = w.wheel.dropLast ++ [bucket.insert new]) :
    next.owns entry = true ↔ w.owns entry = true ∨ entry = new := by
  have hheld (wheel : List Bucket) : (∃ bucket ∈ wheel, entry ∈ bucket) ↔
      ∃ deadline, Wheel.Due wheel 0 deadline entry := Wheel.held_iff_due
  rw [owns_iff, owns_iff, hexpired, hwheel, hheld, hheld, or_assoc]
  simp only [Wheel.due_insert hlast, exists_or, exists_and_left, exists_eq, and_true]

/-- `updateConnection` loses no entry. -/
theorem Watches.updateConnection (hwatches : w.Watches other)
    (hupdate : w.updateConnection conn now context = .ok (next, after)) :
    next.Watches other := by
  rcases updateConnection_cases hupdate with ⟨entry, -, -, rfl, -⟩ |
    ⟨entry, bucket, -, -, hlast, rfl, -⟩ | ⟨bucket, -, hlast, rfl, -⟩
  · exact hwatches
  · refine hwatches.of_owns le_rfl (fun kept _ => ?_) fun kept _ howns => ?_
    · by_cases hkept : kept = entry
      · subst kept
        simp only [Function.update_self]
      · exact congrArg Entry.conn (Function.update_of_ne hkept ..)
    · exact Iff.mpr (owns_inserted hlast rfl rfl) (Or.inl howns)
  · refine hwatches.of_owns (Nat.le_succ _) (fun kept hlt => ?_) fun kept _ howns => ?_
    · exact congrArg Entry.conn (Function.update_of_ne (Nat.ne_of_lt hlt) ..)
    · exact Iff.mpr (owns_inserted hlast rfl rfl) (Or.inl howns)

/-- Without an entry in its context, a connection gets a new one. -/
theorem updateConnection_watches
    (hupdate : w.updateConnection conn now context = .ok (next, after))
    (hlock : w.lock context = none) : next.Watches conn := by
  rcases updateConnection_cases hupdate with ⟨entry, hfound, -⟩ | ⟨entry, bucket, hfound, -⟩ |
    ⟨bucket, -, hlast, rfl, -⟩
  · rw [hlock] at hfound
    cases hfound
  · rw [hlock] at hfound
    cases hfound
  · refine ⟨w.made, List.mem_range.mpr (Nat.lt_succ_self _), ?_, ?_⟩
    · exact Iff.mpr (owns_inserted hlast rfl rfl) (Or.inr rfl)
    · simp only [Function.update_self]

end TimerWheel

namespace IoLoop

/-- The connection that the next functor of the batch establishes. -/
def establishes (loop : IoLoop) : Option ConnId :=
  match loop.functors with
  | .connectEstablished conn :: _ => some conn
  | _ => none

theorem establishes_eq_some {loop : IoLoop} {conn : ConnId} :
    loop.establishes = some conn ↔ ∃ rest, loop.functors = .connectEstablished conn :: rest := by
  unfold establishes
  split
  next other rest hfunctors => simp [hfunctors]
  next hother =>
    constructor
    · rintro ⟨⟩
    · rintro ⟨rest, hfunctors⟩
      exact absurd hfunctors (hother conn rest)

end IoLoop

namespace System

variable {s middle next : System} {conn : ConnId} {now : Int}

/-- Every connected connection has an entry in the wheel. -/
def Watched (s : System) : Prop :=
  ∀ conn, s.Alive conn → (s.conns conn).state = .kConnected → s.server.timerWheel.Watches conn

/-- Nothing comes to life, no entry is lost, and a connection gets connected only when
it has an entry. -/
structure Calm (s next : System) : Prop where
  alive : ∀ conn, next.Alive conn → s.Alive conn
  connected : ∀ conn, (next.conns conn).state = .kConnected →
    (s.conns conn).state = .kConnected ∨ s.server.timerWheel.Watches conn
  watches : ∀ conn, s.server.timerWheel.Watches conn → next.server.timerWheel.Watches conn
  idleTimeout : next.server.idleTimeout = s.server.idleTimeout

theorem Calm.refl (s : System) : Calm s s := ⟨fun _ => id, fun _ => Or.inl, fun _ => id, rfl⟩

theorem Calm.watched (hcalm : Calm s next) (hs : s.Watched) : next.Watched := by
  intro conn halive hconnected
  apply hcalm.watches
  rcases hcalm.connected conn hconnected with hbefore | hwatches
  · exact hs conn (hcalm.alive conn halive) hbefore
  · exact hwatches

/-! ### Pieces of steps -/

/-- Changes outside the server's map, the connections and the loops. -/
theorem Calm.of_same (hcalm : Calm s middle) (hserver : next.server = middle.server)
    (haccepted : next.accepted = middle.accepted) (hconns : next.conns = middle.conns)
    (hloops : next.loops = middle.loops)
    (hreferences : ∀ conn ∈ next.references, conn ∈ middle.references ∨ s.Alive conn)
    (hcalls : ∀ call ∈ next.calls, (∃ before ∈ middle.calls, before.conn = call.conn) ∨
      s.Alive call.conn) : Calm s next := by
  refine ⟨fun conn halive => ?_, ?_, ?_, ?_⟩
  · obtain ⟨hlt, hmapped | hreference | ⟨call, hcall, rfl⟩ | hheld⟩ := halive
    · apply hcalm.alive conn
      refine ⟨haccepted ▸ hlt, Or.inl ?_⟩
      unfold Mapped at hmapped ⊢
      rw [hserver, hconns] at hmapped
      exact hmapped
    · rcases hreferences conn hreference with hold | hnew
      · exact hcalm.alive conn ⟨haccepted ▸ hlt, Or.inr (Or.inl hold)⟩
      · exact hnew
    · rcases hcalls call hcall with hold | hnew
      · exact hcalm.alive _ ⟨haccepted ▸ hlt, Or.inr (Or.inr (Or.inl hold))⟩
      · exact hnew
    · apply hcalm.alive conn
      refine ⟨haccepted ▸ hlt, Or.inr (Or.inr (Or.inr ?_))⟩
      unfold loopIds at hheld ⊢
      rw [hserver, hloops] at hheld
      exact hheld
  · rw [hconns]
    exact hcalm.connected
  · rw [hserver]
    exact hcalm.watches
  · rw [hserver]
    exact hcalm.idleTimeout

theorem Calm.record (hcalm : Calm s middle) (loop : LoopId) (conn : ConnId)
    (milestone : Milestone) : Calm s (middle.record loop conn milestone) :=
  hcalm.of_same rfl rfl rfl rfl (fun _ => Or.inl) fun call hcall => Or.inl ⟨call, hcall, rfl⟩

/-- A loop takes a reference of nobody who was not alive. -/
theorem Calm.updateLoop (hcalm : Calm s middle) {loop : LoopId} {change : IoLoop → IoLoop}
    (hheld : ∀ conn ∈ (change (middle.loops loop)).held,
      conn ∈ (middle.loops loop).held ∨ s.Alive conn) :
    Calm s (middle.updateLoop loop change) := by
  refine ⟨fun conn halive => ?_, hcalm.connected, hcalm.watches, hcalm.idleTimeout⟩
  obtain ⟨hlt, hmapped | hreference | hcall | ⟨other, hloop, hmem⟩⟩ := halive
  · exact hcalm.alive conn ⟨hlt, Or.inl hmapped⟩
  · exact hcalm.alive conn ⟨hlt, Or.inr (Or.inl hreference)⟩
  · exact hcalm.alive conn ⟨hlt, Or.inr (Or.inr (Or.inl hcall))⟩
  · by_cases hother : other = loop
    · subst other
      rw [updateLoop_self] at hmem
      rcases hheld conn hmem with hold | hnew
      · exact hcalm.alive conn (.of_held hlt hloop hold)
      · exact hnew
    · rw [updateLoop_of_ne hother] at hmem
      exact hcalm.alive conn (.of_held hlt hloop hmem)

/-- A loop is left with fewer functors. -/
theorem Calm.unqueue (hcalm : Calm s middle) {loop : LoopId} {change : IoLoop → IoLoop}
    (hguard : (change (middle.loops loop)).guard = (middle.loops loop).guard)
    (hqueued : (change (middle.loops loop)).queued ⊆ (middle.loops loop).queued) :
    Calm s (middle.updateLoop loop change) := by
  have hheld := held_subset hguard hqueued
  exact hcalm.updateLoop fun _ hmem => Or.inl (hheld hmem)

/-- A loop is given functors that hold living connections. -/
theorem Calm.enqueue (hcalm : Calm s middle) {loop : LoopId} {change : IoLoop → IoLoop}
    {added : List Functor}
    (hguard : (change (middle.loops loop)).guard = (middle.loops loop).guard)
    (hqueued : (change (middle.loops loop)).queued = (middle.loops loop).queued ++ added)
    (hcaptured : ∀ conn, Captured added conn → s.Alive conn) :
    Calm s (middle.updateLoop loop change) := by
  refine hcalm.updateLoop fun held hmem => ?_
  rw [mem_held] at hmem ⊢
  rw [hguard, hqueued] at hmem
  rcases hmem with hlocked | ⟨functor, hfunctor, hholds⟩
  · exact Or.inl (Or.inl hlocked)
  · rcases List.mem_append.mp hfunctor with hold | hnew
    · exact Or.inl (Or.inr ⟨functor, hold, hholds⟩)
    · exact Or.inr (hcaptured held ⟨functor, hnew, hholds⟩)

/-- Functors hold nobody but the connections they are for. -/
theorem Captured.target {functors : List Functor} {held : ConnId}
    (htarget : ∀ functor ∈ functors, functor.target = conn)
    (hcaptured : Captured functors held) : held = conn := by
  obtain ⟨functor, hmem, hholds⟩ := hcaptured
  rw [← htarget functor hmem]
  cases functor with
  | shutdownInLoop => cases hholds
  | connectEstablished | connectDestroyed | sendInLoop | removeConnectionInLoop
  | writeCompleteCallback | highWaterMarkCallback => exact (Option.some.inj hholds).symm

theorem Calm.queueInLoop (hcalm : Calm s middle) (halive : s.Alive conn) (loop : LoopId)
    {functor : Functor} (htarget : functor.target = conn) :
    Calm s (middle.queueInLoop loop functor) := by
  refine hcalm.enqueue rfl (List.append_assoc _ _ _).symm fun held hcaptured => ?_
  have hheld : held = conn :=
    hcaptured.target fun added hadded => List.mem_singleton.mp hadded ▸ htarget
  exact hheld ▸ halive

/-- The connection keeps its name and gets connected only when it has an entry. -/
theorem Calm.updateConn (hcalm : Calm s middle) {change : TcpConnection → TcpConnection}
    (hname : (change (middle.conns conn)).name = (middle.conns conn).name)
    (hstate : (change (middle.conns conn)).state = .kConnected →
      (middle.conns conn).state = .kConnected ∨ s.server.timerWheel.Watches conn) :
    Calm s (middle.updateConn conn change) := by
  refine ⟨fun other halive => ?_, fun other hconnected => ?_, hcalm.watches,
    hcalm.idleTimeout⟩
  · exact hcalm.alive other ((alive_updateConn hname).mp halive)
  · by_cases hother : other = conn
    · subst other
      rw [updateConn_self] at hconnected
      exact (hstate hconnected).elim (hcalm.connected conn) Or.inr
    · rw [updateConn_of_ne hother] at hconnected
      exact hcalm.connected other hconnected

theorem Calm.absorb (hcalm : Calm s middle) {f : Frame}
    (hname : f.conn.name = (middle.conns conn).name)
    (hcaptured : ∀ held, Captured f.queued held → s.Alive held)
    (hstate : f.conn.state = .kConnected →
      (middle.conns conn).state = .kConnected ∨ s.server.timerWheel.Watches conn) :
    Calm s (middle.absorb conn f) := by
  have hconn : Calm s (middle.updateConn conn fun _ => f.conn) := hcalm.updateConn hname hstate
  exact hconn.enqueue rfl (List.append_assoc _ _ _).symm hcaptured

theorem Calm.unmap (hcalm : Calm s middle) (conn : ConnId) : Calm s (middle.unmap conn) :=
  ⟨fun other halive => hcalm.alive other (alive_unmap halive), hcalm.connected, hcalm.watches,
    hcalm.idleTimeout⟩

theorem Calm.withWheel (hcalm : Calm s middle) {timerWheel : TimerWheel}
    (hwatches : ∀ conn, middle.server.timerWheel.Watches conn → timerWheel.Watches conn) :
    Calm s (middle.withWheel timerWheel) :=
  ⟨hcalm.alive, hcalm.connected, fun conn hwatched => hwatches conn (hcalm.watches conn hwatched),
    hcalm.idleTimeout⟩

theorem Calm.refresh (hcalm : Calm s middle)
    (hrefresh : middle.refresh conn now = .ok next) : Calm s next := by
  rcases refresh_cases hrefresh with rfl | ⟨timerWheel, context, hupdate, rfl⟩
  · exact hcalm
  · have hwheel : Calm s (middle.withWheel timerWheel) :=
      hcalm.withWheel fun _ hwatches => hwatches.updateConnection hupdate
    exact hwheel.updateConn rfl Or.inl

theorem Calm.removeConnectionInLoop (hcalm : Calm s middle) (halive : s.Alive conn) :
    Calm s (middle.removeConnectionInLoop conn) :=
  ((hcalm.unmap conn).queueInLoop halive _ rfl).record _ _ _

theorem Calm.removeConnection (hcalm : Calm s middle) (halive : s.Alive conn) {loop : LoopId}
    (hremove : middle.removeConnection loop conn = .ok next) : Calm s next := by
  rcases removeConnection_cases hremove with ⟨-, rfl⟩ | ⟨-, rfl⟩
  · exact hcalm.removeConnectionInLoop halive
  · exact hcalm.queueInLoop halive _ rfl

theorem Calm.dispatch (hcalm : Calm s middle) (halive : s.Alive conn) {loop : LoopId}
    {event : IoEvent} (hdispatch : middle.dispatch loop conn now event = .ok next) :
    Calm s next := by
  rcases dispatch_cases hdispatch with ⟨-, hremove⟩ | ⟨-, hrefresh⟩ | rfl
  · exact hcalm.removeConnection halive hremove
  · exact hcalm.refresh hrefresh
  · exact hcalm

/-! ### Member functions -/

/-- A member function that queues only notifications holds its own connection. -/
theorem Calm.keeps (hcalm : Calm s middle) (halive : s.Alive conn) {f : Frame}
    (hkeeps : (middle.frame conn).Keeps conn f)
    (hstate : f.conn.state = .kConnected →
      (middle.conns conn).state = .kConnected ∨ s.server.timerWheel.Watches conn) :
    Calm s (middle.absorb conn f) := by
  refine hcalm.absorb hkeeps.name (fun held hcaptured => ?_) hstate
  have hheld : held = conn :=
    hcaptured.target fun functor hmem => (keeps_notifies hkeeps functor hmem).target
  exact hheld ▸ halive

theorem Calm.quiet (hcalm : Calm s middle) (halive : s.Alive conn) {f : Frame}
    (hquiet : (middle.frame conn).Quiet conn f) : Calm s (middle.absorb conn f) := by
  apply hcalm.keeps halive hquiet.keeps
  exact fun hconnected => Or.inl (hquiet.state.symm.trans hconnected)

theorem Calm.goesDown (hcalm : Calm s middle) (halive : s.Alive conn) {f : Frame}
    (hdown : (middle.frame conn).GoesDown conn f) : Calm s (middle.absorb conn f) := by
  apply hcalm.keeps halive hdown.keeps
  rw [hdown.state]
  exact nofun

/-- Whoever calls `shutdown`, the connection is not connected afterwards. -/
theorem shutdown_not_connected (s : System) (conn : ConnId) (inLoopThread : Bool) :
    ((s.shutdown conn inLoopThread).conns conn).state ≠ .kConnected := by
  unfold System.shutdown
  rw [absorb_self, TcpConnection.shutdown_state]
  split
  next => exact nofun
  next hother => exact hother

theorem Calm.shutdown (hcalm : Calm s middle) (halive : s.Alive conn) (inLoopThread : Bool) :
    Calm s (middle.shutdown conn inLoopThread) := by
  have hstate := shutdown_not_connected middle conn inLoopThread
  unfold System.shutdown at hstate ⊢
  rw [absorb_self] at hstate
  cases inLoopThread with
  | true =>
      apply hcalm.keeps halive (TcpConnection.shutdown_keeps _)
      exact fun hconnected => absurd hconnected hstate
  | false =>
      rcases TcpConnection.shutdown_queues conn (middle.frame conn) with
        ⟨-, hsame⟩ | ⟨-, hqueues⟩
      · rw [hsame]
        exact hcalm.quiet halive (.refl _)
      · rw [hqueues] at hstate ⊢
        refine hcalm.absorb rfl ?_ fun hconnected => absurd hconnected hstate
        -- `shutdownInLoop` is bound to a raw `this`
        rintro held ⟨functor, hmem, hholds⟩
        rw [List.mem_singleton.mp hmem] at hholds
        cases hholds

theorem Calm.connectEstablished (hcalm : Calm s middle) (halive : s.Alive conn)
    {loop : LoopId} (hwatches : s.server.timerWheel.Watches conn)
    (hestablish : middle.connectEstablished loop conn = .ok next) : Calm s next := by
  obtain ⟨f, hf, hestablish⟩ := Except.bind_eq_ok.mp hestablish
  obtain rfl := Except.ok.inj hestablish
  have hkeeps := TcpConnection.connectEstablished_keeps hf
  exact (hcalm.keeps halive hkeeps fun _ => Or.inr hwatches).record _ _ _

theorem Calm.connectDestroyed (hcalm : Calm s middle) (halive : s.Alive conn)
    {loop : LoopId} (hdestroy : middle.connectDestroyed loop conn = .ok next) : Calm s next := by
  obtain ⟨f, hf, hdestroy⟩ := Except.bind_eq_ok.mp hdestroy
  obtain rfl := Except.ok.inj hdestroy
  rcases TcpConnection.connectDestroyed_quiet hf with ⟨-, hdown⟩ | ⟨-, hquiet⟩
  · exact (hcalm.goesDown halive hdown).record _ _ _
  · exact (hcalm.quiet halive hquiet).record _ _ _

theorem callback_calm {loop : LoopId} {calls : TcpConnection.Syscalls}
    (hcallback : s.callback loop calls now = .ok next) : Calm s next := by
  obtain ⟨conn, callback, rest, f, -, halive, hf, hcallback⟩ := callback_ok hcallback
  have habsorb : Calm s (s.absorb conn f) := by
    rcases TcpConnection.onCallback_quiet hf with hquiet | hdown
    · exact (Calm.refl s).quiet halive hquiet
    · exact (Calm.refl s).goesDown halive hdown
  have hstart : Calm s (s.finishCallback loop conn callback rest f) :=
    (habsorb.record loop conn (.handled callback)).updateLoop fun _ => Or.inl
  exact run_invariant (fun _ _ _ hcalm hdispatch => hcalm.dispatch halive hdispatch) hstart
    hcallback

theorem fillActiveChannel_calm {loop : LoopId} {event : Int × EventMask}
    (hcalm : Calm s middle) (hfill : fillActiveChannel loop middle event = .ok next) :
    Calm s next := by
  obtain ⟨mask, conn, -, -, rfl⟩ := fillActiveChannel_ok hfill
  have hrevents : Calm s (middle.setRevents conn event.2) := hcalm.updateConn rfl Or.inl
  exact hrevents.updateLoop fun _ => Or.inl

theorem handleEvent_calm {loop : LoopId} (hhandle : s.handleEvent loop = .ok next) :
    Calm s next := by
  obtain ⟨conn, rest, -, halive, rfl⟩ := handleEvent_ok hhandle
  refine (Calm.refl s).updateLoop fun other hmem => ?_
  rw [mem_held] at hmem ⊢
  rcases hmem with hlocked | hcaptured
  · dsimp only at hlocked
    split at hlocked
    · exact Or.inr (Option.some.inj hlocked ▸ halive)
    · cases hlocked
  · exact Or.inl (Or.inr hcaptured)

/-! ## Steps -/

/-- `connectEstablished` runs while an entry of the connection still exists. -/
def Timely (s : System) : Action → Prop
  | .runFunctor loop _ => ∀ conn ∈ (s.loops loop).establishes, s.server.timerWheel.Watches conn
  | _ => True

instance (s : System) : (action : Action) → Decidable (s.Timely action) := by
  rintro ⟨⟩ <;> dsimp only [Timely] <;> infer_instance

theorem startFunctor_calm {loop : LoopId} {functor : Functor} {rest : List Functor}
    (hfunctors : (s.loops loop).functors = functor :: rest) :
    Calm s (s.updateLoop loop (IoLoop.startFunctor functor rest)) :=
  (Calm.refl s).unqueue rfl (pop_queued hfunctors)

/-- Every functor but `connectEstablished`, and that one when it runs in time. -/
theorem runFunctor_calm {loop : LoopId} {result : WriteResult}
    (htimely : s.Timely (.runFunctor loop result))
    (hrun : s.runFunctor loop result = .ok next) : Calm s next := by
  obtain ⟨functor, rest, hfunctors, halive, hexecute⟩ := runFunctor_ok hrun
  have hstart := startFunctor_calm hfunctors
  rcases execute_cases hexecute with ⟨conn, rfl, rfl⟩ | ⟨-, f, hf, hnext⟩
  · exact hstart.removeConnectionInLoop halive
  · have habsorb : Calm s
        ((s.updateLoop loop (IoLoop.startFunctor functor rest)).absorb functor.target f) := by
      rcases TcpConnection.onFunctor_quiet hf with ⟨conn, rfl, hquiet⟩ | ⟨-, -, hdown⟩ |
        ⟨-, -, hquiet⟩
      · have hkeeps := (Frame.setState_keeps .kConnected _).trans hquiet.keeps
        have hwatches := htimely conn (IoLoop.establishes_eq_some.mpr ⟨rest, hfunctors⟩)
        exact hstart.keeps halive hkeeps fun _ => Or.inr hwatches
      · exact hstart.goesDown halive hdown
      · exact hstart.quiet halive hquiet
    rcases hnext with rfl | ⟨milestone, rfl⟩
    · exact habsorb
    · exact habsorb.record _ _ _

/-- `connectEstablished` makes the connection connected, and no entry. The batch holds
the connection. -/
theorem connectEstablished_connects {loop : LoopId} (hconn : conn < s.accepted)
    (hloop : loop ∈ s.loopIds) (hmem : .connectEstablished conn ∈ (s.loops loop).queued)
    (hestablish : s.connectEstablished loop conn = .ok next) :
    next.Alive conn ∧ (next.conns conn).state = .kConnected ∧
      next.server.timerWheel = s.server.timerWheel := by
  obtain ⟨f, hf, hestablish⟩ := Except.bind_eq_ok.mp hestablish
  obtain rfl := Except.ok.inj hestablish
  have hkeeps := TcpConnection.connectEstablished_keeps hf
  have hgrows := (grows_absorb hkeeps.loop hkeeps.name).trans
    (grows_record loop conn .established (s.absorb conn f))
  refine ⟨?_, ?_, rfl⟩
  · refine Alive.of_held ?_ (hgrows.loopIds.symm ▸ hloop) (mem_held.mpr (Or.inr ?_))
    · exact hgrows.accepted.symm ▸ hconn
    · exact ⟨_, hgrows.mem_queued.mpr (Or.inl hmem), rfl⟩
  · change ((s.absorb conn f).conns conn).state = .kConnected
    rw [absorb_self]
    exact (TcpConnection.connectEstablished_quiet hf).state

/-- Run too late, it leaves a connection behind that nothing watches. -/
theorem runFunctor_not_watched {loop : LoopId} {result : WriteResult} (hruns : s.Runs loop)
    (hlate : ¬ s.Timely (.runFunctor loop result))
    (hrun : s.runFunctor loop result = .ok next) : ¬ next.Watched := by
  obtain ⟨conn, hconn⟩ := not_forall.mp hlate
  obtain ⟨hestablishes, hunwatched⟩ := Classical.not_imp.mp hconn
  obtain ⟨rest, hfunctors⟩ := IoLoop.establishes_eq_some.mp hestablishes
  simp only [runFunctor, hfunctors] at hrun
  obtain ⟨halive, hrun⟩ := Except.guard_eq_ok.mp hrun
  have hmem : .connectEstablished conn ∈ ((s.updateLoop loop
      (IoLoop.startFunctor (.connectEstablished conn) rest)).loops loop).queued := by
    rw [updateLoop_self]
    simp [IoLoop.queued, IoLoop.startFunctor]
  obtain ⟨hnext, hconnected, hwheel⟩ := connectEstablished_connects
    (s := s.updateLoop loop (IoLoop.startFunctor (.connectEstablished conn) rest))
    halive.1 hruns.1 hmem hrun
  intro hwatched
  have hwatches := hwatched conn hnext hconnected
  rw [hwheel] at hwatches
  exact hunwatched hwatches

/-! ### Accepted connections -/

theorem alive_refresh (hrefresh : s.refresh conn now = .ok next) {other : ConnId}
    (halive : s.Alive other) : next.Alive other := by
  rcases refresh_cases hrefresh with rfl | ⟨timerWheel, context, -, rfl⟩
  · exact halive
  · exact (alive_updateConn (s := s.withWheel timerWheel) rfl).mpr halive

/-- A connection without a context gets an entry. -/
theorem refresh_watches (htimeout : 0 < s.server.idleTimeout)
    (hcontext : (s.conns conn).context = .empty) (hrefresh : s.refresh conn now = .ok next) :
    next.server.timerWheel.Watches conn := by
  rw [refresh, if_pos htimeout] at hrefresh
  obtain ⟨⟨timerWheel, context⟩, hupdate, hrefresh⟩ := Except.bind_eq_ok.mp hrefresh
  obtain rfl := Except.ok.inj hrefresh
  rw [hcontext] at hupdate
  exact TimerWheel.updateConnection_watches hupdate rfl

section NewConnection

variable (sockfd : Int) (hasWriteCompleteCallback : Bool)

theorem construct_alive :
    (s.construct sockfd hasWriteCompleteCallback).Alive s.accepted := by
  refine ⟨Nat.lt_succ_self _, Or.inl ?_⟩
  unfold Mapped
  rw [construct_new]
  exact Function.update_self ..

/-- The new connection is not connected, and the law is about no other ones. -/
theorem construct_watched (hs : s.Watched) :
    (s.construct sockfd hasWriteCompleteCallback).Watched := by
  intro conn halive hconnected
  rcases Nat.lt_succ_iff_lt_or_eq.mp halive.1 with hold | rfl
  · rw [construct_conns _ _ hold] at hconnected
    exact hs conn (alive_construct _ _ hold halive) hconnected
  · rw [construct_new] at hconnected
    cases hconnected

end NewConnection

/-- A new connection is established at once, or later on another loop. -/
theorem newConnection_watched {sockfd : Int} {hasWriteCompleteCallback : Bool}
    (hs : s.Watched) (htimeout : 0 < s.server.idleTimeout)
    (hnew : s.newConnection sockfd hasWriteCompleteCallback now = .ok next) :
    next.Watched ∧ next.server.idleTimeout = s.server.idleTimeout := by
  obtain ⟨refreshed, hrefresh, hnew⟩ := Except.bind_eq_ok.mp hnew
  have hcontext : ((s.construct sockfd hasWriteCompleteCallback).conns s.accepted).context =
      .empty := by
    rw [construct_new]
    rfl
  have hwatches := refresh_watches (s := s.construct sockfd hasWriteCompleteCallback) htimeout
    hcontext hrefresh
  have hcalm := (Calm.refl _).refresh hrefresh
  have hrefreshed := hcalm.watched (construct_watched sockfd hasWriteCompleteCallback hs)
  have halive := alive_refresh hrefresh (construct_alive sockfd hasWriteCompleteCallback)
  have hnext : Calm refreshed next := by
    split at hnew
    next => exact (Calm.refl refreshed).connectEstablished halive hwatches hnew
    next =>
      obtain rfl := Except.ok.inj hnew
      exact (Calm.refl refreshed).queueInLoop halive _ rfl
  exact ⟨hnext.watched hrefreshed, hnext.idleTimeout.trans hcalm.idleTimeout⟩

/-! ### The death of an entry -/

/-- An entry that dies shuts its connection down. -/
theorem destroyEntry_watched (entry : EntryId) (hs : s.Watched) :
    ((s.withWheel (s.server.timerWheel.release entry)).destroyEntry
      (s.server.timerWheel.entries entry).conn).Watched := by
  have hkept (conn : ConnId) (hother : (s.server.timerWheel.entries entry).conn ≠ conn)
      (hwatches : s.server.timerWheel.Watches conn) :
      (s.server.timerWheel.release entry).Watches conn :=
    hwatches.release fun hconn => absurd hconn hother
  unfold destroyEntry
  split
  next halive =>
    have hcalm := (Calm.refl (s.withWheel (s.server.timerWheel.release entry))).shutdown halive
      (decide (s.own (s.server.timerWheel.entries entry).conn = baseLoop))
    intro conn hconn hconnected
    have hother : (s.server.timerWheel.entries entry).conn ≠ conn := by
      rintro rfl
      exact shutdown_not_connected _ _ _ hconnected
    rcases hcalm.connected conn hconnected with hbefore | hwatches
    · exact hcalm.watches conn (hkept conn hother (hs conn (hcalm.alive conn hconn) hbefore))
    · exact hcalm.watches conn hwatches
  next hdead =>
    intro conn hconn hconnected
    apply hkept conn _ (hs conn hconn hconnected)
    rintro rfl
    exact hdead hconn

theorem destroyEntry_idleTimeout (conn : ConnId) (s : System) :
    (s.destroyEntry conn).server.idleTimeout = s.server.idleTimeout := by
  unfold destroyEntry
  split <;> rfl

/-- The end of a call of `shutdown` holds nobody. -/
theorem queueShutdown_calm (call : ShutdownCall) :
    Calm s (if call.caller = .entry ∧ s.own call.conn = baseLoop then
        s.absorb call.conn (TcpConnection.shutdownInLoop (s.frame call.conn))
      else s.queueInLoop (s.own call.conn) (.shutdownInLoop call.conn)) := by
  split
  next =>
    have hquiet : (s.frame call.conn).Quiet call.conn
        (TcpConnection.shutdownInLoop (s.frame call.conn)) :=
      TcpConnection.shutdownInLoop_quiet _
    have hqueued : (TcpConnection.shutdownInLoop (s.frame call.conn)).queued = [] := by
      unfold TcpConnection.shutdownInLoop
      split <;> rfl
    refine (Calm.refl s).absorb hquiet.keeps.name (fun held hcaptured => ?_)
      fun hconnected => Or.inl (hquiet.state.symm.trans hconnected)
    rw [hqueued] at hcaptured
    exact absurd hcaptured not_captured_nil
  next =>
    refine (Calm.refl s).enqueue rfl (List.append_assoc _ _ _).symm ?_
    rintro held ⟨functor, hmem, hholds⟩
    rw [List.mem_singleton.mp hmem] at hholds
    cases hholds

/-! ### The law -/

/-- A connection is accepted, or an entry released. -/
def Action.stirs : Action → Bool
  | .newConnection .. | .destroyEntry _ | .testEntryShutdown _ => true
  | _ => false

/-- All other steps are calm when they are timely. -/
theorem step_calm {action : Action} (hcalm : action.stirs = false) (htimely : s.Timely action)
    (hstep : step s action = .ok next) : Calm s next := by
  have hrefl := Calm.refl s
  cases action with
  | newConnection | destroyEntry | testEntryShutdown => cases hcalm
  | poll loop events =>
      obtain ⟨-, hstep⟩ := Except.guard_eq_ok.mp hstep
      exact run_invariant (fun _ _ _ => fillActiveChannel_calm) hrefl hstep
  | handleEvent loop =>
      obtain ⟨-, hstep⟩ := Except.guard_eq_ok.mp hstep
      exact handleEvent_calm hstep
  | callback loop calls now =>
      obtain ⟨-, hstep⟩ := Except.guard_eq_ok.mp hstep
      exact callback_calm hstep
  | endHandling loop =>
      obtain ⟨conn, -, rfl⟩ := endHandling_ok hstep
      refine hrefl.updateLoop fun conn hmem => Or.inl ?_
      rw [mem_held] at hmem ⊢
      exact hmem.elim (by rintro ⟨⟩) Or.inr
  | swap loop =>
      obtain ⟨-, hstep⟩ := Except.guard_eq_ok.mp hstep
      obtain rfl := Except.ok.inj hstep
      exact hrefl.unqueue rfl (by simp [IoLoop.queued, IoLoop.swapFunctors])
  | runFunctor loop result =>
      obtain ⟨-, hstep⟩ := Except.guard_eq_ok.mp hstep
      exact runFunctor_calm htimely hstep
  | endFunctors loop =>
      obtain ⟨-, hstep⟩ := Except.guard_eq_ok.mp hstep
      obtain rfl := Except.ok.inj hstep
      exact hrefl.unqueue rfl (by simp [IoLoop.queued, IoLoop.destroyBatch])
  | onTimerTick =>
      obtain ⟨⟨hruns, -⟩, hstep⟩ := Except.guard_eq_ok.mp hstep
      split at hstep
      next => cases hstep
      next =>
        obtain rfl := Except.ok.inj hstep
        have hexpired : s.server.timerWheel.expired = [] := by
          by_contra hexpired
          exact hruns.2 rfl (Or.inr (Or.inr (Or.inl hexpired)))
        exact hrefl.withWheel fun _ hwatches => hwatches.onTimerTick hexpired
  | keep conn =>
      obtain ⟨halive, hstep⟩ := Except.guard_eq_ok.mp hstep
      obtain rfl := Except.ok.inj hstep
      refine hrefl.of_same rfl rfl rfl rfl (fun other hmem => ?_)
        fun call hcall => Or.inl ⟨call, hcall, rfl⟩
      rcases List.mem_append.mp hmem with hold | hnew
      · exact Or.inl hold
      · exact Or.inr (List.mem_singleton.mp hnew ▸ halive)
  | drop conn =>
      obtain ⟨-, hstep⟩ := Except.guard_eq_ok.mp hstep
      obtain rfl := Except.ok.inj hstep
      exact hrefl.of_same rfl rfl rfl rfl (fun _ hmem => Or.inl (List.mem_of_mem_erase hmem))
        fun call hcall => Or.inl ⟨call, hcall, rfl⟩
  | queueSend conn buf =>
      obtain ⟨⟨halive, -⟩, hstep⟩ := Except.guard_eq_ok.mp hstep
      obtain rfl := Except.ok.inj hstep
      exact hrefl.queueInLoop halive _ rfl
  | sendDirect conn buf result =>
      obtain ⟨⟨halive, -⟩, hstep⟩ := Except.guard_eq_ok.mp hstep
      obtain ⟨f, hf, hstep⟩ := Except.bind_eq_ok.mp hstep
      obtain rfl := Except.ok.inj hstep
      exact hrefl.quiet halive (TcpConnection.send_quiet hf)
  | shutdown conn =>
      obtain ⟨halive, hstep⟩ := Except.guard_eq_ok.mp hstep
      obtain rfl := Except.ok.inj hstep
      exact hrefl.shutdown halive false
  | shutdownDirect conn =>
      obtain ⟨⟨halive, -⟩, hstep⟩ := Except.guard_eq_ok.mp hstep
      obtain rfl := Except.ok.inj hstep
      exact hrefl.shutdown halive true
  | user conn op =>
      obtain ⟨-, hstep⟩ := Except.guard_eq_ok.mp hstep
      obtain rfl := Except.ok.inj hstep
      have hsame : (op.apply (s.conns conn)).name = (s.conns conn).name ∧
          (op.apply (s.conns conn)).state = (s.conns conn).state := by
        cases op <;> exact ⟨rfl, rfl⟩
      exact hrefl.updateConn hsame.1 fun hconnected => Or.inl (hsame.2.symm.trans hconnected)
  | testShutdown conn =>
      obtain ⟨⟨halive, -⟩, hstep⟩ := Except.guard_eq_ok.mp hstep
      obtain rfl := Except.ok.inj hstep
      refine hrefl.of_same rfl rfl rfl rfl (fun _ => Or.inl) fun call hcall => ?_
      rcases List.mem_append.mp hcall with hold | hnew
      · exact Or.inl ⟨call, hold, rfl⟩
      · exact Or.inr (List.mem_singleton.mp hnew ▸ halive)
  | storeShutdown call =>
      obtain ⟨⟨hcall, -⟩, hstep⟩ := Except.guard_eq_ok.mp hstep
      obtain rfl := Except.ok.inj hstep
      have hstored : Calm s (s.updateConn call.conn ({ · with state := .kDisconnecting })) :=
        hrefl.updateConn rfl (by rintro ⟨⟩)
      refine hstored.of_same rfl rfl rfl rfl (fun _ => Or.inl) fun other hother => ?_
      rcases List.mem_append.mp hother with hold | hnew
      · exact Or.inl ⟨other, List.mem_of_mem_erase hold, rfl⟩
      · exact Or.inl ⟨call, hcall, by rw [List.mem_singleton.mp hnew]⟩
  | queueShutdown call =>
      obtain ⟨-, hstep⟩ := Except.guard_eq_ok.mp hstep
      obtain rfl := Except.ok.inj hstep
      refine (queueShutdown_calm call).of_same rfl rfl rfl rfl (fun _ => Or.inl)
        fun other hother => Or.inl ⟨other, ?_, rfl⟩
      have hcalls := List.mem_of_mem_erase hother
      split <;> exact hcalls
  | destroyConnection conn =>
      obtain ⟨⟨-, hconn, hmapped⟩, hstep⟩ := Except.guard_eq_ok.mp hstep
      have halive : s.Alive conn := ⟨hconn, Or.inl hmapped⟩
      split at hstep
      next => exact (hrefl.unmap conn).connectDestroyed halive hstep
      next =>
        obtain rfl := Except.ok.inj hstep
        exact (hrefl.unmap conn).queueInLoop halive _ rfl
  | dropBucket =>
      obtain ⟨⟨-, hexpired, -⟩, hstep⟩ := Except.guard_eq_ok.mp hstep
      obtain rfl := Except.ok.inj hstep
      exact hrefl.withWheel fun _ hwatches => hwatches.dropBucket hexpired
  | destructor | wheelDestructor | endDestructor =>
      obtain ⟨-, hstep⟩ := Except.guard_eq_ok.mp hstep
      obtain rfl := Except.ok.inj hstep
      exact hrefl.of_same rfl rfl rfl rfl (fun _ => Or.inl)
        fun call hcall => Or.inl ⟨call, hcall, rfl⟩

/-- A timely step keeps the law. The destructor of an entry runs in one step. -/
theorem step_watched {action : Action} (hs : s.Watched) (htimeout : 0 < s.server.idleTimeout)
    (hwhole : ∀ entry, action ≠ .testEntryShutdown entry) (htimely : s.Timely action)
    (hstep : step s action = .ok next) :
    next.Watched ∧ next.server.idleTimeout = s.server.idleTimeout := by
  cases action with
  | newConnection sockfd hasWriteCompleteCallback now =>
      obtain ⟨-, hstep⟩ := Except.guard_eq_ok.mp hstep
      exact newConnection_watched hs htimeout hstep
  | destroyEntry entry =>
      obtain ⟨-, hstep⟩ := Except.guard_eq_ok.mp hstep
      split at hstep
      next howns =>
        obtain rfl := Except.ok.inj hstep
        have hcalm : Calm s (s.withWheel (s.server.timerWheel.release entry)) :=
          (Calm.refl s).withWheel fun _ hwatches => hwatches.release fun _ => howns
        exact ⟨hcalm.watched hs, rfl⟩
      next =>
        obtain rfl := Except.ok.inj hstep
        exact ⟨destroyEntry_watched entry hs, destroyEntry_idleTimeout _ _⟩
  | testEntryShutdown entry => exact absurd rfl (hwhole entry)
  | _ =>
      have hcalm := step_calm rfl htimely hstep
      exact ⟨hcalm.watched hs, hcalm.idleTimeout⟩

/-- With an idle timeout, a step keeps the law if and only if it is timely. -/
theorem step_watched_iff {action : Action} (hs : s.Watched) (htimeout : 0 < s.server.idleTimeout)
    (hwhole : ∀ entry, action ≠ .testEntryShutdown entry)
    (hstep : step s action = .ok next) : next.Watched ↔ s.Timely action := by
  constructor
  · intro hwatched
    by_contra hlate
    cases action with
    | runFunctor loop result =>
        obtain ⟨hruns, hrun⟩ := Except.guard_eq_ok.mp hstep
        exact runFunctor_not_watched hruns hlate hrun hwatched
    | _ => exact hlate trivial
  · exact fun htimely => (step_watched hs htimeout hwhole htimely hstep).1

/-- **Idle connections are watched** in every state of a run, if and only if every
`connectEstablished` runs while an entry of its connection exists. The destructor of
an entry is one step; the server may be destroyed. -/
theorem connected_watched_iff {listenAddr : InetAddress} {nameArg : String}
    {timeout numThreads : Nat} (htimeout : 0 < timeout) {schedule : List Action}
    (hwhole : ∀ entry, .testEntryShutdown entry ∉ schedule)
    (hrun : run step (initial listenAddr nameArg timeout numThreads) schedule = .ok s) :
    EveryState step Watched (initial listenAddr nameArg timeout numThreads) schedule ↔
      EveryStep step Timely (initial listenAddr nameArg timeout numThreads) schedule := by
  have hall : ∀ action ∈ schedule, ∀ entry, action ≠ .testEntryShutdown entry := by
    rintro action hmem entry rfl
    exact hwhole entry hmem
  have hinitial : (initial listenAddr nameArg timeout numThreads).Watched :=
    fun conn halive => absurd halive.1 (Nat.not_lt_zero conn)
  have hpreserved (state : System) (action : Action) (next : System)
      (hstate : state.Watched ∧ 0 < state.server.idleTimeout)
      (hallowed : ∀ entry, action ≠ .testEntryShutdown entry) (htimely : state.Timely action)
      (hstep : step state action = .ok next) :
      next.Watched ∧ 0 < next.server.idleTimeout := by
    obtain ⟨hwatched, hsame⟩ := step_watched hstate.1 hstate.2 hallowed htimely hstep
    exact ⟨hwatched, hsame ▸ hstate.2⟩
  apply everyState_iff_of_forall hpreserved _ hall ⟨hinitial, htimeout⟩ hinitial hrun
  intro state action next hstate hs hallowed hstep
  exact step_watched_iff hs hstate.2 hallowed hstep

/-- The connection is established within the second. -/
def establishInTime : List Action :=
  [.newConnection 5 false 0, .swap 1, .runFunctor 1 (.accepted 0), .endFunctors 1, .onTimerTick,
    .destroyEntry 0]

theorem connected_watched_iff_inTime : EveryState step Watched idleServer establishInTime := by
  have hends : ends (fun _ => true) (run step idleServer establishInTime) = true := by
    decide +kernel
  obtain ⟨s, hrun, -⟩ := exists_of_ends hends
  have htimely : EveryStep step Timely idleServer establishInTime := by decide +kernel
  have hwhole : ∀ entry, .testEntryShutdown entry ∉ establishInTime := by
    simp [establishInTime]
  exact (connected_watched_iff Nat.one_pos hwhole hrun).mpr htimely

/-- A tick comes first. The entry finds the connection not yet connected and dies. -/
def establishTooLate : List Action :=
  [.newConnection 5 false 0, .onTimerTick, .destroyEntry 0, .swap 1, .runFunctor 1 (.accepted 0)]

/-- There are connected connections without an entry. -/
theorem connected_watched_false :
    ¬ ∀ (listenAddr : InetAddress) (nameArg : String) (timeout numThreads : Nat)
      (schedule : List Action) (s : System), 0 < timeout →
      (∀ entry, .testEntryShutdown entry ∉ schedule) → .destructor ∉ schedule →
      run step (initial listenAddr nameArg timeout numThreads) schedule = .ok s →
      ∀ conn, s.Alive conn → (s.conns conn).state = .kConnected →
        s.server.timerWheel.Watches conn := by
  intro hclaim
  have hends : ends (fun s => decide (s.Alive 0 ∧ (s.conns 0).state = .kConnected ∧
      ¬ s.server.timerWheel.Watches 0)) (run step idleServer establishTooLate) = true := by
    decide +kernel
  obtain ⟨s, hrun, hcheck⟩ := exists_of_ends hends
  obtain ⟨halive, hconnected, hunwatched⟩ := of_decide_eq_true hcheck
  have hwhole : ∀ entry, .testEntryShutdown entry ∉ establishTooLate := by
    simp [establishTooLate]
  have hrunning : .destructor ∉ establishTooLate := by simp [establishTooLate]
  exact hunwatched (hclaim _ _ _ _ _ s Nat.one_pos hwhole hrunning hrun 0 halive hconnected)

end System

end Muduo
