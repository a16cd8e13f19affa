import Muduo.TcpConnection.Alike
import Muduo.TcpServer.Contract

/-! # One connection of a server

Seen from one of its connections a server is the system of that connection: the loop runs the
functors of the connection in the order in which they were queued, and handles its events. The
other connections, the wheel and the map of the server do not show.
-/

open Transition

namespace Muduo

open TcpConnection

/-- The functor runs a member function of the connection. -/
def Functor.ofConn (conn : ConnId) : Functor → Bool
  | .removeConnectionInLoop _ => false
  | functor => functor.target = conn

theorem Functor.Follows.ofConn_iff {functor : Functor} {conn other : ConnId}
    (hfollows : functor.Follows conn) : functor.ofConn other = true ↔ conn = other := by
  rcases hfollows with hnotifies | rfl
  · cases functor <;> simp_all [Functor.Notifies, Functor.ofConn, Functor.target]
  · exact decide_eq_true_iff

theorem filter_follows {functors : List Functor} {conn : ConnId}
    (hfollows : ∀ functor ∈ functors, functor.Follows conn) (other : ConnId) :
    functors.filter (Functor.ofConn other) = if conn = other then functors else [] := by
  split
  next hsame =>
    exact List.filter_eq_self.mpr fun functor hmem => (hfollows functor hmem).ofConn_iff.mpr hsame
  next hother =>
    refine List.filter_eq_nil_iff.mpr fun functor hmem hof => ?_
    exact hother ((hfollows functor hmem).ofConn_iff.mp hof)

variable {p q : EpollPoller ConnId} {c : Channel} {ptr conn : ConnId} {loop : LoopId}
  {t u : TcpConnection.System}

theorem EpollPoller.Tracks.agrees (hp : p.Tracks ptr c) (hq : q.Tracks ptr c) :
    p.Agrees c.fd q := by
  unfold Tracks Registered at hp hq
  cases hindex : c.index with
  | kNew | kDeleted | kAdded =>
      rw [hindex] at hp hq
      exact ⟨hq.1.trans hp.1.symm, hq.2.trans hp.2.symm⟩

namespace IoLoop

variable {ioLoop next : IoLoop}

/-- The callbacks left to invoke for the handled event of the connection. -/
def callbacks (ioLoop : IoLoop) (conn : ConnId) : List Callback :=
  match ioLoop.handling with
  | some (handled, callbacks) => if handled = conn then callbacks else []
  | none => []

/-- What the loop has to do for the connection. -/
structure Shows (ioLoop : IoLoop) (ptr : ConnId) (t : TcpConnection.System) : Prop where
  pending : t.pendingFunctors.map Task.functor =
    ioLoop.pendingFunctors.filter (Functor.ofConn ptr)
  functors : t.functors.map Task.functor = ioLoop.functors.filter (Functor.ofConn ptr)
  active : ioLoop.activeChannels.count ptr = if t.active then 1 else 0
  handlers : t.handlers = ioLoop.callbacks ptr

/-- Nothing changes that concerns the connection. -/
theorem Shows.of_same (hshows : ioLoop.Shows ptr t)
    (hpending : next.pendingFunctors.filter (Functor.ofConn ptr) =
      ioLoop.pendingFunctors.filter (Functor.ofConn ptr))
    (hfunctors : next.functors.filter (Functor.ofConn ptr) =
      ioLoop.functors.filter (Functor.ofConn ptr))
    (hactive : next.activeChannels.count ptr = ioLoop.activeChannels.count ptr)
    (hcallbacks : next.callbacks ptr = ioLoop.callbacks ptr) : next.Shows ptr t where
  pending := hshows.pending.trans hpending.symm
  functors := hshows.functors.trans hfunctors.symm
  active := hactive.trans hshows.active
  handlers := hshows.handlers.trans hcallbacks.symm

/-- The loop turns to no other event. -/
theorem callbacks_of_handling (hhandling : next.handling = ioLoop.handling) (conn : ConnId) :
    next.callbacks conn = ioLoop.callbacks conn := by
  rw [callbacks, hhandling, callbacks]

theorem callbacks_eq_nil (hnot : ¬ ioLoop.Watches conn) : ioLoop.callbacks conn = [] := by
  unfold callbacks
  split
  next handled callbacks hhandled =>
    refine if_neg fun hself => hnot (Or.inr ?_)
    rw [hhandled, Option.map_some, hself]
  next => rfl

theorem Shows.idle (hshows : ioLoop.Shows ptr t) (hnot : ¬ ioLoop.Watches ptr) : t.Idle := by
  constructor
  · have hcount := hshows.active
    rw [List.count_eq_zero.mpr fun hmem => hnot (Or.inl hmem)] at hcount
    by_contra hreported
    rw [if_pos (Bool.eq_true_of_not_eq_false hreported)] at hcount
    cases hcount
  · rw [hshows.handlers, callbacks_eq_nil hnot]

theorem Shows.batchless (hshows : ioLoop.Shows ptr t) (hfunctors : ioLoop.functors = []) :
    t.functors = [] := by
  have hmap := hshows.functors
  rw [hfunctors] at hmap
  exact List.map_eq_nil_iff.mp hmap

end IoLoop

namespace System

variable {s next : System}

/-- The system of the connection that the server looks like from there. Only the server uses the
context, and what the poller records of the connection follows from the channel. -/
structure Projects (s : System) (ptr : ConnId) (t : TcpConnection.System) : Prop where
  object : t.conn = (s.conns ptr).withContext t.conn.context
  shows : (s.loops (s.own ptr)).Shows ptr t

theorem Projects.channel (hs : s.Projects ptr t) : t.conn.channel = (s.conns ptr).channel := by
  rw [hs.object]
  rfl

/-- A member function finds the same in both. -/
theorem Projects.frame_alike (hs : s.Projects ptr t) (hsound : (s.frame ptr).Sound ptr)
    (ht : t.frame.Sound ptr) : (s.frame ptr).Alike t.frame := by
  have htracks := ht.tracks
  rw [TcpConnection.System.frame, hs.channel] at htracks
  have hframe : t.frame = ⟨(s.conns ptr).withContext t.conn.context, t.poller, [], []⟩ := by
    rw [← hs.object]
    rfl
  rw [hframe]
  exact ⟨_, _, EpollPoller.Tracks.agrees hsound.tracks htracks⟩

/-! ## Steps elsewhere -/

/-- The connection itself stays as it is, up to the context. -/
theorem Projects.of_shows (hs : s.Projects ptr t)
    (hobject : next.conns ptr = (s.conns ptr).withContext (next.conns ptr).context)
    (hconn : u.conn = t.conn) (hshows : (next.loops (s.own ptr)).Shows ptr u) :
    next.Projects ptr u := by
  have hown : next.own ptr = s.own ptr := by
    rw [own, hobject]
    rfl
  constructor
  · rw [hobject, hconn]
    exact hs.object
  · rw [hown]
    exact hshows

/-- What the connection records does not matter. -/
theorem Projects.of_fields (hs : s.Projects ptr t) (hconn : u.conn = t.conn)
    (hpending : u.pendingFunctors = t.pendingFunctors) (hfunctors : u.functors = t.functors)
    (hactive : u.active = t.active) (hhandlers : u.handlers = t.handlers) :
    s.Projects ptr u := by
  refine hs.of_shows rfl hconn ⟨?_, ?_, ?_, ?_⟩
  · rw [hpending, hs.shows.pending]
  · rw [hfunctors, hs.shows.functors]
  · rw [hactive, hs.shows.active]
  · rw [hhandlers, hs.shows.handlers]

/-- The loop of the connection goes on. -/
theorem Projects.updateLoop {change : IoLoop → IoLoop} (hs : s.Projects ptr t)
    (hshows : s.own ptr = loop → (change (s.loops loop)).Shows ptr t) :
    (s.updateLoop loop change).Projects ptr t := by
  refine hs.of_shows rfl rfl ?_
  by_cases hown : s.own ptr = loop
  · rw [hown, updateLoop_self]
    exact hshows hown
  · rw [updateLoop_of_ne hown]
    exact hs.shows

/-- The loops turn to no other event. -/
def SameEvents (s next : System) : Prop :=
  ∀ loop, (next.loops loop).activeChannels = (s.loops loop).activeChannels ∧
    (next.loops loop).handling = (s.loops loop).handling

theorem SameEvents.updateLoop {change : IoLoop → IoLoop}
    (hactive : (change (s.loops loop)).activeChannels = (s.loops loop).activeChannels)
    (hhandling : (change (s.loops loop)).handling = (s.loops loop).handling) :
    SameEvents s (s.updateLoop loop change) := fun other =>
  ⟨updateLoop_same IoLoop.activeChannels hactive other,
    updateLoop_same IoLoop.handling hhandling other⟩

/-- The queues grow by functors of other connections. -/
theorem Projects.grow (hs : s.Projects ptr t) {added : LoopId → List Functor}
    (hgrows : Grows s next added) (hevents : SameEvents s next)
    (hobject : next.conns ptr = (s.conns ptr).withContext (next.conns ptr).context)
    (hadded : (added (s.own ptr)).filter (Functor.ofConn ptr) = []) : next.Projects ptr t := by
  refine hs.of_shows hobject rfl (hs.shows.of_same ?_ ?_ ?_ ?_)
  · rw [hgrows.pending, List.filter_append, hadded, List.append_nil]
  · rw [hgrows.functors]
  · rw [(hevents _).1]
  · exact IoLoop.callbacks_of_handling (hevents _).2 ptr

theorem filter_only {functors : List Functor}
    (hfollows : ∀ functor ∈ functors, functor.Follows conn) (hother : conn ≠ ptr)
    (loop other : LoopId) :
    (only loop functors other).filter (Functor.ofConn ptr) = [] := by
  refine List.filter_eq_nil_iff.mpr fun functor hmem hof => ?_
  exact hother ((hfollows functor (mem_only.mp hmem).2).ofConn_iff.mp hof)

/-- A member function leaves the connection at its loop and queues functors that follow. -/
structure Leaves (s : System) (conn : ConnId) (f : Frame) : Prop where
  loop : f.conn.loop = s.own conn
  name : f.conn.name = (s.conns conn).name
  follows : ∀ functor ∈ f.queued, functor.Follows conn

theorem Leaves.of_keeps {f : Frame} (hkeeps : (s.frame conn).Keeps conn f) : s.Leaves conn f :=
  ⟨hkeeps.loop, hkeeps.name, fun functor hmem => Or.inl (keeps_notifies hkeeps functor hmem)⟩

theorem Leaves.of_performs {cause : Cause} {sent : List (List UInt8)} {f : Frame}
    (hperforms : Performs conn cause sent (s.frame conn) f) : s.Leaves conn f :=
  ⟨hperforms.keeps.loop, hperforms.keeps.name, performs_follows hperforms⟩

/-- A member function of another connection. -/
theorem Projects.absorb_of_ne (hs : s.Projects ptr t) (hother : conn ≠ ptr) {f : Frame}
    (hleaves : s.Leaves conn f) : (s.absorb conn f).Projects ptr t := by
  have hsame : (s.absorb conn f).conns ptr = s.conns ptr := System.absorb_of_ne hother.symm f s
  refine hs.grow (grows_absorb hleaves.loop hleaves.name) ?_ ?_
    (filter_only hleaves.follows hother _ _)
  · exact SameEvents.updateLoop (s := s.updateConn conn fun _ => f.conn) rfl rfl
  · rw [hsame]
    rfl

/-- Nothing but the server changes. -/
theorem Projects.of_same (hs : s.Projects ptr t) (hconns : next.conns = s.conns)
    (hloops : next.loops = s.loops) : next.Projects ptr t := by
  refine hs.of_shows ?_ rfl ?_
  · rw [hconns]
    rfl
  · rw [hloops]
    exact hs.shows

/-- The wheel is told of a connection. -/
theorem Projects.refresh (hs : s.Projects ptr t) {now : Int}
    (hrefresh : s.refresh conn now = .ok next) : next.Projects ptr t := by
  rcases refresh_cases hrefresh with rfl | ⟨timerWheel, context, -, rfl⟩
  · exact hs
  · refine Projects.of_shows (s := s.withWheel timerWheel) (hs.of_same rfl rfl) ?_ rfl ?_
    · by_cases hsame : ptr = conn
      · rw [hsame, updateConn_self]
        rfl
      · rw [updateConn_of_ne hsame]
        rfl
    · exact hs.shows

/-- A functor is queued that does not concern the connection. -/
theorem Projects.queueInLoop_of_ne (hs : s.Projects ptr t) {functor : Functor}
    (hother : functor.ofConn ptr = false) : (s.queueInLoop loop functor).Projects ptr t := by
  refine hs.updateLoop fun hown => ?_
  rw [← hown]
  refine hs.shows.of_same ?_ rfl rfl rfl
  rw [List.filter_append, List.filter_cons_of_neg (by simp [hother]), List.filter_nil,
    List.append_nil]

/-! ## Steps of the connection -/

theorem Projects.updateLoop_self {change : IoLoop → IoLoop} (hs : s.Projects ptr t)
    (hconn : u.conn = t.conn) (hshows : (change (s.loops (s.own ptr))).Shows ptr u) :
    (s.updateLoop (s.own ptr) change).Projects ptr u := by
  refine hs.of_shows rfl hconn ?_
  rw [System.updateLoop_self]
  exact hshows

theorem Projects.queueInLoop_self (hs : s.Projects ptr t) (functor : Functor)
    (sender : Option ThreadId) (hof : functor.ofConn ptr = true) :
    (s.queueInLoop (s.own ptr) functor).Projects ptr
      { t with pendingFunctors := t.pendingFunctors ++ [⟨functor, sender⟩] } := by
  refine hs.updateLoop_self rfl ⟨?_, hs.shows.functors, hs.shows.active, hs.shows.handlers⟩
  rw [List.map_append, hs.shows.pending, List.filter_append, List.filter_cons_of_pos hof]
  rfl

theorem Leaves.own {f : Frame} (hleaves : s.Leaves conn f) :
    (s.absorb conn f).own conn = s.own conn := by
  rw [System.own, absorb_self]
  exact hleaves.loop

theorem Projects.absorb (hs : s.Projects ptr t) {f g : Frame} (halike : f.Alike g)
    (hleaves : s.Leaves ptr f) : (s.absorb ptr f).Projects ptr (t.absorb g) := by
  have hown := hleaves.own
  obtain ⟨context, poller, hagrees⟩ := halike
  constructor
  · rw [absorb_self]
    rfl
  · rw [hown, System.absorb, System.updateLoop_self]
    refine ⟨?_, hs.shows.functors, hs.shows.active, hs.shows.handlers⟩
    have hqueued : f.queued.filter (Functor.ofConn ptr) = f.queued := by
      rw [filter_follows hleaves.follows ptr, if_pos rfl]
    have hmap : (f.queued.map fun functor => (⟨functor, none⟩ : Task)).map Task.functor =
        f.queued := by
      rw [List.map_map]
      exact List.map_id _
    simp only [TcpConnection.System.absorb, List.map_append, hmap, hs.shows.pending]
    rw [List.filter_append, hqueued]
    rfl

/-- User code sets something on the connection. -/
theorem Projects.updateConn {change : TcpConnection → TcpConnection} (hs : s.Projects ptr t)
    (hloop : (change (s.conns ptr)).loop = s.own ptr)
    (hcontext : change ((s.conns ptr).withContext t.conn.context) =
      (change (s.conns ptr)).withContext
        (change ((s.conns ptr).withContext t.conn.context)).context) :
    (s.updateConn ptr change).Projects ptr { t with conn := change t.conn } := by
  have hown : (s.updateConn ptr change).own ptr = s.own ptr := by
    rw [own, updateConn_self]
    exact hloop
  constructor
  · rw [updateConn_self]
    have hchanged := congrArg change hs.object
    exact hchanged.trans (hcontext.trans (by rw [← hs.object]))
  · rw [hown]
    exact ⟨hs.shows.pending, hs.shows.functors, hs.shows.active, hs.shows.handlers⟩

/-- The functor of the connection that comes first in the batch is taken out of it. -/
theorem Projects.startFunctor (hs : s.Projects ptr t) {functor : Functor} {rest : List Functor}
    (hfunctors : (s.loops (s.own ptr)).functors = functor :: rest)
    (hof : functor.ofConn ptr = true) : ∃ task tasks, t.functors = task :: tasks ∧
      task.functor = functor ∧
      (s.updateLoop (s.own ptr) (IoLoop.startFunctor functor rest)).Projects ptr
        { t with functors := tasks } := by
  have hshown := hs.shows.functors
  rw [hfunctors, List.filter_cons_of_pos hof] at hshown
  obtain ⟨task, tasks, htasks, hhead, htail⟩ := List.map_eq_cons_iff.mp hshown
  refine ⟨task, tasks, htasks, hhead, hs.updateLoop_self rfl ?_⟩
  exact ⟨hs.shows.pending, htail, hs.shows.active, hs.shows.handlers⟩

theorem Projects.startFunctor_of_ne (hs : s.Projects ptr t) {functor : Functor}
    {rest : List Functor} (hfunctors : (s.loops loop).functors = functor :: rest)
    (hother : functor.ofConn ptr = false) :
    (s.updateLoop loop (IoLoop.startFunctor functor rest)).Projects ptr t := by
  refine hs.updateLoop fun hown => ?_
  have hshows := hs.shows
  rw [hown] at hshows
  refine hshows.of_same rfl ?_ rfl rfl
  rw [hfunctors, List.filter_cons_of_neg (by simp [hother])]
  rfl

theorem Projects.swapFunctors (hs : s.Projects ptr t) :
    (s.updateLoop (s.own ptr) IoLoop.swapFunctors).Projects ptr
      { t with functors := t.pendingFunctors, pendingFunctors := [] } :=
  hs.updateLoop_self rfl ⟨rfl, hs.shows.pending, hs.shows.active, hs.shows.handlers⟩

/-- `poll` reports the connection. -/
theorem Projects.activate (hs : s.Projects ptr t) (hactive : t.active = false)
    (revents : EventMask) :
    ((s.setRevents ptr revents).updateLoop (s.own ptr) (IoLoop.activate ptr)).Projects ptr
      { t with
        conn := { t.conn with channel := { t.conn.channel with revents } }
        active := true } := by
  have hown : (s.setRevents ptr revents).own ptr = s.own ptr := by
    rw [own, setRevents, updateConn_self]
    rfl
  have hcount := hs.shows.active
  rw [hactive] at hcount
  constructor
  · rw [setRevents, System.updateLoop]
    dsimp only
    rw [updateConn_self, hs.object]
    rfl
  · rw [own_updateLoop, hown, System.updateLoop_self]
    refine ⟨hs.shows.pending, hs.shows.functors, ?_, hs.shows.handlers⟩
    rw [IoLoop.activate, List.count_append]
    exact congrArg (· + _) hcount |>.trans (by simp)

theorem Projects.activate_of_ne (hs : s.Projects ptr t) (hother : conn ≠ ptr)
    (revents : EventMask) :
    ((s.setRevents conn revents).updateLoop loop (IoLoop.activate conn)).Projects ptr t := by
  have hset : (s.setRevents conn revents).Projects ptr t := by
    refine hs.of_shows ?_ rfl hs.shows
    rw [setRevents, updateConn_of_ne hother.symm]
    rfl
  refine hset.updateLoop fun hown => ?_
  have hshows := hset.shows
  rw [hown] at hshows
  refine hshows.of_same rfl rfl ?_ rfl
  rw [IoLoop.activate, List.count_append, List.count_singleton]
  simp [hother]

theorem Projects.handleEvent (hs : s.Projects ptr t) {rest : List ConnId} {guard : Option ConnId}
    (hactive : (s.loops (s.own ptr)).activeChannels = ptr :: rest) :
    t.active = true ∧ (s.updateLoop (s.own ptr) fun ioLoop => { ioLoop with
      activeChannels := rest
      handling := some (ptr, (s.conns ptr).channel.handleEventWithGuard)
      guard := guard }).Projects ptr
      { t with active := false, handlers := t.conn.channel.handleEventWithGuard } := by
  have hcount := hs.shows.active
  rw [hactive, List.count_cons_self] at hcount
  have hreported : t.active = true := by
    by_contra hnot
    rw [if_neg hnot] at hcount
    omega
  rw [if_pos hreported] at hcount
  refine ⟨hreported, hs.updateLoop_self rfl ⟨hs.shows.pending, hs.shows.functors, ?_, ?_⟩⟩
  · exact Nat.succ.inj hcount
  · rw [hs.channel]
    exact (if_pos rfl).symm

theorem Projects.handleEvent_of_ne (hs : s.Projects ptr t) {rest : List ConnId}
    {callbacks : List Callback} {guard : Option ConnId} (hother : conn ≠ ptr)
    (hactive : (s.loops loop).activeChannels = conn :: rest)
    (hhandling : (s.loops loop).handling = none) :
    (s.updateLoop loop fun ioLoop => { ioLoop with
      activeChannels := rest
      handling := some (conn, callbacks)
      guard := guard }).Projects ptr t := by
  refine hs.updateLoop fun hown => ?_
  have hshows := hs.shows
  rw [hown] at hshows
  refine hshows.of_same rfl rfl ?_ ?_
  · rw [hactive, List.count_cons_of_ne hother]
  · rw [IoLoop.callbacks, IoLoop.callbacks, hhandling]
    exact if_neg hother

/-- The loop goes on to the rest of the callbacks. -/
theorem Projects.finishCallback (hs : s.Projects ptr t) {f g : Frame} (halike : f.Alike g)
    (hleaves : s.Leaves ptr f) (callback : Callback) (rest : List Callback) :
    (s.finishCallback (s.own ptr) ptr callback rest f).Projects ptr
      { t.absorb g with handlers := rest } := by
  have habsorb := hs.absorb halike hleaves
  unfold System.finishCallback
  rw [← hleaves.own]
  have hrecord : ((s.absorb ptr f).record ((s.absorb ptr f).own ptr) ptr
      (.handled callback)).Projects ptr (t.absorb g) := habsorb.of_same rfl rfl
  refine hrecord.updateLoop_self rfl ⟨hrecord.shows.pending, hrecord.shows.functors,
    hrecord.shows.active, ?_⟩
  exact (if_pos rfl).symm

theorem Projects.finishCallback_of_ne (hs : s.Projects ptr t) (hother : conn ≠ ptr) {f : Frame}
    (hleaves : s.Leaves conn f) {callback : Callback} {rest callbacks : List Callback}
    (hhandling : (s.loops loop).handling = some (conn, callbacks)) :
    (s.finishCallback loop conn callback rest f).Projects ptr t := by
  have habsorb := hs.absorb_of_ne hother hleaves
  have hrecord : ((s.absorb conn f).record loop conn (.handled callback)).Projects ptr t :=
    habsorb.of_same rfl rfl
  refine hrecord.updateLoop fun hown => ?_
  have hshows := hrecord.shows
  rw [hown] at hshows
  have hbefore : (((s.absorb conn f).record loop conn (.handled callback)).loops loop).handling =
      some (conn, callbacks) := (handling_absorb conn f s loop).trans hhandling
  refine hshows.of_same rfl rfl rfl ?_
  rw [IoLoop.callbacks, IoLoop.callbacks, hbefore]
  exact (if_neg hother).trans (if_neg hother).symm

/-- The handled event has no callbacks left. -/
theorem Projects.endHandling (hs : s.Projects ptr t)
    (hhandling : (s.loops loop).handling = some (conn, [])) :
    (s.updateLoop loop ({ · with handling := none, guard := none })).Projects ptr t := by
  refine hs.updateLoop fun hown => ?_
  have hshows := hs.shows
  rw [hown] at hshows
  refine hshows.of_same rfl rfl rfl ?_
  rw [IoLoop.callbacks, IoLoop.callbacks, hhandling]
  exact (ite_self _).symm

end System

end Muduo
