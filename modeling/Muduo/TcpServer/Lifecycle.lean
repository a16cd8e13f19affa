import Muduo.TcpServer.Rounds

/-! # The lifecycle of the connections

Seen from one connection, every step of a running server is some moves of its
stage, so the law of the stage holds in every state reached.
-/

open Transition

namespace Muduo

namespace System

variable {s next : System} {conn other : ConnId}

def stage (s : System) (conn : ConnId) : Stage where
  state := (s.conns conn).state
  index := (s.conns conn).channel.index
  mapped := decide (s.Mapped conn)
  watched := decide ((s.loops (s.own conn)).Watches conn)
  toEstablish := (s.loops (s.own conn)).tasks.count (.connectEstablished conn)
  toRemove := (s.loops baseLoop).tasks.count (.removeConnectionInLoop conn)
  toDestroy := (s.loops (s.own conn)).tasks.count (.connectDestroyed conn)
  established := s.log.count ⟨s.own conn, conn, .established⟩
  removed := s.log.count ⟨baseLoop, conn, .removed⟩
  destroyed := s.log.count ⟨s.own conn, conn, .destroyed⟩

/-! ## Pieces of steps and the stage -/

/-- What growing queues and a growing log do to the stage of any connection. -/
theorem Grows.stage {added : LoopId → List Functor} (hgrows : Grows s next added)
    {records : List Record} (hlog : next.log = s.log ++ records) (conn : ConnId) :
    next.stage conn = {
      state := (next.conns conn).state
      index := (next.conns conn).channel.index
      mapped := (s.stage conn).mapped
      watched := decide ((next.loops (s.own conn)).Watches conn)
      toEstablish := (s.stage conn).toEstablish +
        (added (s.own conn)).count (.connectEstablished conn)
      toRemove := (s.stage conn).toRemove +
        (added baseLoop).count (.removeConnectionInLoop conn)
      toDestroy := (s.stage conn).toDestroy +
        (added (s.own conn)).count (.connectDestroyed conn)
      established := (s.stage conn).established +
        records.count ⟨s.own conn, conn, .established⟩
      removed := (s.stage conn).removed + records.count ⟨baseLoop, conn, .removed⟩
      destroyed := (s.stage conn).destroyed +
        records.count ⟨s.own conn, conn, .destroyed⟩ } := by
  simp only [System.stage, hgrows.own, hgrows.tasks, hgrows.mapped, hlog, List.count_append]

theorem stage_congr (hown : next.own conn = s.own conn)
    (hstate : (next.conns conn).state = (s.conns conn).state)
    (hindex : (next.conns conn).channel.index = (s.conns conn).channel.index)
    (hmapped : next.Mapped conn ↔ s.Mapped conn)
    (hwatches : (next.loops (s.own conn)).Watches conn ↔ (s.loops (s.own conn)).Watches conn)
    (htasks : ∀ loop, (next.loops loop).tasks = (s.loops loop).tasks)
    (hlog : next.log = s.log) : next.stage conn = s.stage conn := by
  simp only [stage, hown, hstate, hindex, hmapped, hwatches, htasks, hlog]

/-- The functors a member function queues do not belong to the life of a connection. -/
theorem count_follows {functors : List Functor}
    (hfollows : ∀ functor ∈ functors, functor.Follows conn) (loop place : LoopId)
    (other : ConnId) :
    (only loop functors place).count (.connectEstablished other) = 0 ∧
      (only loop functors place).count (.removeConnectionInLoop other) = 0 ∧
      (only loop functors place).count (.connectDestroyed other) = 0 := by
  refine ⟨?_, ?_, ?_⟩
  all_goals
    refine List.count_eq_zero.mpr fun hmem => ?_
    have hfunctor := hfollows _ (mem_only.mp hmem).2
    simp [Functor.Follows, Functor.Notifies] at hfunctor

theorem count_only (loop place : LoopId) (functor other : Functor) :
    (only loop [functor] place).count other =
      if place = loop ∧ functor = other then 1 else 0 := by
  by_cases hplace : place = loop
  · subst place
    simp [only, List.count_singleton, beq_iff_eq]
  · simp [only, hplace]

theorem watches_queueInLoop (loop : LoopId) (functor : Functor) (s : System) (place : LoopId)
    (conn : ConnId) :
    ((s.queueInLoop loop functor).loops place).Watches conn ↔ (s.loops place).Watches conn :=
  watches_updateLoop rfl rfl place conn

theorem watches_absorb (conn : ConnId) (f : Frame) (s : System) (place : LoopId)
    (other : ConnId) :
    ((s.absorb conn f).loops place).Watches other ↔ (s.loops place).Watches other :=
  watches_updateLoop (s := s.updateConn conn fun _ => f.conn) rfl rfl place other

/-- A member function changes the state and the index of its own connection only. -/
theorem stage_absorb {f : Frame} (hloop : f.conn.loop = s.own conn)
    (hname : f.conn.name = (s.conns conn).name)
    (hfollows : ∀ functor ∈ f.queued, functor.Follows conn) (other : ConnId) :
    (s.absorb conn f).stage other =
      if other = conn then
        { s.stage conn with state := f.conn.state, index := f.conn.channel.index }
      else s.stage other := by
  have hgrows := grows_absorb hloop hname
  have hlog : (s.absorb conn f).log = s.log ++ [] := (List.append_nil _).symm
  rw [hgrows.stage hlog other]
  simp only [count_follows hfollows, watches_absorb, List.count_nil, Nat.add_zero]
  split
  next hother =>
    subst other
    simp [stage]
  next hother => simp [stage, hother]

theorem stage_unmap (conn other : ConnId) :
    (s.unmap conn).stage other =
      { s.stage other with mapped := decide ((s.unmap conn).Mapped other) } := rfl

/-- A removal unmaps the connection and queues its destruction. -/
theorem stage_removeConnectionInLoop (hs : s.Wellformed) (hconn : conn < s.accepted)
    (hother : other < s.accepted) :
    (s.removeConnectionInLoop conn).stage other =
      if other = conn then
        { s.stage conn with
          mapped := false
          removed := (s.stage conn).removed + 1
          toDestroy := (s.stage conn).toDestroy + 1 }
      else s.stage other := by
  have hgrows : Grows (s.unmap conn) (s.removeConnectionInLoop conn) _ :=
    (grows_queueInLoop (s.own conn) (.connectDestroyed conn) (s.unmap conn)).trans
      (grows_record baseLoop conn .removed _)
  have hwatches : ((s.removeConnectionInLoop conn).loops (s.own other)).Watches other ↔
      (s.loops (s.own other)).Watches other :=
    watches_queueInLoop (s.own conn) (.connectDestroyed conn) (s.unmap conn) _ _
  have hlog : (s.removeConnectionInLoop conn).log =
      (s.unmap conn).log ++ [⟨baseLoop, conn, .removed⟩] := rfl
  rw [hgrows.stage hlog other, stage_unmap]
  have hown : (s.unmap conn).own other = s.own other := rfl
  have hconns : (s.removeConnectionInLoop conn).conns = s.conns := rfl
  have hmapped := hs.unmap_mapped hconn hother
  split
  next hsame =>
    subst other
    simp only [hown, List.append_nil, count_only, hwatches, hmapped, List.count_singleton]
    simp [stage, hconns]
  next hdifferent =>
    simp only [hown, List.append_nil, count_only, hwatches, hmapped, List.count_singleton]
    simp [stage, hconns, hdifferent, Ne.symm hdifferent]

/-- The functor that starts no longer waits. -/
theorem stage_startFunctor {loop : LoopId} {functor : Functor} {rest : List Functor}
    (hfunctors : (s.loops loop).functors = functor :: rest) (hhome : loop = s.home functor)
    (conn : ConnId) :
    (s.updateLoop loop (IoLoop.startFunctor functor rest)).stage conn =
      { s.stage conn with
        toEstablish := (s.stage conn).toEstablish -
          if functor = .connectEstablished conn then 1 else 0
        toRemove := (s.stage conn).toRemove -
          if functor = .removeConnectionInLoop conn then 1 else 0
        toDestroy := (s.stage conn).toDestroy -
          if functor = .connectDestroyed conn then 1 else 0 } := by
  have hcount (waiting : Functor) :
      ((s.updateLoop loop (IoLoop.startFunctor functor rest)).loops
          (s.home waiting)).tasks.count waiting =
        (s.loops (s.home waiting)).tasks.count waiting - if functor = waiting then 1 else 0 := by
    by_cases hplace : s.home waiting = loop
    · rw [hplace, updateLoop_self, IoLoop.startFunctor, IoLoop.tasks, IoLoop.tasks, hfunctors,
        List.cons_append, List.count_cons]
      simp
    · have hother : functor ≠ waiting := by
        rintro rfl
        exact hplace hhome.symm
      rw [updateLoop_of_ne hplace, if_neg hother, Nat.sub_zero]
  have hwatches : ((s.updateLoop loop (IoLoop.startFunctor functor rest)).loops
      (s.own conn)).Watches conn ↔ (s.loops (s.own conn)).Watches conn :=
    watches_updateLoop rfl rfl _ _
  have hestablish := hcount (.connectEstablished conn)
  have hremove := hcount (.removeConnectionInLoop conn)
  have hdestroy := hcount (.connectDestroyed conn)
  simp only [home, Functor.target] at hestablish hremove hdestroy
  simp only [stage, own_updateLoop, hwatches, hestablish, hremove, hdestroy]
  rfl

theorem stage_record (loop : LoopId) (conn : ConnId) (milestone : Milestone) (s : System)
    (other : ConnId) :
    (s.record loop conn milestone).stage other =
      { s.stage other with
        established := (s.stage other).established +
          [Record.mk loop conn milestone].count ⟨s.own other, other, .established⟩
        removed := (s.stage other).removed +
          [Record.mk loop conn milestone].count ⟨baseLoop, other, .removed⟩
        destroyed := (s.stage other).destroyed +
          [Record.mk loop conn milestone].count ⟨s.own other, other, .destroyed⟩ } := by
  simp only [stage, record, List.count_append]
  rfl

/-! ## The log -/

/-- What the log records happened at the right loops, and handlers ran between the
establishment and the destruction. -/
structure Chronicle (s : System) : Prop where
  accepted : ∀ entry ∈ s.log, entry.conn < s.accepted
  placed : ∀ entry ∈ s.log,
    entry.loop = if entry.milestone = .removed then baseLoop else s.own entry.conn
  ordered : ∀ before after loop conn callback,
    s.log = before ++ ⟨loop, conn, .handled callback⟩ :: after →
      ⟨loop, conn, .established⟩ ∈ before ∧ ⟨loop, conn, .destroyed⟩ ∉ before

theorem Chronicle.of_same (hs : s.Chronicle) (hlog : next.log = s.log)
    (haccepted : s.accepted ≤ next.accepted)
    (hown : ∀ conn < s.accepted, next.own conn = s.own conn) : next.Chronicle := by
  refine ⟨?_, ?_, ?_⟩ <;> rw [hlog]
  · exact fun entry hmem => lt_of_lt_of_le (hs.accepted entry hmem) haccepted
  · intro entry hmem
    rw [hown _ (hs.accepted entry hmem)]
    exact hs.placed entry hmem
  · exact hs.ordered

/-- One more entry, with its place in the order. -/
theorem Chronicle.append (hs : s.Chronicle) {entry : Record} (hlog : next.log = s.log ++ [entry])
    (haccepted : next.accepted = s.accepted) (hown : ∀ conn, next.own conn = s.own conn)
    (hconn : entry.conn < s.accepted)
    (hloop : entry.loop = if entry.milestone = .removed then baseLoop else s.own entry.conn)
    (hhandled : ∀ callback, entry.milestone = .handled callback →
      ⟨entry.loop, entry.conn, .established⟩ ∈ s.log ∧
        ⟨entry.loop, entry.conn, .destroyed⟩ ∉ s.log) : next.Chronicle := by
  refine ⟨?_, ?_, ?_⟩ <;> rw [hlog]
  · intro other hmem
    rw [haccepted]
    rcases List.mem_append.mp hmem with hold | hnew
    · exact hs.accepted other hold
    · exact List.mem_singleton.mp hnew ▸ hconn
  · intro other hmem
    rw [hown]
    rcases List.mem_append.mp hmem with hold | hnew
    · exact hs.placed other hold
    · exact List.mem_singleton.mp hnew ▸ hloop
  · intro before after loop conn callback hsplit
    -- the handler is the new entry, or its place is in the old log
    rcases List.eq_nil_or_concat after with rfl | ⟨front, last, rfl⟩
    · obtain ⟨rfl, hentry⟩ := List.append_inj' hsplit rfl
      obtain rfl := List.singleton_inj.mp hentry
      exact hhandled callback rfl
    · rw [List.concat_eq_append, ← List.cons_append, ← List.append_assoc] at hsplit
      obtain ⟨hbefore, -⟩ := List.append_inj' hsplit rfl
      exact hs.ordered before front loop conn callback hbefore

/-! ## The records -/

/-- Everything that is known of a running server besides the stages. -/
structure Records (s : System) : Prop where
  running : s.lifetime = .running
  calls : s.calls = []
  registry : s.Registry
  rounds : s.Rounds
  chronicle : s.Chronicle

theorem initial_records (listenAddr : InetAddress) (nameArg : String) (timeout numThreads : Nat) :
    (initial listenAddr nameArg timeout numThreads).Records where
  running := rfl
  calls := rfl
  registry := initial_registry listenAddr nameArg timeout numThreads
  rounds := initial_rounds listenAddr nameArg timeout numThreads
  chronicle := by
    refine ⟨nofun, nofun, fun before after loop conn callback hsplit => ?_⟩
    simp [initial] at hsplit

/-- The wheel and the references of user code change. -/
theorem Records.of_same (hs : s.Records) (hrunning : next.lifetime = s.lifetime)
    (hcalls : next.calls = s.calls)
    (hserver : next.server = { s.server with timerWheel := next.server.timerWheel })
    (haccepted : next.accepted = s.accepted) (hconns : next.conns = s.conns)
    (hloops : next.loops = s.loops) (hlog : next.log = s.log)
    (hreferences : ∀ conn ∈ next.references, conn ∈ s.references ∨ s.Alive conn) :
    next.Records := by
  have hgrows : Grows s next fun _ => [] :=
    .of_same hserver haccepted (fun _ => by rw [own, hconns, own]) (fun _ => by rw [hconns]) hloops
  refine ⟨hrunning.trans hs.running, hcalls.trans hs.calls,
    hs.registry.of_same hconns haccepted (fun loop => by rw [hloops]) fun conn halive => ?_,
    hs.rounds.of_same haccepted hconns hloops,
    hs.chronicle.of_same hlog (le_of_eq haccepted.symm) fun conn _ => hgrows.own conn⟩
  exact hgrows.alive (fun _ _ => not_captured_nil.elim)
    (fun _ _ hguard => Or.inl (hloops ▸ hguard)) hreferences
    (by rw [hcalls]; exact List.Subset.refl _) halive

/-- Settings of a connection change. -/
theorem Records.updateConn (hs : s.Records) {change : TcpConnection → TcpConnection}
    (hloop : (change (s.conns conn)).loop = (s.conns conn).loop)
    (hname : (change (s.conns conn)).name = (s.conns conn).name)
    (hfd : (change (s.conns conn)).channel.fd = (s.conns conn).channel.fd)
    (hindex : (change (s.conns conn)).channel.index = (s.conns conn).channel.index)
    (hstate : (change (s.conns conn)).state = (s.conns conn).state)
    (hbacklog : (change (s.conns conn)).backlog = (s.conns conn).backlog)
    (hsound : (s.frame conn).Sound conn →
      Frame.Sound conn { s.frame conn with conn := change (s.conns conn) }) :
    (s.updateConn conn change).Records ∧
      ∀ other, (s.updateConn conn change).stage other = s.stage other := by
  have hgrows : Grows s (s.updateConn conn change) fun _ => [] := grows_updateConn hloop hname
  have hconns (other : ConnId) :
      ((s.updateConn conn change).conns other).state = (s.conns other).state ∧
        ((s.updateConn conn change).conns other).channel.index = (s.conns other).channel.index ∧
        ((s.updateConn conn change).conns other).backlog = (s.conns other).backlog := by
    by_cases hother : other = conn
    · subst other
      rw [updateConn_self]
      exact ⟨hstate, hindex, hbacklog⟩
    · rw [updateConn_of_ne hother]
      exact ⟨rfl, rfl, rfl⟩
  refine ⟨⟨hs.running, hs.calls, hs.registry.updateConn hloop hname hfd hindex hsound,
    hs.rounds.grow hgrows (fun _ _ => id) nofun fun other hconnecting => ?_,
    hs.chronicle.of_same rfl le_rfl fun other _ => hgrows.own other⟩, fun other => ?_⟩
  · rw [(hconns other).1] at hconnecting
    exact ⟨hconnecting, (hconns other).2.2⟩
  · exact stage_congr (hgrows.own other) (hconns other).1 (hconns other).2.1
      (hgrows.mapped other) Iff.rfl (fun _ => rfl) rfl

/-- Batches are swapped, run and destroyed. -/
theorem Records.batch (hs : s.Records) {loop : LoopId} {change : IoLoop → IoLoop}
    (hqueued : (change (s.loops loop)).queued ⊆ (s.loops loop).queued)
    (htasks : (change (s.loops loop)).tasks ⊆ (s.loops loop).tasks)
    (hactive : (change (s.loops loop)).activeChannels = (s.loops loop).activeChannels)
    (hhandling : (change (s.loops loop)).handling = (s.loops loop).handling)
    (hguard : (change (s.loops loop)).guard = (s.loops loop).guard)
    (hpoller : (change (s.loops loop)).poller = (s.loops loop).poller)
    (hbatch : ∀ conn, (s.loops loop).Watches conn → (change (s.loops loop)).Batchless) :
    (s.updateLoop loop change).Records := by
  exact ⟨hs.running, hs.calls, hs.registry.of_same rfl rfl (updateLoop_same IoLoop.poller hpoller)
      fun conn => alive_updateLoop (held_subset hguard hqueued),
    hs.rounds.batch hqueued htasks hactive hhandling hbatch,
    hs.chronicle.of_same rfl le_rfl fun _ _ => rfl⟩

/-- The stages do not tell a queue from a batch. -/
theorem stage_batch {loop : LoopId} {change : IoLoop → IoLoop}
    (htasks : (change (s.loops loop)).tasks = (s.loops loop).tasks)
    (hactive : (change (s.loops loop)).activeChannels = (s.loops loop).activeChannels)
    (hhandling : (change (s.loops loop)).handling = (s.loops loop).handling) (conn : ConnId) :
    (s.updateLoop loop change).stage conn = s.stage conn :=
  stage_congr rfl rfl rfl Iff.rfl (watches_updateLoop hactive hhandling _ _)
    (updateLoop_same IoLoop.tasks htasks) rfl

/-- Events come and go while no batch is run. -/
theorem Records.events (hs : s.Records) {loop : LoopId} {change : IoLoop → IoLoop}
    (hexecuted : (change (s.loops loop)).executed = (s.loops loop).executed)
    (hfunctors : (change (s.loops loop)).functors = (s.loops loop).functors)
    (hpending : (change (s.loops loop)).pendingFunctors = (s.loops loop).pendingFunctors)
    (hpoller : (change (s.loops loop)).poller = (s.loops loop).poller)
    (hguard : ∀ conn, (change (s.loops loop)).guard = some conn →
      (s.loops loop).guard = some conn ∨ s.Alive conn)
    (hwatched : ∀ conn, (change (s.loops loop)).Watches conn →
      (s.loops loop).Watches conn ∨
        (s.loops loop).Batchless ∧ conn < s.accepted ∧ s.own conn = loop) :
    (s.updateLoop loop change).Records := by
  have hgrows : Grows s (s.updateLoop loop change) (only loop []) :=
    grows_updateLoop hexecuted hfunctors (hpending.trans (List.append_nil _).symm)
  refine ⟨hs.running, hs.calls, hs.registry.of_same rfl rfl
      (updateLoop_same IoLoop.poller hpoller) fun conn => ?_,
    hs.rounds.events hexecuted hfunctors hpending hwatched,
    hs.chronicle.of_same rfl le_rfl fun _ _ => rfl⟩
  refine hgrows.alive ?_ ?_ (fun _ => Or.inl) (List.Subset.refl _)
  · rintro other captured ⟨functor, hmem, -⟩
    exact absurd (mem_only.mp hmem).2 List.not_mem_nil
  · intro other locked hlocked
    by_cases hother : other = loop
    · subst other
      rw [updateLoop_self] at hlocked
      exact hguard locked hlocked
    · rw [updateLoop_of_ne hother] at hlocked
      exact Or.inl hlocked

theorem stage_events {loop : LoopId} {change : IoLoop → IoLoop}
    (hfunctors : (change (s.loops loop)).functors = (s.loops loop).functors)
    (hpending : (change (s.loops loop)).pendingFunctors = (s.loops loop).pendingFunctors)
    (conn : ConnId) :
    (s.updateLoop loop change).stage conn =
      { s.stage conn with
        watched := decide (((s.updateLoop loop change).loops (s.own conn)).Watches conn) } := by
  have htasks (other : LoopId) :
      ((s.updateLoop loop change).loops other).tasks = (s.loops other).tasks :=
    updateLoop_same IoLoop.tasks (by rw [IoLoop.tasks, hfunctors, hpending, IoLoop.tasks]) other
  simp only [stage, own_updateLoop, htasks]
  rfl

theorem stage_events_same {loop : LoopId} {change : IoLoop → IoLoop}
    (hfunctors : (change (s.loops loop)).functors = (s.loops loop).functors)
    (hpending : (change (s.loops loop)).pendingFunctors = (s.loops loop).pendingFunctors)
    (hwatches : (change (s.loops loop)).Watches conn ↔ (s.loops loop).Watches conn) :
    (s.updateLoop loop change).stage conn = s.stage conn := by
  rw [stage_events hfunctors hpending]
  by_cases hown : s.own conn = loop
  · rw [hown, updateLoop_self]
    simp only [stage, hown, hwatches]
  · rw [updateLoop_of_ne hown]
    rfl

/-- A member function runs on an open connection. -/
theorem Records.absorb (hs : s.Records) (halive : s.Alive conn) {f : Frame}
    (hsound : f.Sound conn) (hkeeps : (s.frame conn).Extends f)
    (hfollows : ∀ functor ∈ f.queued, functor.Follows conn)
    (hstays : f.conn.state ≠ .kConnecting)
    (hopen : (s.conns conn).state = .kConnecting → f.queued = []) :
    (s.absorb conn f).Records := by
  have hgrows : Grows s (s.absorb conn f) (only (s.own conn) f.queued) :=
    grows_absorb hkeeps.loop hkeeps.name
  refine ⟨hs.running, hs.calls, hs.registry.absorb halive hsound hkeeps hfollows,
    hs.rounds.grow hgrows (fun loop other => (watches_absorb conn f s loop other).mp) ?_ ?_,
    hs.chronicle.of_same rfl le_rfl fun other _ => hgrows.own other⟩
  · intro loop functor hmem
    obtain ⟨hloop, hnew⟩ := mem_only.mp hmem
    obtain ⟨⟨htarget, hfits⟩, hestablish, -⟩ := (hfollows functor hnew).admissible
    refine ⟨?_, hfits, fun hconnecting => ?_⟩
    · have hhome : s.home functor = s.own functor.target := by
        cases functor <;> first
          | rfl
          | exact absurd (hfollows _ hnew) (by simp [Functor.Follows, Functor.Notifies])
      rw [hhome, htarget, hloop]
    · rw [htarget] at hconnecting
      rw [hopen hconnecting] at hnew
      exact absurd hnew List.not_mem_nil
  · intro other hconnecting
    by_cases hother : other = conn
    · subst other
      rw [absorb_self] at hconnecting
      exact absurd hconnecting hstays
    · rw [absorb_of_ne hother] at hconnecting ⊢
      exact ⟨hconnecting, rfl⟩

/-- A functor is queued for a connection that is alive. -/
theorem Records.queueInLoop (hs : s.Records) {loop : LoopId} {functor : Functor}
    (halive : s.Alive functor.target) (hhome : loop = s.home functor)
    (hfits : ∀ buf ∈ functor.messages, buf.length ≤ maxSize)
    (hconnecting : (s.conns functor.target).state = .kConnecting →
      functor = .connectEstablished functor.target) : (s.queueInLoop loop functor).Records := by
  have hgrows := grows_queueInLoop loop functor s
  refine ⟨hs.running, hs.calls, hs.registry.of_same rfl rfl (updateLoop_same IoLoop.poller rfl)
      fun conn => ?_,
    hs.rounds.grow hgrows (fun other conn => (watches_queueInLoop loop functor s other conn).mp)
      ?_ fun _ hstate => ⟨hstate, rfl⟩,
    hs.chronicle.of_same rfl le_rfl fun _ _ => rfl⟩
  · refine hgrows.alive ?_ ?_ (fun _ => Or.inl) (List.Subset.refl _)
    · rintro other captured ⟨added, hmem, hcaptured⟩
      obtain rfl := List.mem_singleton.mp (mem_only.mp hmem).2
      have htarget : added.target = captured := by
        cases added <;> simp_all [Functor.captured, Functor.target]
      exact htarget ▸ halive
    · intro other locked hlocked
      exact Or.inl ((updateLoop_same IoLoop.guard rfl other).symm.trans hlocked)
  · intro other added hmem
    obtain ⟨hother, hnew⟩ := mem_only.mp hmem
    obtain rfl := List.mem_singleton.mp hnew
    exact ⟨hother.trans hhome, hfits, hconnecting⟩

theorem Records.record (hs : s.Records) {loop : LoopId} {milestone : Milestone}
    (hconn : conn < s.accepted)
    (hloop : loop = if milestone = .removed then baseLoop else s.own conn)
    (hhandled : ∀ callback, milestone = .handled callback →
      ⟨loop, conn, .established⟩ ∈ s.log ∧ ⟨loop, conn, .destroyed⟩ ∉ s.log) :
    (s.record loop conn milestone).Records :=
  ⟨hs.running, hs.calls, hs.registry.of_same rfl rfl (fun _ => rfl) fun _ => id,
    hs.rounds.of_same rfl rfl rfl, hs.chronicle.append rfl rfl (fun _ => rfl) hconn hloop hhandled⟩

theorem Records.unmap (hs : s.Records) (conn : ConnId) : (s.unmap conn).Records :=
  ⟨hs.running, hs.calls, hs.registry.of_same rfl rfl (fun _ => rfl) fun _ => alive_unmap,
    hs.rounds.of_same rfl rfl rfl, hs.chronicle.of_same rfl le_rfl fun _ _ => rfl⟩

/-- The connection is queued for its destruction first, then unmapped. -/
theorem Records.removeConnectionInLoop (hs : s.Records) (halive : s.Alive conn)
    (hopen : (s.conns conn).state ≠ .kConnecting) : (s.removeConnectionInLoop conn).Records := by
  have hqueued : (s.queueInLoop (s.own conn) (.connectDestroyed conn)).Records :=
    hs.queueInLoop halive rfl nofun fun hconnecting => absurd hconnecting hopen
  have hrecorded : ((s.queueInLoop (s.own conn) (.connectDestroyed conn)).record baseLoop conn
      .removed).Records := hqueued.record halive.1 rfl nofun
  exact hrecorded.unmap conn

end System

end Muduo
