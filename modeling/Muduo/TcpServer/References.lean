import Muduo.TcpServer.Effect
import Muduo.TcpServer.Wellformed

/-! # Functors and the connections they are bound to

A functor that holds a `shared_ptr` finds its connection alive. `shutdownInLoop`
is bound to a raw `this`: something else must hold the connection until it has
run. In a queue that is the entry of `connections_`, since a connection that
leaves it gets a functor behind, or a functor ahead in the same batch.
-/

open Transition

namespace Muduo

namespace System

variable {s next : System} {conn : ConnId}

/-- `connections_` holds the connection, or its removal waits at the base loop. -/
def Tracked (s : System) (conn : ConnId) : Prop :=
  s.Mapped conn ∨ .removeConnectionInLoop conn ∈
    (s.loops baseLoop).functors ++ (s.loops baseLoop).pendingFunctors

instance (s : System) (conn : ConnId) : Decidable (s.Tracked conn) :=
  inferInstanceAs (Decidable (_ ∨ _))

/-- Some functor of the list holds a `shared_ptr` of the connection. -/
def Captured (functors : List Functor) (conn : ConnId) : Prop :=
  ∃ functor ∈ functors, functor.captured = some conn

instance (functors : List Functor) (conn : ConnId) : Decidable (Captured functors conn) :=
  inferInstanceAs (Decidable (∃ functor ∈ functors, _))

theorem not_captured_nil : ¬ Captured [] conn := by
  rintro ⟨functor, hmem, -⟩
  cases hmem

theorem Captured.mono {before after : List Functor} (hcaptured : Captured before conn)
    (hsubset : before ⊆ after) : Captured after conn := by
  obtain ⟨functor, hmem, hholds⟩ := hcaptured
  exact ⟨functor, hsubset hmem, hholds⟩

/-- A functor queued now will find the connection alive. -/
def Referenced (s : System) (conn : ConnId) : Prop :=
  s.Tracked conn ∨ Captured (s.loops (s.own conn)).pendingFunctors conn

instance (s : System) (conn : ConnId) : Decidable (s.Referenced conn) :=
  inferInstanceAs (Decidable (_ ∨ _))

/-- Every `shutdownInLoop` of the connection is covered by a reference: in the queue
by one that outlives the swap, in a batch by one that outlives the batch. -/
structure Covered (s : System) (conn : ConnId) : Prop where
  waiting : .shutdownInLoop conn ∈ (s.loops (s.own conn)).pendingFunctors → s.Referenced conn
  swapped : .shutdownInLoop conn ∈ (s.loops (s.own conn)).functors →
    s.Tracked conn ∨ Captured (s.loops (s.own conn)).queued conn

theorem pending_subset_queued (loop : IoLoop) : loop.pendingFunctors ⊆ loop.queued :=
  List.subset_append_right _ _

theorem functors_subset_queued (loop : IoLoop) : loop.functors ⊆ loop.queued := by
  intro functor hmem
  simp [IoLoop.queued, hmem]

theorem Covered.of_captured
    (hcaptured : Captured (s.loops (s.own conn)).pendingFunctors conn) : s.Covered conn :=
  ⟨fun _ => Or.inr hcaptured, fun _ => Or.inr (hcaptured.mono (pending_subset_queued _))⟩

theorem Covered.mono (hs : s.Covered conn) (hown : next.own conn = s.own conn)
    (htracked : s.Tracked conn → next.Tracked conn)
    (hwaiting : .shutdownInLoop conn ∈ (next.loops (s.own conn)).pendingFunctors →
      .shutdownInLoop conn ∈ (s.loops (s.own conn)).pendingFunctors)
    (hswapped : .shutdownInLoop conn ∈ (next.loops (s.own conn)).functors →
      .shutdownInLoop conn ∈ (s.loops (s.own conn)).functors)
    (hpending : (s.loops (s.own conn)).pendingFunctors ⊆
      (next.loops (s.own conn)).pendingFunctors)
    (hqueued : (s.loops (s.own conn)).queued ⊆ (next.loops (s.own conn)).queued) :
    next.Covered conn := by
  constructor <;> rw [hown] <;> intro hmem
  · rcases hs.waiting (hwaiting hmem) with hbefore | hcaptured
    · exact Or.inl (htracked hbefore)
    · refine Or.inr ?_
      rw [hown]
      exact hcaptured.mono hpending
  · rcases hs.swapped (hswapped hmem) with hbefore | hcaptured
    · exact Or.inl (htracked hbefore)
    · exact Or.inr (hcaptured.mono hqueued)

/-- Every `shutdownInLoop` waits at the loop of its connection. -/
def AtHome (s : System) : Prop :=
  ∀ loop conn, .shutdownInLoop conn ∈ (s.loops loop).queued → loop = s.own conn

structure Guarded (s : System) : Prop where
  wellformed : s.Wellformed
  home : s.AtHome
  covered : ∀ conn, s.Covered conn

theorem initial_guarded (listenAddr : InetAddress) (nameArg : String)
    (timeout numThreads : Nat) :
    (initial listenAddr nameArg timeout numThreads).Guarded where
  wellformed := initial_wellformed listenAddr nameArg timeout numThreads
  home := by
    intro loop conn hmem
    simp [initial, IoLoop.create, IoLoop.queued] at hmem
  covered := fun _ => ⟨nofun, nofun⟩

/-- Under the invariant, every functor that waits has a living connection. -/
theorem Guarded.alive_of_mem (hs : s.Guarded) {loop : LoopId} {functor : Functor}
    (hmem : functor ∈ (s.loops loop).functors ++ (s.loops loop).pendingFunctors) :
    s.Alive functor.target := by
  have hqueued : functor ∈ (s.loops loop).queued := by
    rw [IoLoop.queued, List.append_assoc]
    exact List.mem_append_right _ hmem
  obtain ⟨hloop, htarget⟩ := hs.wellformed.queued loop functor hqueued
  refine ⟨htarget, ?_⟩
  have held {other : LoopId} (hother : other ∈ s.loopIds) {conn : ConnId}
      (hcaptured : Captured (s.loops other).queued conn) :
      ∃ holder ∈ s.loopIds, conn ∈ (s.loops holder).held := by
    obtain ⟨holder, hholder, hholds⟩ := hcaptured
    refine ⟨other, hother, List.mem_append_right _ (List.mem_filterMap.mpr ?_)⟩
    exact ⟨holder, hholder, hholds⟩
  cases functor with
  | shutdownInLoop conn =>
      obtain rfl := hs.home loop conn hqueued
      have hcovered : s.Tracked conn ∨ Captured (s.loops (s.own conn)).queued conn := by
        rcases List.mem_append.mp hmem with hswapped | hwaiting
        · exact (hs.covered conn).swapped hswapped
        · exact ((hs.covered conn).waiting hwaiting).imp_right (·.mono (pending_subset_queued _))
      rcases hcovered with (hmapped | hremoval) | hcaptured
      · exact Or.inl hmapped
      · have hwaits : .removeConnectionInLoop conn ∈ (s.loops baseLoop).queued := by
          rw [IoLoop.queued, List.append_assoc]
          exact List.mem_append_right _ hremoval
        exact Or.inr (Or.inr (Or.inr (held s.base_mem_loopIds ⟨_, hwaits, rfl⟩)))
      · exact Or.inr (Or.inr (Or.inr (held hloop hcaptured)))
  | connectEstablished | connectDestroyed | sendInLoop | removeConnectionInLoop
  | writeCompleteCallback | highWaterMarkCallback =>
      exact Or.inr (Or.inr (Or.inr (held hloop ⟨_, hqueued, rfl⟩)))

/-! ## Pieces of steps -/

theorem Grows.tracked {added : LoopId → List Functor} (hgrows : Grows s next added)
    (htracked : s.Tracked conn) : next.Tracked conn := by
  rcases htracked with hmapped | hremoval
  · exact Or.inl ((hgrows.mapped conn).mpr hmapped)
  · refine Or.inr ?_
    rw [hgrows.functors, hgrows.pending, ← List.append_assoc]
    exact List.mem_append_left _ hremoval

/-- Queues that grow keep the invariant if the new functors with a raw `this` are
referenced. -/
theorem Guarded.grow (hs : s.Guarded) {added : LoopId → List Functor}
    (hgrows : Grows s next added)
    (hadded : ∀ loop, ∀ functor ∈ added loop, loop ∈ s.loopIds ∧ functor.target < s.accepted)
    (hraw : ∀ loop conn, .shutdownInLoop conn ∈ added loop →
      loop = s.own conn ∧ s.Referenced conn)
    (hcalls : ∀ call ∈ next.calls, call.conn < s.accepted) : next.Guarded where
  wellformed := hs.wellformed.grow hgrows hadded hcalls
  home := by
    intro loop conn hmem
    rw [hgrows.own]
    rcases hgrows.mem_queued.mp hmem with hold | hnew
    · exact hs.home loop conn hold
    · exact (hraw loop conn hnew).1
  covered := by
    intro conn
    have hpending : (s.loops (s.own conn)).pendingFunctors ⊆
        (next.loops (s.own conn)).pendingFunctors := by
      rw [hgrows.pending]
      exact List.subset_append_left _ _
    have hqueued : (s.loops (s.own conn)).queued ⊆ (next.loops (s.own conn)).queued :=
      fun _ hmem => hgrows.mem_queued.mpr (Or.inl hmem)
    by_cases hnew : .shutdownInLoop conn ∈ added (s.own conn)
    · constructor <;> rw [hgrows.own]
      · intro _
        rcases (hraw _ conn hnew).2 with htracked | hcaptured
        · exact Or.inl (hgrows.tracked htracked)
        · refine Or.inr ?_
          rw [hgrows.own]
          exact hcaptured.mono hpending
      · intro hmem
        rw [hgrows.functors] at hmem
        exact ((hs.covered conn).swapped hmem).imp hgrows.tracked (·.mono hqueued)
    · refine (hs.covered conn).mono (hgrows.own conn) hgrows.tracked ?_ ?_ hpending hqueued
      · intro hmem
        rw [hgrows.pending] at hmem
        exact (List.mem_append.mp hmem).resolve_right hnew
      · rw [hgrows.functors]
        exact id

theorem Guarded.grow_nil (hs : s.Guarded) (hgrows : Grows s next fun _ => [])
    (hcalls : ∀ call ∈ next.calls, call.conn < s.accepted) : next.Guarded :=
  hs.grow hgrows nofun nofun hcalls

/-- One functor that holds a `shared_ptr` is queued. -/
theorem Guarded.queueInLoop (hs : s.Guarded) {loop : LoopId} {functor : Functor}
    (hloop : loop ∈ s.loopIds) (htarget : functor.target < s.accepted)
    (hraw : ∀ conn, functor = .shutdownInLoop conn → loop = s.own conn ∧ s.Referenced conn) :
    (s.queueInLoop loop functor).Guarded := by
  refine hs.grow (grows_queueInLoop loop functor s) ?_ ?_ hs.wellformed.calls
  · intro other added hmem
    obtain ⟨rfl, hnew⟩ := mem_only.mp hmem
    obtain rfl := List.mem_singleton.mp hnew
    exact ⟨hloop, htarget⟩
  · intro other conn hmem
    obtain ⟨rfl, hnew⟩ := mem_only.mp hmem
    exact hraw conn (List.mem_singleton.mp hnew).symm

theorem keeps_notifies {f : Frame} (hkeeps : (s.frame conn).Keeps conn f) :
    ∀ functor ∈ f.queued, functor.Notifies conn := by
  obtain ⟨queued, hqueued, hnotifies⟩ := hkeeps.queued
  rw [frame, List.nil_append] at hqueued
  exact hqueued ▸ hnotifies

/-- A member function that queues only notifications. -/
theorem Guarded.absorb (hs : s.Guarded) (hconn : conn < s.accepted) {f : Frame}
    (hkeeps : (s.frame conn).Keeps conn f) : (s.absorb conn f).Guarded := by
  have hnotifies := keeps_notifies hkeeps
  refine hs.grow (grows_absorb hkeeps.loop hkeeps.name) ?_ ?_ hs.wellformed.calls
  · intro loop functor hmem
    obtain ⟨rfl, hnew⟩ := mem_only.mp hmem
    have htarget := (hnotifies functor hnew).target
    exact ⟨hs.wellformed.own conn hconn, htarget ▸ hconn⟩
  · intro loop other hmem
    exact absurd (hnotifies _ (mem_only.mp hmem).2) (by simp [Functor.Notifies])

/-- The loop turns to another channel, callback or round. -/
theorem Guarded.updateLoop (hs : s.Guarded) {loop : LoopId} {change : IoLoop → IoLoop}
    (hexecuted : (change (s.loops loop)).executed = (s.loops loop).executed)
    (hfunctors : (change (s.loops loop)).functors = (s.loops loop).functors)
    (hpending : (change (s.loops loop)).pendingFunctors = (s.loops loop).pendingFunctors) :
    (s.updateLoop loop change).Guarded := by
  have hgrows : Grows s (s.updateLoop loop change) (only loop []) :=
    grows_updateLoop hexecuted hfunctors (hpending.trans (List.append_nil _).symm)
  refine hs.grow hgrows ?_ ?_ hs.wellformed.calls
  · intro other functor hmem
    exact absurd (mem_only.mp hmem).2 (List.not_mem_nil)
  · intro other conn hmem
    exact absurd (mem_only.mp hmem).2 (List.not_mem_nil)

theorem Guarded.updateConn (hs : s.Guarded) {change : TcpConnection → TcpConnection}
    (hloop : (change (s.conns conn)).loop = (s.conns conn).loop)
    (hname : (change (s.conns conn)).name = (s.conns conn).name) :
    (s.updateConn conn change).Guarded :=
  hs.grow_nil (grows_updateConn hloop hname) hs.wellformed.calls

/-! ### Batches -/

theorem Tracked.updateLoop {loop : LoopId} {change : IoLoop → IoLoop}
    (htracked : s.Tracked conn)
    (hremovals : .removeConnectionInLoop conn ∈
        (s.loops loop).functors ++ (s.loops loop).pendingFunctors →
      .removeConnectionInLoop conn ∈
        (change (s.loops loop)).functors ++ (change (s.loops loop)).pendingFunctors) :
    (s.updateLoop loop change).Tracked conn := by
  rcases htracked with hmapped | hremoval
  · exact Or.inl hmapped
  · refine Or.inr ?_
    by_cases hbase : baseLoop = loop
    · rw [← hbase, updateLoop_self]
      rw [← hbase] at hremovals
      exact hremovals hremoval
    · rw [updateLoop_of_ne hbase]
      exact hremoval

theorem AtHome.updateLoop (hhome : s.AtHome) {loop : LoopId} {change : IoLoop → IoLoop}
    (hqueued : (change (s.loops loop)).queued ⊆ (s.loops loop).queued) :
    (s.updateLoop loop change).AtHome := by
  intro other conn hmem
  by_cases hother : other = loop
  · subst other
    rw [updateLoop_self] at hmem
    exact hhome loop conn (hqueued hmem)
  · rw [updateLoop_of_ne hother] at hmem
    exact hhome other conn hmem

/-- The connections of other loops are covered as before. -/
theorem Covered.updateLoop_of_ne (hs : s.Covered conn) {loop : LoopId}
    {change : IoLoop → IoLoop} (hother : s.own conn ≠ loop)
    (htracked : s.Tracked conn → (s.updateLoop loop change).Tracked conn) :
    (s.updateLoop loop change).Covered conn := by
  have hsame : (s.updateLoop loop change).loops (s.own conn) = s.loops (s.own conn) :=
    System.updateLoop_of_ne hother change s
  refine hs.mono rfl htracked ?_ ?_ ?_ ?_ <;> rw [hsame]
  · exact id
  · exact id
  · exact List.Subset.refl _
  · exact List.Subset.refl _

/-- In the queue a `shutdownInLoop` is covered by what is queued with it. -/
theorem swap_guarded (hs : s.Guarded) {loop : LoopId} (hbatch : (s.loops loop).Batchless) :
    (s.updateLoop loop IoLoop.swapFunctors).Guarded := by
  have htracked {conn : ConnId} (hbefore : s.Tracked conn) :
      (s.updateLoop loop IoLoop.swapFunctors).Tracked conn :=
    hbefore.updateLoop (by rw [hbatch.2]; simp [IoLoop.swapFunctors])
  have hqueued : (s.loops loop).swapFunctors.queued ⊆ (s.loops loop).queued := by
    simp [IoLoop.queued, IoLoop.swapFunctors, hbatch.1, hbatch.2]
  refine ⟨hs.wellformed.updateLoop hqueued, hs.home.updateLoop hqueued, fun conn => ?_⟩
  by_cases hown : s.own conn = loop
  · subst hown
    constructor <;> simp only [own_updateLoop, updateLoop_self] <;> intro hmem
    · exact absurd hmem List.not_mem_nil
    · refine ((hs.covered conn).waiting hmem).imp htracked fun hcaptured => ?_
      refine hcaptured.mono fun functor hfunctor => ?_
      simp [IoLoop.queued, IoLoop.swapFunctors, hfunctor]
  · exact (hs.covered conn).updateLoop_of_ne hown htracked

/-- Starting a functor keeps its captures in the batch. -/
theorem pop_covered (hs : s.Covered conn) {loop : LoopId} {functor : Functor}
    {rest : List Functor} (hfunctors : (s.loops loop).functors = functor :: rest)
    (hother : functor ≠ .removeConnectionInLoop conn) :
    (s.updateLoop loop (IoLoop.startFunctor functor rest)).Covered conn := by
  have htracked : s.Tracked conn →
      (s.updateLoop loop (IoLoop.startFunctor functor rest)).Tracked conn := by
    intro hbefore
    refine hbefore.updateLoop fun hmem => ?_
    rw [hfunctors, List.cons_append] at hmem
    exact (List.mem_cons.mp hmem).resolve_left hother.symm
  by_cases hown : s.own conn = loop
  · subst hown
    refine hs.mono rfl htracked ?_ ?_ ?_ ?_ <;> rw [updateLoop_self]
    · exact id
    · intro hmem
      rw [hfunctors]
      exact List.mem_cons_of_mem _ hmem
    · exact List.Subset.refl _
    · simp [IoLoop.queued, IoLoop.startFunctor, hfunctors]
  · exact hs.updateLoop_of_ne hown htracked

theorem pop_queued {loop : LoopId} {functor : Functor} {rest : List Functor}
    (hfunctors : (s.loops loop).functors = functor :: rest) :
    ((s.loops loop).startFunctor functor rest).queued ⊆ (s.loops loop).queued := by
  simp [IoLoop.queued, IoLoop.startFunctor, hfunctors]

/-- The captures of a batch are only needed by the rest of the batch. -/
theorem endFunctors_guarded (hs : s.Guarded) {loop : LoopId}
    (hfunctors : (s.loops loop).functors = []) :
    (s.updateLoop loop IoLoop.destroyBatch).Guarded := by
  have hqueued : (s.loops loop).destroyBatch.queued ⊆ (s.loops loop).queued := by
    simp [IoLoop.queued, IoLoop.destroyBatch]
  have htracked {conn : ConnId} (hbefore : s.Tracked conn) :
      (s.updateLoop loop IoLoop.destroyBatch).Tracked conn := hbefore.updateLoop id
  refine ⟨hs.wellformed.updateLoop hqueued, hs.home.updateLoop hqueued, fun conn => ?_⟩
  by_cases hown : s.own conn = loop
  · subst hown
    constructor <;> simp only [own_updateLoop, updateLoop_self] <;> intro hmem
    · rcases (hs.covered conn).waiting hmem with hbefore | hcaptured
      · exact Or.inl (htracked hbefore)
      · refine Or.inr ?_
        rw [own_updateLoop, updateLoop_self]
        exact hcaptured
    · rw [IoLoop.destroyBatch, hfunctors] at hmem
      exact absurd hmem List.not_mem_nil
  · exact (hs.covered conn).updateLoop_of_ne hown htracked

/-! ### The map of connections -/

/-- Leaving `connections_` is no loss for the other connections. -/
theorem Guarded.unmap (hs : s.Guarded) (hconn : conn < s.accepted)
    (hcovered : (s.unmap conn).Covered conn) : (s.unmap conn).Guarded := by
  refine ⟨hs.wellformed.unmap conn, hs.home, fun other => ?_⟩
  by_cases hother : other = conn
  · exact hother ▸ hcovered
  · refine (hs.covered other).mono rfl ?_ id id (List.Subset.refl _) (List.Subset.refl _)
    refine Or.imp_left fun hmapped => ?_
    have hlt := (hs.wellformed.mapped _ other hmapped).1
    exact (hs.wellformed.unmap_mapped hconn hlt).mpr ⟨hmapped, hother⟩

/-- A removed connection is held by its `connectDestroyed`, behind everything that
was queued for it. -/
theorem removeConnectionInLoop_guarded (hwellformed : s.Wellformed) (hhome : s.AtHome)
    (hcovered : ∀ other, other ≠ conn → s.Covered other) (hconn : conn < s.accepted) :
    (s.removeConnectionInLoop conn).Guarded := by
  have hgrows : Grows (s.unmap conn) (s.removeConnectionInLoop conn) _ :=
    (grows_queueInLoop (s.own conn) (.connectDestroyed conn) (s.unmap conn)).trans
      (grows_record baseLoop conn .removed _)
  have hpending : ((s.removeConnectionInLoop conn).loops (s.own conn)).pendingFunctors =
      (s.loops (s.own conn)).pendingFunctors ++ [.connectDestroyed conn] := by
    rw [hgrows.pending]
    simp [only, System.unmap]
  refine ⟨(hwellformed.unmap conn).grow hgrows ?_ hwellformed.calls, ?_, fun other => ?_⟩
  · intro loop functor hmem
    rw [List.append_nil] at hmem
    obtain ⟨rfl, hnew⟩ := mem_only.mp hmem
    obtain rfl := List.mem_singleton.mp hnew
    exact ⟨hwellformed.own conn hconn, hconn⟩
  · intro loop other hmem
    rcases hgrows.mem_queued.mp hmem with hold | hnew
    · exact hhome loop other hold
    · rw [List.append_nil] at hnew
      exact absurd (mem_only.mp hnew).2 (by simp)
  · by_cases hother : other = conn
    · subst other
      refine .of_captured ?_
      change Captured ((s.removeConnectionInLoop conn).loops (s.own conn)).pendingFunctors conn
      rw [hpending]
      exact ⟨.connectDestroyed conn, by simp, rfl⟩
    · have hnot : ∀ loop, .shutdownInLoop other ∉
          only (s.own conn) [.connectDestroyed conn] loop ++ [] := by
        intro loop hmem
        rw [List.append_nil] at hmem
        exact absurd (mem_only.mp hmem).2 (by simp)
      refine (hcovered other hother).mono rfl ?_ ?_ ?_ ?_ ?_
      · intro htracked
        refine hgrows.tracked (htracked.imp_left fun hmapped => ?_)
        have hlt := (hwellformed.mapped _ other hmapped).1
        exact (hwellformed.unmap_mapped hconn hlt).mpr ⟨hmapped, hother⟩
      · rw [hgrows.pending]
        exact fun hmem => (List.mem_append.mp hmem).resolve_right (hnot _)
      · rw [hgrows.functors]
        exact id
      · rw [hgrows.pending]
        exact List.subset_append_left _ _
      · exact fun _ hmem => hgrows.mem_queued.mpr (Or.inl hmem)

theorem construct_guarded (hs : s.Guarded) (hbounded : s.accepted < 2 ^ 32) (sockfd : Int)
    (hasWriteCompleteCallback : Bool) :
    (s.construct sockfd hasWriteCompleteCallback).Guarded := by
  have hown {conn : ConnId} (hconn : conn < s.accepted) :
      (s.construct sockfd hasWriteCompleteCallback).own conn = s.own conn := by
    rw [own, construct_conns _ _ hconn, own]
  refine ⟨hs.wellformed.construct _ _ hbounded, ?_, fun conn => ?_⟩
  · intro loop conn hmem
    have hconn : conn < s.accepted := (hs.wellformed.queued loop _ hmem).2
    rw [hown hconn]
    exact hs.home loop conn hmem
  · by_cases hconn : conn < s.accepted
    · refine (hs.covered conn).mono (hown hconn) ?_ id id (List.Subset.refl _)
        (List.Subset.refl _)
      exact Or.imp_left (hs.wellformed.construct_mapped _ _ hbounded hconn).mpr
    · -- nothing is queued for a connection before it is accepted
      constructor <;> intro hmem
      · exact absurd (hs.wellformed.queued _ _ (pending_subset_queued _ hmem)).2 hconn
      · exact absurd (hs.wellformed.queued _ _ (functors_subset_queued _ hmem)).2 hconn

/-! ## Steps -/

/-- When `shutdown` queues its functor with a raw `this`, something holds the connection
long enough; and `~TcpServer` destroys no connection of the base loop under a queued one.
A name is given out only once. -/
def QueuesSafely (s : System) : Action → Prop
  | .newConnection .. => s.accepted < 2 ^ 32
  | .shutdown conn => (s.conns conn).state = .kConnected → s.Referenced conn
  | .destroyEntry entry =>
      let timerWheel := s.server.timerWheel.release entry
      let conn := (timerWheel.entries entry).conn
      timerWheel.owns entry = false → s.Alive conn → s.own conn ≠ baseLoop →
        (s.conns conn).state = .kConnected → s.Referenced conn
  | .queueShutdown call =>
      ¬ (call.caller = .entry ∧ s.own call.conn = baseLoop) → s.Referenced call.conn
  | .destroyConnection conn =>
      s.own conn = baseLoop →
        (.shutdownInLoop conn ∈ (s.loops baseLoop).pendingFunctors →
          Captured (s.loops baseLoop).pendingFunctors conn) ∧
        (.shutdownInLoop conn ∈ (s.loops baseLoop).functors →
          Captured (s.loops baseLoop).queued conn)
  | _ => True

instance (s : System) : (action : Action) → Decidable (s.QueuesSafely action) := by
  rintro ⟨⟩ <;> dsimp only [QueuesSafely] <;> infer_instance

theorem shutdown_guarded (hs : s.Guarded) (hconn : conn < s.accepted) {inLoopThread : Bool}
    (hsafe : inLoopThread = false → (s.conns conn).state = .kConnected → s.Referenced conn) :
    (s.shutdown conn inLoopThread).Guarded := by
  cases inLoopThread with
  | true => exact hs.absorb hconn (TcpConnection.shutdown_keeps _)
  | false =>
      unfold shutdown
      rcases TcpConnection.shutdown_queues conn (s.frame conn) with
        ⟨-, hsame⟩ | ⟨hconnected, hqueues⟩
      · rw [hsame]
        exact hs.absorb hconn (.refl _ _)
      · rw [hqueues]
        refine hs.grow (grows_absorb rfl rfl) ?_ ?_ hs.wellformed.calls
        · intro loop functor hmem
          obtain ⟨rfl, hnew⟩ := mem_only.mp hmem
          obtain rfl := List.mem_singleton.mp hnew
          exact ⟨hs.wellformed.own conn hconn, hconn⟩
        · intro loop other hmem
          obtain ⟨rfl, hnew⟩ := mem_only.mp hmem
          obtain rfl : other = conn := by
            simpa [frame, Frame.queueInLoop, Frame.setState] using hnew
          exact ⟨rfl, hsafe rfl hconnected⟩

theorem updateConnection_guarded (hs : s.Guarded) {now : Int}
    (hupdate : s.updateConnection conn now = .ok next) :
    next.Guarded ∧ next.accepted = s.accepted ∧ ∀ other, next.own other = s.own other := by
  unfold updateConnection at hupdate
  obtain ⟨⟨timerWheel, context⟩, -, hupdate⟩ := Except.bind_eq_ok.mp hupdate
  simp only [pure, Except.pure, Except.ok.injEq] at hupdate
  subst hupdate
  have hgrows : Grows s ((s.withWheel timerWheel).updateConn conn ({ · with context })) _ :=
    (grows_withWheel timerWheel s).trans (grows_updateConn rfl rfl)
  exact ⟨hs.grow_nil hgrows hs.wellformed.calls, hgrows.accepted, hgrows.own⟩

theorem refresh_guarded (hs : s.Guarded) {now : Int}
    (hrefresh : s.refresh conn now = .ok next) :
    next.Guarded ∧ next.accepted = s.accepted ∧ ∀ other, next.own other = s.own other := by
  unfold refresh at hrefresh
  split at hrefresh
  · exact updateConnection_guarded hs hrefresh
  · rw [Except.ok.injEq] at hrefresh
    exact hrefresh ▸ ⟨hs, rfl, fun _ => rfl⟩

theorem dispatch_guarded {loop : LoopId} {now : Int} (event : IoEvent)
    (hs : s.Guarded ∧ conn < s.accepted) (hdispatch : s.dispatch loop conn now event = .ok next) :
    next.Guarded ∧ conn < next.accepted := by
  obtain ⟨hguarded, hconn⟩ := hs
  rcases dispatch_cases hdispatch with ⟨-, hremove⟩ | ⟨-, hrefresh⟩ | rfl
  · rcases removeConnection_cases hremove with ⟨-, rfl⟩ | ⟨-, rfl⟩
    · exact ⟨removeConnectionInLoop_guarded hguarded.wellformed hguarded.home
        (fun other _ => hguarded.covered other) hconn, hconn⟩
    · exact ⟨hguarded.queueInLoop s.base_mem_loopIds hconn nofun, hconn⟩
  · obtain ⟨hnext, haccepted, -⟩ := refresh_guarded hguarded hrefresh
    exact ⟨hnext, haccepted ▸ hconn⟩
  · exact ⟨hguarded, hconn⟩

theorem connectEstablished_guarded (hs : s.Guarded) (hconn : conn < s.accepted) {loop : LoopId}
    (hestablish : s.connectEstablished loop conn = .ok next) : next.Guarded := by
  unfold connectEstablished at hestablish
  obtain ⟨f, hf, hestablish⟩ := Except.bind_eq_ok.mp hestablish
  simp only [pure, Except.pure, Except.ok.injEq] at hestablish
  subst hestablish
  have habsorb := hs.absorb hconn (TcpConnection.connectEstablished_keeps hf)
  exact habsorb.grow_nil (grows_record _ _ _ _) habsorb.wellformed.calls

theorem connectDestroyed_guarded (hs : s.Guarded) (hconn : conn < s.accepted) {loop : LoopId}
    (hdestroy : s.connectDestroyed loop conn = .ok next) : next.Guarded := by
  unfold connectDestroyed at hdestroy
  obtain ⟨f, hf, hdestroy⟩ := Except.bind_eq_ok.mp hdestroy
  simp only [pure, Except.pure, Except.ok.injEq] at hdestroy
  subst hdestroy
  have habsorb := hs.absorb hconn (TcpConnection.connectDestroyed_keeps hf)
  exact habsorb.grow_nil (grows_record _ _ _ _) habsorb.wellformed.calls

theorem newConnection_guarded (hs : s.Guarded) (hbounded : s.accepted < 2 ^ 32) {sockfd now : Int}
    {hasWriteCompleteCallback : Bool}
    (hnew : s.newConnection sockfd hasWriteCompleteCallback now = .ok next) : next.Guarded := by
  unfold newConnection at hnew
  have hconstruct := construct_guarded hs hbounded sockfd hasWriteCompleteCallback
  obtain ⟨middle, hrefresh, hnew⟩ := Except.bind_eq_ok.mp hnew
  obtain ⟨hguarded, haccepted, -⟩ := refresh_guarded hconstruct hrefresh
  have hconn : s.accepted < middle.accepted := haccepted ▸ Nat.lt_succ_self _
  split at hnew
  · exact connectEstablished_guarded hguarded hconn hnew
  · simp only [pure, Except.pure, Except.ok.injEq] at hnew
    exact hnew ▸ hguarded.queueInLoop (hguarded.wellformed.own _ hconn) hconn nofun

theorem setRevents_guarded (hs : s.Guarded) (conn : ConnId) (revents : EventMask) :
    (s.setRevents conn revents).Guarded :=
  hs.updateConn rfl rfl

theorem fillActiveChannel_guarded {loop : LoopId} (event : Int × EventMask) (hs : s.Guarded)
    (hfill : fillActiveChannel loop s event = .ok next) : next.Guarded := by
  obtain ⟨mask, conn, -, -, rfl⟩ := fillActiveChannel_ok hfill
  exact (setRevents_guarded hs _ _).updateLoop rfl rfl rfl

theorem handleEvent_guarded (hs : s.Guarded) {loop : LoopId}
    (hhandle : s.handleEvent loop = .ok next) : next.Guarded := by
  obtain ⟨conn, rest, -, -, rfl⟩ := handleEvent_ok hhandle
  exact hs.updateLoop rfl rfl rfl

theorem finishCallback_guarded (hs : s.Guarded) (hconn : conn < s.accepted) {f : Frame}
    (hkeeps : (s.frame conn).Keeps conn f) (loop : LoopId) (callback : Callback)
    (rest : List Callback) : (s.finishCallback loop conn callback rest f).Guarded := by
  have habsorb := hs.absorb hconn hkeeps
  have hrecord := habsorb.grow_nil (grows_record loop conn (.handled callback) _)
    habsorb.wellformed.calls
  exact hrecord.updateLoop rfl rfl rfl

theorem callback_guarded (hs : s.Guarded) {loop : LoopId} {calls : TcpConnection.Syscalls}
    {now : Int} (hcallback : s.callback loop calls now = .ok next) : next.Guarded := by
  obtain ⟨conn, callback, rest, f, -, halive, hf, hcallback⟩ := callback_ok hcallback
  have hstart := finishCallback_guarded hs halive.1 (TcpConnection.onCallback_keeps hf) loop
    callback rest
  exact (run_invariant
    (fun _ event _ hguarded hstep => dispatch_guarded event hguarded hstep)
    ⟨hstart, halive.1⟩ hcallback).1

theorem runFunctor_guarded (hs : s.Guarded) {loop : LoopId} {result : WriteResult}
    (hrun : s.runFunctor loop result = .ok next) : next.Guarded := by
  obtain ⟨functor, rest, hfunctors, halive, hexecute⟩ := runFunctor_ok hrun
  have hwellformed : (s.updateLoop loop (IoLoop.startFunctor functor rest)).Wellformed :=
    hs.wellformed.updateLoop (pop_queued hfunctors)
  have hhome : (s.updateLoop loop (IoLoop.startFunctor functor rest)).AtHome :=
    hs.home.updateLoop (pop_queued hfunctors)
  rcases execute_cases hexecute with ⟨removed, rfl, rfl⟩ | ⟨hother, f, hf, hnext⟩
  · refine removeConnectionInLoop_guarded hwellformed hhome (fun other hother => ?_) halive.1
    exact pop_covered (hs.covered other) hfunctors (by simpa using Ne.symm hother)
  · have hpopped : (s.updateLoop loop (IoLoop.startFunctor functor rest)).Guarded :=
      ⟨hwellformed, hhome, fun other => pop_covered (hs.covered other) hfunctors (hother other)⟩
    have habsorb := hpopped.absorb halive.1 (TcpConnection.onFunctor_keeps hf)
    rcases hnext with rfl | ⟨milestone, rfl⟩
    · exact habsorb
    · exact habsorb.grow_nil (grows_record _ _ _ _) habsorb.wellformed.calls

/-- Changes outside the loops, the connections and the server's map. -/
theorem Guarded.of_same (hs : s.Guarded)
    (hserver : next.server = { s.server with timerWheel := next.server.timerWheel })
    (haccepted : next.accepted = s.accepted) (hconns : next.conns = s.conns)
    (hloops : next.loops = s.loops) (hcalls : ∀ call ∈ next.calls, call.conn < s.accepted) :
    next.Guarded :=
  hs.grow_nil (.of_same hserver haccepted (fun _ => by rw [own, hconns, own])
    (fun _ => by rw [hconns]) hloops) hcalls

theorem Guarded.withWheel (hs : s.Guarded) (timerWheel : TimerWheel) :
    (s.withWheel timerWheel).Guarded :=
  hs.of_same rfl rfl rfl rfl hs.wellformed.calls

theorem destroyEntry_guarded (hs : s.Guarded)
    (hsafe : s.Alive conn → s.own conn ≠ baseLoop → (s.conns conn).state = .kConnected →
      s.Referenced conn) : (s.destroyEntry conn).Guarded := by
  unfold destroyEntry
  split
  next halive =>
    exact shutdown_guarded hs halive.1 fun hother => hsafe halive (of_decide_eq_false hother)
  next => exact hs

theorem queueShutdown_guarded (hs : s.Guarded) {call : ShutdownCall} (hcall : call ∈ s.calls)
    (hsafe : ¬ (call.caller = .entry ∧ s.own call.conn = baseLoop) → s.Referenced call.conn) :
    (if call.caller = .entry ∧ s.own call.conn = baseLoop then
        s.absorb call.conn (TcpConnection.shutdownInLoop (s.frame call.conn))
      else s.queueInLoop (s.own call.conn) (.shutdownInLoop call.conn)).Guarded := by
  have hconn := hs.wellformed.calls call hcall
  split
  next => exact hs.absorb hconn (TcpConnection.shutdownInLoop_keeps _)
  next hqueue =>
    refine hs.queueInLoop (hs.wellformed.own _ hconn) hconn fun other hother => ?_
    obtain rfl : call.conn = other := by simpa using hother
    exact ⟨rfl, hsafe hqueue⟩

theorem destroyConnection_guarded (hs : s.Guarded) (hconn : conn < s.accepted)
    (hsafe : s.QueuesSafely (.destroyConnection conn))
    (hdestroy : (if s.own conn = baseLoop then (s.unmap conn).connectDestroyed baseLoop conn
      else .ok ((s.unmap conn).queueInLoop (s.own conn) (.connectDestroyed conn))) = .ok next) :
    next.Guarded := by
  split at hdestroy
  next hbase =>
    obtain ⟨hwaiting, hswapped⟩ := hsafe hbase
    have hcovered : (s.unmap conn).Covered conn := by
      refine ⟨fun hmem => Or.inr ?_, fun hmem => Or.inr ?_⟩
      · change Captured (s.loops (s.own conn)).pendingFunctors conn
        change _ ∈ (s.loops (s.own conn)).pendingFunctors at hmem
        rw [hbase] at hmem ⊢
        exact hwaiting hmem
      · change Captured (s.loops (s.own conn)).queued conn
        change _ ∈ (s.loops (s.own conn)).functors at hmem
        rw [hbase] at hmem ⊢
        exact hswapped hmem
    exact connectDestroyed_guarded (hs.unmap hconn hcovered) hconn hdestroy
  next =>
    rw [Except.ok.injEq] at hdestroy
    subst hdestroy
    -- the same queues and map as after a removal, which is also recorded
    have hremoved := removeConnectionInLoop_guarded hs.wellformed hs.home
      (fun other _ => hs.covered other) hconn
    exact hremoved.of_same rfl rfl rfl rfl hs.wellformed.calls

/-- A safe step keeps every queued `shutdownInLoop` covered. -/
theorem step_guarded (s : System) (action : Action) (next : System) (hs : s.Guarded)
    (hsafe : s.QueuesSafely action) (hstep : step s action = .ok next) : next.Guarded := by
  have hcalls := hs.wellformed.calls
  cases action with
  | newConnection sockfd hasWriteCompleteCallback now =>
      obtain ⟨-, hstep⟩ := Except.guard_eq_ok.mp hstep
      exact newConnection_guarded hs hsafe hstep
  | poll loop events =>
      obtain ⟨-, hstep⟩ := Except.guard_eq_ok.mp hstep
      exact run_invariant (fun _ event _ hguarded hfill =>
        fillActiveChannel_guarded event hguarded hfill) hs hstep
  | handleEvent loop =>
      obtain ⟨-, hstep⟩ := Except.guard_eq_ok.mp hstep
      exact handleEvent_guarded hs hstep
  | callback loop calls now =>
      obtain ⟨-, hstep⟩ := Except.guard_eq_ok.mp hstep
      exact callback_guarded hs hstep
  | endHandling loop =>
      obtain ⟨conn, -, rfl⟩ := endHandling_ok hstep
      exact hs.updateLoop rfl rfl rfl
  | swap loop =>
      obtain ⟨⟨-, -, -, hbatch⟩, hstep⟩ := Except.guard_eq_ok.mp hstep
      obtain rfl := Except.ok.inj hstep
      exact swap_guarded hs hbatch
  | runFunctor loop result =>
      obtain ⟨-, hstep⟩ := Except.guard_eq_ok.mp hstep
      exact runFunctor_guarded hs hstep
  | endFunctors loop =>
      obtain ⟨⟨-, hfunctors⟩, hstep⟩ := Except.guard_eq_ok.mp hstep
      obtain rfl := Except.ok.inj hstep
      exact endFunctors_guarded hs hfunctors
  | onTimerTick =>
      obtain ⟨-, hstep⟩ := Except.guard_eq_ok.mp hstep
      split at hstep
      next => cases hstep
      next =>
        obtain rfl := Except.ok.inj hstep
        exact hs.withWheel _
  | destroyEntry entry =>
      obtain ⟨-, hstep⟩ := Except.guard_eq_ok.mp hstep
      split at hstep
      next =>
        obtain rfl := Except.ok.inj hstep
        exact hs.withWheel _
      next hdies =>
        obtain rfl := Except.ok.inj hstep
        exact destroyEntry_guarded (hs.withWheel _) (hsafe (Bool.eq_false_iff.mpr hdies))
  | keep conn =>
      obtain ⟨-, hstep⟩ := Except.guard_eq_ok.mp hstep
      obtain rfl := Except.ok.inj hstep
      exact hs.of_same rfl rfl rfl rfl hcalls
  | drop conn =>
      obtain ⟨-, hstep⟩ := Except.guard_eq_ok.mp hstep
      obtain rfl := Except.ok.inj hstep
      exact hs.of_same rfl rfl rfl rfl hcalls
  | queueSend conn buf =>
      obtain ⟨⟨halive, -⟩, hstep⟩ := Except.guard_eq_ok.mp hstep
      obtain rfl := Except.ok.inj hstep
      exact hs.queueInLoop (hs.wellformed.own conn halive.1) halive.1 nofun
  | sendDirect conn buf result =>
      obtain ⟨⟨halive, -⟩, hstep⟩ := Except.guard_eq_ok.mp hstep
      obtain ⟨f, hf, hstep⟩ := Except.bind_eq_ok.mp hstep
      obtain rfl := Except.ok.inj hstep
      exact hs.absorb halive.1 (TcpConnection.send_keeps hf)
  | shutdown conn =>
      obtain ⟨halive, hstep⟩ := Except.guard_eq_ok.mp hstep
      obtain rfl := Except.ok.inj hstep
      exact shutdown_guarded hs halive.1 fun _ => hsafe
  | shutdownDirect conn =>
      obtain ⟨⟨halive, -⟩, hstep⟩ := Except.guard_eq_ok.mp hstep
      obtain rfl := Except.ok.inj hstep
      exact shutdown_guarded hs halive.1 nofun
  | user conn op =>
      obtain ⟨-, hstep⟩ := Except.guard_eq_ok.mp hstep
      obtain rfl := Except.ok.inj hstep
      exact hs.updateConn (by cases op <;> rfl) (by cases op <;> rfl)
  | testShutdown conn =>
      obtain ⟨⟨halive, -⟩, hstep⟩ := Except.guard_eq_ok.mp hstep
      obtain rfl := Except.ok.inj hstep
      refine hs.of_same rfl rfl rfl rfl fun call hmem => ?_
      rcases List.mem_append.mp hmem with hold | hnew
      · exact hcalls call hold
      · exact List.mem_singleton.mp hnew ▸ halive.1
  | testEntryShutdown entry =>
      obtain ⟨⟨-, -, -, halive, -⟩, hstep⟩ := Except.guard_eq_ok.mp hstep
      obtain rfl := Except.ok.inj hstep
      refine hs.of_same rfl rfl rfl rfl fun call hmem => ?_
      rcases List.mem_append.mp hmem with hold | hnew
      · exact hcalls call hold
      · exact List.mem_singleton.mp hnew ▸ halive.1
  | storeShutdown call =>
      obtain ⟨⟨hcall, -⟩, hstep⟩ := Except.guard_eq_ok.mp hstep
      obtain rfl := Except.ok.inj hstep
      have hstored : (s.updateConn call.conn ({ · with state := .kDisconnecting })).Guarded :=
        hs.updateConn rfl rfl
      refine hstored.of_same rfl rfl rfl rfl fun other hmem => ?_
      rcases List.mem_append.mp hmem with hold | hnew
      · exact hcalls other (List.mem_of_mem_erase hold)
      · exact List.mem_singleton.mp hnew ▸ hcalls call hcall
  | queueShutdown call =>
      obtain ⟨⟨hcall, -⟩, hstep⟩ := Except.guard_eq_ok.mp hstep
      obtain rfl := Except.ok.inj hstep
      have hqueued := queueShutdown_guarded hs hcall hsafe
      refine hqueued.of_same rfl rfl rfl rfl fun other hmem => ?_
      have hother := hcalls other (List.mem_of_mem_erase hmem)
      split <;> exact hother
  | destructor =>
      obtain ⟨-, hstep⟩ := Except.guard_eq_ok.mp hstep
      obtain rfl := Except.ok.inj hstep
      exact hs.of_same rfl rfl rfl rfl hcalls
  | destroyConnection conn =>
      obtain ⟨⟨-, hconn, -⟩, hstep⟩ := Except.guard_eq_ok.mp hstep
      exact destroyConnection_guarded hs hconn hsafe hstep
  | wheelDestructor =>
      obtain ⟨-, hstep⟩ := Except.guard_eq_ok.mp hstep
      obtain rfl := Except.ok.inj hstep
      exact hs.of_same rfl rfl rfl rfl hcalls
  | dropBucket =>
      obtain ⟨-, hstep⟩ := Except.guard_eq_ok.mp hstep
      obtain rfl := Except.ok.inj hstep
      exact hs.withWheel _
  | endDestructor =>
      obtain ⟨-, hstep⟩ := Except.guard_eq_ok.mp hstep
      obtain rfl := Except.ok.inj hstep
      exact hs.of_same rfl rfl rfl rfl hcalls

/-- **No queued functor outlives its connection**, when every step queues safely:
in every state reached, the functor that a loop is about to execute finds its
connection alive. -/
theorem functors_alive {listenAddr : InetAddress} {nameArg : String} {timeout numThreads : Nat}
    {schedule : List Action}
    (hsafe : EveryStep step QueuesSafely (initial listenAddr nameArg timeout numThreads) schedule)
    (hrun : run step (initial listenAddr nameArg timeout numThreads) schedule = .ok s)
    {loop : LoopId} {functor : Functor} {rest : List Functor}
    (hfunctors : (s.loops loop).functors = functor :: rest) : s.Alive functor.target := by
  have hguarded : s.Guarded :=
    run_invariant_of_everyStep step_guarded
      (initial_guarded listenAddr nameArg timeout numThreads) hsafe hrun
  have hmem : functor ∈ (s.loops loop).functors ++ (s.loops loop).pendingFunctors := by
    simp [hfunctors]
  exact hguarded.alive_of_mem hmem

/-- One connection on one sub-loop, with an idle timeout of a second. -/
def idleServer : System := initial ⟨fun _ => 0, 80⟩ "" 1 1

/-- The connection is established and times out. -/
def timeOut : List Action :=
  [.newConnection 5 false 0, .swap 1, .runFunctor 1 (.accepted 0), .endFunctors 1, .onTimerTick,
    .destroyEntry 0, .swap 1]

theorem functors_alive_timeOut : ∃ s, run step idleServer timeOut = .ok s ∧
    (s.loops 1).functors = [.shutdownInLoop 0] ∧ s.Alive 0 := by
  have hends : ends (fun s => decide ((s.loops 1).functors = [.shutdownInLoop 0]))
      (run step idleServer timeOut) = true := by decide +kernel
  obtain ⟨s, hrun, hcheck⟩ := exists_of_ends hends
  have hfunctors := of_decide_eq_true hcheck
  have hsafe : EveryStep step QueuesSafely idleServer timeOut := by decide +kernel
  exact ⟨s, hrun, hfunctors, functors_alive hsafe hrun hfunctors⟩

/-- The server is destroyed. The sub-loop has swapped `connectDestroyed` out when the
wheel goes and the entry calls `shutdown`, which finds the connection still connected.
The batch is the last owner of the connection. -/
def destroyServer : List Action :=
  [.newConnection 5 false 0, .swap 1, .runFunctor 1 (.accepted 0), .endFunctors 1, .destructor,
    .destroyConnection 0, .swap 1, .wheelDestructor, .dropBucket, .destroyEntry 0,
    .runFunctor 1 (.accepted 0), .endFunctors 1, .swap 1]

/-- Functors do outlive their connections. -/
theorem functors_alive_false :
    ¬ ∀ (listenAddr : InetAddress) (nameArg : String) (timeout numThreads : Nat)
      (schedule : List Action) (s : System) (loop : LoopId) (functor : Functor)
      (rest : List Functor),
      run step (initial listenAddr nameArg timeout numThreads) schedule = .ok s →
      (s.loops loop).functors = functor :: rest → s.Alive functor.target := by
  intro hclaim
  have hends : ends (fun s => decide ((s.loops 1).functors = [.shutdownInLoop 0] ∧ ¬ s.Alive 0))
      (run step idleServer destroyServer) = true := by decide +kernel
  obtain ⟨s, hrun, hcheck⟩ := exists_of_ends hends
  obtain ⟨hfunctors, hdead⟩ := of_decide_eq_true hcheck
  exact hdead (hclaim _ _ _ _ _ s 1 _ _ hrun hfunctors)

end System

end Muduo
