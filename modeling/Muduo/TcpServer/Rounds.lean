import Muduo.TcpServer.Registry
import Muduo.TcpServer.Stage

/-! # The rounds of the loops

A functor waits at the loop of its connection, a removal at the base loop. Events
are handled while no batch is run, and a batch is run while no events are left.
Before its connection is established, nothing but that is queued for it.
-/

namespace Muduo

def IoLoop.tasks (loop : IoLoop) : List Functor := loop.functors ++ loop.pendingFunctors

/-- The loop has an event of the connection left to handle. -/
def IoLoop.Watches (loop : IoLoop) (conn : ConnId) : Prop :=
  conn ∈ loop.activeChannels ∨ loop.handling.map Prod.fst = some conn

instance (loop : IoLoop) (conn : ConnId) : Decidable (loop.Watches conn) :=
  inferInstanceAs (Decidable (_ ∨ _))

theorem IoLoop.tasks_subset_queued (loop : IoLoop) : loop.tasks ⊆ loop.queued := by
  unfold tasks queued
  rw [List.append_assoc]
  exact List.subset_append_right _ _

theorem IoLoop.Idle.not_watches {loop : IoLoop} (hidle : loop.Idle) (conn : ConnId) :
    ¬ loop.Watches conn := by
  rintro (hactive | hhandling)
  · rw [hidle.1] at hactive
    exact absurd hactive List.not_mem_nil
  · rw [hidle.2.1] at hhandling
    cases hhandling

namespace System

variable {s next : System} {conn : ConnId}

/-- The loop at which a functor waits. -/
def home (s : System) : Functor → LoopId
  | .removeConnectionInLoop _ => baseLoop
  | functor => s.own functor.target

structure Rounds (s : System) : Prop where
  placed : ∀ loop, ∀ functor ∈ (s.loops loop).queued,
    loop = s.home functor ∧ ∀ buf ∈ functor.messages, buf.length ≤ maxSize
  batches : ∀ loop conn, (s.loops loop).Watches conn → (s.loops loop).Batchless
  watching : ∀ loop conn, (s.loops loop).Watches conn → conn < s.accepted ∧ s.own conn = loop
  connecting : ∀ conn < s.accepted, (s.conns conn).state = .kConnecting →
    (s.conns conn).backlog = [] ∧
      ∀ loop, ∀ functor ∈ (s.loops loop).tasks, functor.target = conn →
        functor = .connectEstablished conn

theorem initial_rounds (listenAddr : InetAddress) (nameArg : String) (timeout numThreads : Nat) :
    (initial listenAddr nameArg timeout numThreads).Rounds := by
  refine ⟨?_, ?_, ?_, fun _ hconn => absurd hconn (Nat.not_lt_zero _)⟩
  · intro loop functor hmem
    simp [initial, IoLoop.create, IoLoop.queued] at hmem
  all_goals
    intro loop conn hwatches
    simp [initial, IoLoop.create, IoLoop.Watches] at hwatches

theorem Grows.home {added : LoopId → List Functor} (hgrows : Grows s next added)
    (functor : Functor) : next.home functor = s.home functor := by
  cases functor <;> simp only [System.home, hgrows.own]

theorem Grows.tasks {added : LoopId → List Functor} (hgrows : Grows s next added)
    (loop : LoopId) : (next.loops loop).tasks = (s.loops loop).tasks ++ added loop := by
  rw [IoLoop.tasks, hgrows.functors, hgrows.pending, IoLoop.tasks, List.append_assoc]

theorem Grows.batchless {added : LoopId → List Functor} (hgrows : Grows s next added)
    (loop : LoopId) : (next.loops loop).Batchless ↔ (s.loops loop).Batchless := by
  unfold IoLoop.Batchless
  rw [hgrows.executed, hgrows.functors]

/-- Functors are queued at the right loops, and nothing becomes watched. -/
theorem Rounds.grow (hs : s.Rounds) {added : LoopId → List Functor} (hgrows : Grows s next added)
    (hwatches : ∀ loop conn, (next.loops loop).Watches conn → (s.loops loop).Watches conn)
    (hadded : ∀ loop, ∀ functor ∈ added loop, loop = s.home functor ∧
      (∀ buf ∈ functor.messages, buf.length ≤ maxSize) ∧
      ((s.conns functor.target).state = .kConnecting →
        functor = .connectEstablished functor.target))
    (hstate : ∀ conn, (next.conns conn).state = .kConnecting →
      (s.conns conn).state = .kConnecting ∧
        (next.conns conn).backlog = (s.conns conn).backlog) : next.Rounds := by
  refine ⟨fun loop functor hmem => ?_, fun loop conn hwatched => ?_,
    fun loop conn hwatched => ?_, fun conn hconn hconnecting => ?_⟩
  · rw [hgrows.home]
    rcases hgrows.mem_queued.mp hmem with hold | hnew
    · exact hs.placed loop functor hold
    · obtain ⟨hhome, hfits, -⟩ := hadded loop functor hnew
      exact ⟨hhome, hfits⟩
  · rw [hgrows.batchless]
    exact hs.batches loop conn (hwatches loop conn hwatched)
  · rw [hgrows.accepted, hgrows.own]
    exact hs.watching loop conn (hwatches loop conn hwatched)
  · rw [hgrows.accepted] at hconn
    obtain ⟨hbefore, hbacklog⟩ := hstate conn hconnecting
    obtain ⟨hempty, honly⟩ := hs.connecting conn hconn hbefore
    refine ⟨hbacklog.trans hempty, fun loop functor hmem htarget => ?_⟩
    rw [hgrows.tasks] at hmem
    rcases List.mem_append.mp hmem with hold | hnew
    · exact honly loop functor hold htarget
    · have hsame := (hadded loop functor hnew).2.2
      rw [htarget] at hsame
      exact hsame hbefore

/-- The connection is not watched anew by what leaves events alone. -/
theorem watches_updateLoop {loop : LoopId} {change : IoLoop → IoLoop}
    (hactive : (change (s.loops loop)).activeChannels = (s.loops loop).activeChannels)
    (hhandling : (change (s.loops loop)).handling = (s.loops loop).handling) (other : LoopId)
    (conn : ConnId) :
    ((s.updateLoop loop change).loops other).Watches conn ↔ (s.loops other).Watches conn := by
  by_cases hother : other = loop
  · subst other
    rw [updateLoop_self, IoLoop.Watches, hactive, hhandling, IoLoop.Watches]
  · rw [updateLoop_of_ne hother]

/-- Batches are swapped, run and destroyed; nothing is queued. -/
theorem Rounds.batch (hs : s.Rounds) {loop : LoopId} {change : IoLoop → IoLoop}
    (hqueued : (change (s.loops loop)).queued ⊆ (s.loops loop).queued)
    (htasks : (change (s.loops loop)).tasks ⊆ (s.loops loop).tasks)
    (hactive : (change (s.loops loop)).activeChannels = (s.loops loop).activeChannels)
    (hhandling : (change (s.loops loop)).handling = (s.loops loop).handling)
    (hbatch : ∀ conn, (s.loops loop).Watches conn → (change (s.loops loop)).Batchless) :
    (s.updateLoop loop change).Rounds := by
  have hwatches := watches_updateLoop hactive hhandling
  have hloops (other : LoopId) :
      ((s.updateLoop loop change).loops other).queued ⊆ (s.loops other).queued ∧
        ((s.updateLoop loop change).loops other).tasks ⊆ (s.loops other).tasks := by
    by_cases hother : other = loop
    · subst other
      rw [updateLoop_self]
      exact ⟨hqueued, htasks⟩
    · rw [updateLoop_of_ne hother]
      exact ⟨List.Subset.refl _, List.Subset.refl _⟩
  refine ⟨fun other functor hmem => ?_, fun other conn hwatched => ?_,
    fun other conn hwatched => hs.watching other conn ((hwatches other conn).mp hwatched),
    fun conn hconn hconnecting => ?_⟩
  · exact hs.placed other functor ((hloops other).1 hmem)
  · rw [hwatches] at hwatched
    by_cases hother : other = loop
    · subst other
      rw [updateLoop_self]
      exact hbatch conn hwatched
    · rw [updateLoop_of_ne hother]
      exact hs.batches other conn hwatched
  · obtain ⟨hempty, honly⟩ := hs.connecting conn hconn hconnecting
    exact ⟨hempty, fun other functor hmem => honly other functor ((hloops other).2 hmem)⟩

/-- Events come and go while the loop runs no batch. -/
theorem Rounds.events (hs : s.Rounds) {loop : LoopId} {change : IoLoop → IoLoop}
    (hexecuted : (change (s.loops loop)).executed = (s.loops loop).executed)
    (hfunctors : (change (s.loops loop)).functors = (s.loops loop).functors)
    (hpending : (change (s.loops loop)).pendingFunctors = (s.loops loop).pendingFunctors)
    (hwatched : ∀ conn, (change (s.loops loop)).Watches conn →
      (s.loops loop).Watches conn ∨
        (s.loops loop).Batchless ∧ conn < s.accepted ∧ s.own conn = loop) :
    (s.updateLoop loop change).Rounds := by
  have hloops (other : LoopId) :
      ((s.updateLoop loop change).loops other).queued = (s.loops other).queued ∧
        ((s.updateLoop loop change).loops other).tasks = (s.loops other).tasks ∧
        (((s.updateLoop loop change).loops other).Batchless ↔ (s.loops other).Batchless) := by
    refine ⟨updateLoop_same IoLoop.queued ?_ other, updateLoop_same IoLoop.tasks ?_ other,
      Iff.of_eq (updateLoop_same IoLoop.Batchless ?_ other)⟩
    · rw [IoLoop.queued, hexecuted, hfunctors, hpending, IoLoop.queued]
    · rw [IoLoop.tasks, hfunctors, hpending, IoLoop.tasks]
    · rw [IoLoop.Batchless, hexecuted, hfunctors, IoLoop.Batchless]
  have hevents (other : LoopId) (conn : ConnId)
      (hmem : ((s.updateLoop loop change).loops other).Watches conn) :
      (s.loops other).Batchless ∧ conn < s.accepted ∧ s.own conn = other := by
    by_cases hother : other = loop
    · subst other
      rw [updateLoop_self] at hmem
      rcases hwatched conn hmem with hold | hnew
      · exact ⟨hs.batches loop conn hold, hs.watching loop conn hold⟩
      · exact hnew
    · rw [updateLoop_of_ne hother] at hmem
      exact ⟨hs.batches other conn hmem, hs.watching other conn hmem⟩
  refine ⟨fun other functor hmem => ?_, fun other conn hmem => ?_,
    fun other conn hmem => (hevents other conn hmem).2, fun conn hconn hconnecting => ?_⟩
  · rw [(hloops other).1] at hmem
    exact hs.placed other functor hmem
  · rw [(hloops other).2.2]
    exact (hevents other conn hmem).1
  · obtain ⟨hempty, honly⟩ := hs.connecting conn hconn hconnecting
    refine ⟨hempty, fun other functor hmem => ?_⟩
    rw [(hloops other).2.1] at hmem
    exact honly other functor hmem

theorem Rounds.of_same (hs : s.Rounds) (haccepted : next.accepted = s.accepted)
    (hconns : next.conns = s.conns) (hloops : next.loops = s.loops) : next.Rounds := by
  have hhome (functor : Functor) : next.home functor = s.home functor := by
    cases functor <;> simp only [home, own, hconns]
  refine ⟨?_, ?_, ?_, ?_⟩
  · rw [hloops]
    intro loop functor hmem
    rw [hhome]
    exact hs.placed loop functor hmem
  · rw [hloops]
    exact hs.batches
  · rw [hloops, haccepted]
    intro loop conn
    rw [own, hconns]
    exact hs.watching loop conn
  · rw [hloops, haccepted, hconns]
    exact hs.connecting

end System

end Muduo
