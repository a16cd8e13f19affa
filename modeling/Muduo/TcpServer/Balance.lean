import Muduo.TcpServer.Steady

/-! # Connections are spread evenly

`getNextLoop` goes round the sub-loops, and nothing but `newConnection` calls it. So the loop of a
connection follows from its number, and however many connections are closed in between, any
stretch of accepted connections is shared out evenly.
-/

open Transition

namespace Muduo

namespace EventLoopThreadPool

/-- The loop of the connection with this number. -/
def turn (numThreads : Nat) (conn : ConnId) : LoopId :=
  if numThreads = 0 then baseLoop else conn % numThreads + 1

/-- Going round once more. -/
theorem succ_mod_eq {numThreads : Nat} (hthreads : 0 < numThreads) (count : Nat) :
    (count + 1) % numThreads =
      if count % numThreads + 1 ≥ numThreads then 0 else count % numThreads + 1 := by
  have hlt := Nat.mod_lt count hthreads
  have hsplit : (count + 1) % numThreads = (count % numThreads + 1) % numThreads :=
    (Nat.mod_add_mod count numThreads 1).symm
  rw [hsplit]
  split
  next hlast =>
    have hround : count % numThreads + 1 = numThreads := by omega
    rw [hround, Nat.mod_self]
  next hfits => exact Nat.mod_eq_of_lt (by omega)

/-- The numbers of a stretch meet a residue as often as its length has whole rounds, and once more
at most. -/
theorem count_residue {numThreads residue : Nat} (hresidue : residue < numThreads)
    (first length : Nat) :
    length / numThreads ≤ Nat.count (fun offset => (first + offset) % numThreads = residue) length ∧
      Nat.count (fun offset => (first + offset) % numThreads = residue) length ≤
        (length + numThreads - 1) / numThreads := by
  have hthreads : 0 < numThreads := Nat.zero_lt_of_lt hresidue
  have hfirst := Nat.mod_lt first hthreads
  -- the offset that reaches the residue first
  have hoffset (offset : Nat) : (first + offset) % numThreads = residue ↔
      offset ≡ residue + (numThreads - first % numThreads) [MOD numThreads] := by
    have hshift : first + (residue + (numThreads - first % numThreads)) ≡ residue
        [MOD numThreads] := by
      have hround : first + (residue + (numThreads - first % numThreads)) =
          residue + numThreads * (first / numThreads + 1) := by
        have hdivision := Nat.div_add_mod first numThreads
        rw [Nat.mul_add, Nat.mul_one]
        omega
      rw [hround]
      exact Nat.add_mul_mod_self_left _ _ _
    constructor
    · intro hmod
      refine Nat.ModEq.add_left_cancel' first (Nat.ModEq.trans ?_ hshift.symm)
      rw [Nat.ModEq, hmod, Nat.mod_eq_of_lt hresidue]
    · intro hmod
      have hmeets := (hmod.add_left first).trans hshift
      rw [Nat.ModEq, Nat.mod_eq_of_lt hresidue] at hmeets
      exact hmeets
  simp only [hoffset]
  rw [Nat.count_modEq_card _ hthreads]
  refine ⟨Nat.le_add_right _ _, ?_⟩
  split
  next hrest =>
    -- an incomplete round rounds the quotient up
    have hround : (length + numThreads - 1) / numThreads = length / numThreads + 1 := by
      have hdivision := Nat.div_add_mod length numThreads
      have hmod := Nat.mod_lt length hthreads
      refine Nat.div_eq_of_lt_le ?_ ?_
      · rw [Nat.add_mul, Nat.one_mul, Nat.mul_comm]
        omega
      · rw [Nat.add_mul, Nat.add_mul, Nat.one_mul, Nat.mul_comm]
        omega
    rw [hround]
  next => exact Nat.div_le_div_right (by omega)

end EventLoopThreadPool

namespace System

variable {s next : System} {numThreads : Nat}

/-- The pool is where the number of accepted connections puts it, and each connection belongs to
the loop whose turn it was. -/
structure Shared (numThreads : Nat) (s : System) : Prop where
  threads : s.server.threadPool.numThreads = numThreads
  position : 0 < numThreads → s.server.threadPool.next = s.accepted % numThreads
  own : ∀ conn < s.accepted, s.own conn = EventLoopThreadPool.turn numThreads conn

theorem initial_shared (listenAddr : InetAddress) (nameArg : String) (timeout numThreads : Nat) :
    (initial listenAddr nameArg timeout numThreads).Shared numThreads where
  threads := rfl
  position := fun _ => (Nat.zero_mod numThreads).symm
  own := nofun

theorem Shared.steady (hs : s.Shared numThreads) (hsteady : Steady s next) :
    next.Shared numThreads where
  threads := by rw [hsteady.threadPool, hs.threads]
  position := by
    rw [hsteady.threadPool, hsteady.accepted]
    exact hs.position
  own := by
    intro conn hconn
    rw [hsteady.own]
    exact hs.own conn (hsteady.accepted ▸ hconn)

/-- The loop that `getNextLoop` returns, and where it leaves the pool. -/
theorem Shared.getNextLoop (hs : s.Shared numThreads) :
    s.server.threadPool.getNextLoop.1 = EventLoopThreadPool.turn numThreads s.accepted ∧
      s.server.threadPool.getNextLoop.2.numThreads = numThreads ∧
      (0 < numThreads →
        s.server.threadPool.getNextLoop.2.next = (s.accepted + 1) % numThreads) := by
  unfold EventLoopThreadPool.getNextLoop EventLoopThreadPool.turn
  rw [hs.threads]
  split
  next hnone => exact ⟨rfl, hs.threads, fun hthreads => absurd hnone (Nat.ne_of_gt hthreads)⟩
  next hsome =>
    have hthreads := Nat.pos_of_ne_zero hsome
    dsimp only
    rw [hs.position hthreads, EventLoopThreadPool.succ_mod_eq hthreads]
    exact ⟨rfl, rfl, fun _ => rfl⟩

theorem Shared.construct (hs : s.Shared numThreads) (sockfd : Int)
    (hasWriteCompleteCallback : Bool) :
    (s.construct sockfd hasWriteCompleteCallback).Shared numThreads := by
  obtain ⟨hloop, hthreads, hnext⟩ := hs.getNextLoop
  refine ⟨hthreads, hnext, fun conn hconn => ?_⟩
  rcases Nat.lt_succ_iff_lt_or_eq.mp hconn with hold | rfl
  · unfold System.own
    rw [construct_conns _ _ hold]
    exact hs.own conn hold
  · unfold System.own
    rw [construct_new]
    exact hloop

theorem step_shared (s : System) (action : Action) (next : System) (hs : s.Shared numThreads)
    (hstep : step s action = .ok next) : next.Shared numThreads := by
  by_cases hnew : ∃ sockfd hasWriteCompleteCallback now,
      action = .newConnection sockfd hasWriteCompleteCallback now
  · obtain ⟨sockfd, hasWriteCompleteCallback, now, rfl⟩ := hnew
    obtain ⟨-, hstep⟩ := Except.guard_eq_ok.mp hstep
    exact (hs.construct _ _).steady (newConnection_steady hstep)
  · refine hs.steady (step_steady (fun sockfd hasWriteCompleteCallback now heq => ?_) hstep)
    exact hnew ⟨sockfd, hasWriteCompleteCallback, now, heq⟩

/-- **Connections are shared out evenly.** With `numThreads` sub-loops each of them has been given
its share of any stretch of accepted connections, rounded up or down, and the base loop none;
without sub-loops the base loop has them all. -/
theorem connections_shared {listenAddr : InetAddress} {nameArg : String} {timeout : Nat}
    {schedule : List Action}
    (hrun : run step (initial listenAddr nameArg timeout numThreads) schedule = .ok s)
    {first length : Nat} (hstretch : first + length ≤ s.accepted) :
    (numThreads = 0 → ∀ conn < s.accepted, s.own conn = baseLoop) ∧
    ∀ index < numThreads,
      length / numThreads ≤ Nat.count (fun offset => s.own (first + offset) = index + 1) length ∧
      Nat.count (fun offset => s.own (first + offset) = index + 1) length ≤
        (length + numThreads - 1) / numThreads := by
  have hs := run_invariant step_shared (initial_shared listenAddr nameArg timeout numThreads) hrun
  refine ⟨fun hnone conn hconn => ?_, fun index hindex => ?_⟩
  · rw [hs.own conn hconn, EventLoopThreadPool.turn, if_pos hnone]
  · have hturn (offset : Nat) (hoffset : offset < length) : s.own (first + offset) = index + 1 ↔
        (first + offset) % numThreads = index := by
      rw [hs.own _ (by omega), EventLoopThreadPool.turn, if_neg (by omega)]
      exact Nat.succ_inj
    have hcount : Nat.count (fun offset => s.own (first + offset) = index + 1) length =
        Nat.count (fun offset => (first + offset) % numThreads = index) length := by
      rw [Nat.count_eq_card_filter_range, Nat.count_eq_card_filter_range]
      refine congrArg Finset.card (Finset.filter_congr fun offset hoffset => ?_)
      exact hturn offset (Finset.mem_range.mp hoffset)
    rw [hcount]
    exact EventLoopThreadPool.count_residue hindex first length

/-- Five connections on three sub-loops; the second of them has left when the fifth comes. -/
def fiveClients : List Action :=
  [.newConnection 21 false 0, .newConnection 22 false 0, .newConnection 23 false 0,
    .newConnection 24 false 0, .swap 2, .runFunctor 2 (.accepted 0), .endFunctors 2,
    .poll 2 [(22, EPOLLHUP)], .handleEvent 2, .callback 2 ⟨.received [], .other 0, .accepted 0⟩ 0,
    .endHandling 2, .newConnection 25 false 0]

theorem connections_shared_fiveClients : ∃ s,
    run step (initial ⟨fun _ => 0, 90⟩ "" 0 3) fiveClients = .ok s ∧
      ∀ index < 3, 1 ≤ Nat.count (fun offset => s.own (1 + offset) = index + 1) 4 ∧
        Nat.count (fun offset => s.own (1 + offset) = index + 1) 4 ≤ 2 := by
  have hends : ends (fun s => decide (s.accepted = 5))
      (run step (initial ⟨fun _ => 0, 90⟩ "" 0 3) fiveClients) = true := by decide +kernel
  obtain ⟨s, hrun, hcheck⟩ := exists_of_ends hends
  have hstretch : 1 + 4 ≤ s.accepted := Nat.le_of_eq (of_decide_eq_true hcheck).symm
  exact ⟨s, hrun, (connections_shared hrun hstretch).2⟩

end System

end Muduo
