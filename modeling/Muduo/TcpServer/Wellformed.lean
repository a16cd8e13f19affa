import Muduo.TcpConnection.Queues
import Muduo.TcpServer.Basic

/-! # The server's records

The numbers, names and loops of the accepted connections, and what
`connections_` and the queues refer to. Most pieces of a step only add functors
to queues; `Grows` says so, and pieces in sequence add up.
-/

namespace Muduo

namespace System

variable {s middle next : System}

@[simp] theorem updateLoop_self (loop : LoopId) (change : IoLoop → IoLoop) (s : System) :
    (s.updateLoop loop change).loops loop = change (s.loops loop) :=
  Function.update_self ..

@[simp] theorem updateLoop_of_ne {loop other : LoopId} (hother : other ≠ loop)
    (change : IoLoop → IoLoop) (s : System) :
    (s.updateLoop loop change).loops other = s.loops other :=
  Function.update_of_ne hother ..

/-- What the change keeps of one loop is the same of every loop. -/
theorem updateLoop_same {α : Type*} (field : IoLoop → α) {loop : LoopId}
    {change : IoLoop → IoLoop} (hfield : field (change (s.loops loop)) = field (s.loops loop))
    (other : LoopId) : field ((s.updateLoop loop change).loops other) = field (s.loops other) := by
  by_cases hother : other = loop
  · subst other
    rw [updateLoop_self, hfield]
  · rw [updateLoop_of_ne hother]

@[simp] theorem updateConn_self (conn : ConnId) (change : TcpConnection → TcpConnection)
    (s : System) : (s.updateConn conn change).conns conn = change (s.conns conn) :=
  Function.update_self ..

@[simp] theorem updateConn_of_ne {conn other : ConnId} (hother : other ≠ conn)
    (change : TcpConnection → TcpConnection) (s : System) :
    (s.updateConn conn change).conns other = s.conns other :=
  Function.update_of_ne hother ..

@[simp] theorem absorb_self (conn : ConnId) (f : Frame) (s : System) :
    (s.absorb conn f).conns conn = f.conn :=
  updateConn_self conn (fun _ => f.conn) s

@[simp] theorem absorb_of_ne {conn other : ConnId} (hother : other ≠ conn) (f : Frame)
    (s : System) : (s.absorb conn f).conns other = s.conns other :=
  updateConn_of_ne hother (fun _ => f.conn) s

@[simp] theorem absorb_poller (conn : ConnId) (f : Frame) (s : System) :
    ((s.absorb conn f).loops (s.own conn)).poller = f.poller := by
  rw [absorb, updateLoop_self]

theorem absorb_loops_of_ne {conn : ConnId} {loop : LoopId} (hloop : loop ≠ s.own conn)
    (f : Frame) : (s.absorb conn f).loops loop = s.loops loop :=
  updateLoop_of_ne hloop _ (s.updateConn conn fun _ => f.conn)

@[simp] theorem own_updateLoop (loop : LoopId) (change : IoLoop → IoLoop) (s : System)
    (conn : ConnId) : (s.updateLoop loop change).own conn = s.own conn := rfl

/-- The functors that one loop is given. -/
def only (loop : LoopId) (functors : List Functor) : LoopId → List Functor :=
  Function.update (fun _ => []) loop functors

theorem mem_only {loop other : LoopId} {functors : List Functor} {functor : Functor} :
    functor ∈ only loop functors other ↔ other = loop ∧ functor ∈ functors := by
  by_cases hother : other = loop
  · subst other
    simp [only]
  · simp [only, hother]

/-- The connections keep their loops and names, and the queues gain the given
functors. -/
structure Grows (s next : System) (added : LoopId → List Functor) : Prop where
  server : next.server = { s.server with timerWheel := next.server.timerWheel }
  accepted : next.accepted = s.accepted
  own : ∀ conn, next.own conn = s.own conn
  names : ∀ conn, (next.conns conn).name = (s.conns conn).name
  executed : ∀ loop, (next.loops loop).executed = (s.loops loop).executed
  functors : ∀ loop, (next.loops loop).functors = (s.loops loop).functors
  pending : ∀ loop,
    (next.loops loop).pendingFunctors = (s.loops loop).pendingFunctors ++ added loop

theorem Grows.of_same
    (hserver : next.server = { s.server with timerWheel := next.server.timerWheel })
    (haccepted : next.accepted = s.accepted) (hown : ∀ conn, next.own conn = s.own conn)
    (hnames : ∀ conn, (next.conns conn).name = (s.conns conn).name)
    (hloops : next.loops = s.loops) : Grows s next fun _ => [] := by
  refine ⟨hserver, haccepted, hown, hnames, ?_, ?_, ?_⟩ <;> intro loop <;> rw [hloops]
  rw [List.append_nil]

theorem Grows.trans {early late : LoopId → List Functor} (hfirst : Grows s middle early)
    (hsecond : Grows middle next late) : Grows s next fun loop => early loop ++ late loop where
  server := by rw [hsecond.server, hfirst.server]
  accepted := hsecond.accepted.trans hfirst.accepted
  own := fun conn => (hsecond.own conn).trans (hfirst.own conn)
  names := fun conn => (hsecond.names conn).trans (hfirst.names conn)
  executed := fun loop => (hsecond.executed loop).trans (hfirst.executed loop)
  functors := fun loop => (hsecond.functors loop).trans (hfirst.functors loop)
  pending := fun loop => by rw [hsecond.pending, hfirst.pending, List.append_assoc]

theorem grows_record (loop : LoopId) (conn : ConnId) (milestone : Milestone) (s : System) :
    Grows s (s.record loop conn milestone) fun _ => [] :=
  .of_same rfl rfl (fun _ => rfl) (fun _ => rfl) rfl

theorem grows_withWheel (timerWheel : TimerWheel) (s : System) :
    Grows s (s.withWheel timerWheel) fun _ => [] :=
  .of_same rfl rfl (fun _ => rfl) (fun _ => rfl) rfl

theorem grows_updateConn {conn : ConnId} {change : TcpConnection → TcpConnection}
    (hloop : (change (s.conns conn)).loop = (s.conns conn).loop)
    (hname : (change (s.conns conn)).name = (s.conns conn).name) :
    Grows s (s.updateConn conn change) fun _ => [] := by
  refine .of_same rfl rfl (fun other => ?_) (fun other => ?_) rfl
  all_goals
    by_cases hother : other = conn
    · subst other
      simpa [updateConn, own] using ‹_›
    · simp [updateConn, own, hother]

theorem grows_updateLoop {loop : LoopId} {change : IoLoop → IoLoop} {added : List Functor}
    (hexecuted : (change (s.loops loop)).executed = (s.loops loop).executed)
    (hfunctors : (change (s.loops loop)).functors = (s.loops loop).functors)
    (hpending : (change (s.loops loop)).pendingFunctors =
      (s.loops loop).pendingFunctors ++ added) :
    Grows s (s.updateLoop loop change) (only loop added) := by
  refine ⟨rfl, rfl, fun _ => rfl, fun _ => rfl, updateLoop_same IoLoop.executed hexecuted,
    updateLoop_same IoLoop.functors hfunctors, fun other => ?_⟩
  by_cases hother : other = loop
  · subst other
    rw [updateLoop_self, hpending, only, Function.update_self]
  · rw [updateLoop_of_ne hother, only, Function.update_of_ne hother, List.append_nil]

theorem grows_queueInLoop (loop : LoopId) (functor : Functor) (s : System) :
    Grows s (s.queueInLoop loop functor) (only loop [functor]) :=
  grows_updateLoop rfl rfl rfl

theorem grows_absorb {conn : ConnId} {f : Frame} (hloop : f.conn.loop = s.own conn)
    (hname : f.conn.name = (s.conns conn).name) :
    Grows s (s.absorb conn f) (only (s.own conn) f.queued) := by
  have hconn : Grows s (s.updateConn conn fun _ => f.conn) fun _ => [] :=
    grows_updateConn hloop hname
  exact hconn.trans (grows_updateLoop rfl rfl rfl)

/-! ## Records -/

/-- What holds of the server's records. -/
structure Wellformed (s : System) : Prop where
  ipPort : s.server.ipPort.length ≤ InetAddress.maxLength
  bounded : s.accepted ≤ 2 ^ 32
  nextConnId : s.server.nextConnId = BitVec.ofNat 32 (s.accepted + 1)
  pool : s.server.threadPool.numThreads = 0 ∨
    s.server.threadPool.next < s.server.threadPool.numThreads
  own : ∀ conn < s.accepted, s.own conn ∈ s.loopIds
  names : ∀ conn < s.accepted, (s.conns conn).name =
    connName s.server.name s.server.ipPort (BitVec.ofNat 32 (conn + 1))
  mapped : ∀ name conn, s.server.connections name = some conn →
    conn < s.accepted ∧ (s.conns conn).name = name
  queued : ∀ loop, ∀ functor ∈ (s.loops loop).queued,
    loop ∈ s.loopIds ∧ functor.target < s.accepted
  calls : ∀ call ∈ s.calls, call.conn < s.accepted

theorem initial_wellformed (listenAddr : InetAddress) (nameArg : String)
    (timeout numThreads : Nat) :
    (initial listenAddr nameArg timeout numThreads).Wellformed where
  ipPort := listenAddr.toIpPort_length
  bounded := Nat.zero_le _
  nextConnId := rfl
  pool := by
    rcases Nat.eq_zero_or_pos numThreads with hzero | hpos
    · exact Or.inl hzero
    · exact Or.inr hpos
  own := nofun
  names := nofun
  mapped := nofun
  queued := by
    intro loop functor hmem
    simp [initial, IoLoop.create, IoLoop.queued] at hmem
  calls := nofun

theorem base_mem_loopIds (s : System) : baseLoop ∈ s.loopIds := by
  simp [loopIds, baseLoop]

theorem number_injective {first second : Nat} (hfirst : first < 2 ^ 32) (hsecond : second < 2 ^ 32)
    (heq : BitVec.ofNat 32 (first + 1) = BitVec.ofNat 32 (second + 1)) : first = second := by
  have hnat := congrArg BitVec.toNat heq
  simp only [BitVec.toNat_ofNat] at hnat
  omega

/-- Different connections have different names. -/
theorem Wellformed.names_injective (hs : s.Wellformed) {first second : ConnId}
    (hfirst : first < s.accepted) (hsecond : second < s.accepted)
    (hname : (s.conns first).name = (s.conns second).name) : first = second := by
  rw [hs.names first hfirst, hs.names second hsecond] at hname
  exact number_injective (lt_of_lt_of_le hfirst hs.bounded) (lt_of_lt_of_le hsecond hs.bounded)
    (connName_injective _ hs.ipPort hname)

theorem Grows.loopIds {added : LoopId → List Functor} (hgrows : Grows s next added) :
    next.loopIds = s.loopIds := by
  unfold System.loopIds
  rw [hgrows.server]

theorem Grows.mapped {added : LoopId → List Functor} (hgrows : Grows s next added)
    (conn : ConnId) : next.Mapped conn ↔ s.Mapped conn := by
  unfold Mapped
  rw [hgrows.names, hgrows.server]

theorem Grows.mem_queued {added : LoopId → List Functor} (hgrows : Grows s next added)
    {loop : LoopId} {functor : Functor} :
    functor ∈ (next.loops loop).queued ↔
      functor ∈ (s.loops loop).queued ∨ functor ∈ added loop := by
  simp only [IoLoop.queued, hgrows.executed, hgrows.functors, hgrows.pending, List.mem_append,
    or_assoc]

theorem Wellformed.grow (hs : s.Wellformed) {added : LoopId → List Functor}
    (hgrows : Grows s next added)
    (hadded : ∀ loop, ∀ functor ∈ added loop, loop ∈ s.loopIds ∧ functor.target < s.accepted)
    (hcalls : ∀ call ∈ next.calls, call.conn < s.accepted) : next.Wellformed where
  ipPort := by
    rw [hgrows.server]
    exact hs.ipPort
  bounded := by
    rw [hgrows.accepted]
    exact hs.bounded
  nextConnId := by
    rw [hgrows.server, hgrows.accepted]
    exact hs.nextConnId
  pool := by
    rw [hgrows.server]
    exact hs.pool
  own := by
    intro conn hconn
    rw [hgrows.own, hgrows.loopIds]
    exact hs.own conn (hgrows.accepted ▸ hconn)
  names := by
    intro conn hconn
    rw [hgrows.names, hgrows.server]
    exact hs.names conn (hgrows.accepted ▸ hconn)
  mapped := by
    intro name conn hmapped
    rw [hgrows.server] at hmapped
    rw [hgrows.accepted, hgrows.names]
    exact hs.mapped name conn hmapped
  queued := by
    intro loop functor hmem
    rw [hgrows.loopIds, hgrows.accepted]
    exact (hgrows.mem_queued.mp hmem).elim (hs.queued loop functor) (hadded loop functor)
  calls := by
    intro call hmem
    rw [hgrows.accepted]
    exact hcalls call hmem

/-- Batches are swapped, run and destroyed: no queue gains a functor. -/
theorem Wellformed.updateLoop (hs : s.Wellformed) {loop : LoopId} {change : IoLoop → IoLoop}
    (hqueued : (change (s.loops loop)).queued ⊆ (s.loops loop).queued) :
    (s.updateLoop loop change).Wellformed :=
  { hs with
    queued := by
      intro other functor hmem
      by_cases hother : other = loop
      · subst other
        rw [updateLoop_self] at hmem
        exact hs.queued loop functor (hqueued hmem)
      · rw [updateLoop_of_ne hother] at hmem
        exact hs.queued other functor hmem }

theorem Wellformed.unmap (hs : s.Wellformed) (conn : ConnId) : (s.unmap conn).Wellformed :=
  { hs with
    mapped := by
      intro name other hmapped
      by_cases hname : name = (s.conns conn).name
      · simp [System.unmap, hname] at hmapped
      · simp only [System.unmap, Function.update_of_ne hname] at hmapped
        exact hs.mapped name other hmapped }

theorem Wellformed.unmap_mapped (hs : s.Wellformed) {conn other : ConnId}
    (hconn : conn < s.accepted) (hlt : other < s.accepted) :
    (s.unmap conn).Mapped other ↔ s.Mapped other ∧ other ≠ conn := by
  unfold Mapped
  by_cases hother : other = conn
  · subst other
    simp [System.unmap]
  · have hname : (s.conns other).name ≠ (s.conns conn).name :=
      fun hname => hother (hs.names_injective hlt hconn hname)
    simp [System.unmap, hname, hother]

theorem getNextLoop_bound {pool : EventLoopThreadPool}
    (hpool : pool.numThreads = 0 ∨ pool.next < pool.numThreads) :
    pool.getNextLoop.1 < pool.numThreads + 1 ∧
      pool.getNextLoop.2.numThreads = pool.numThreads ∧
      (pool.getNextLoop.2.numThreads = 0 ∨
        pool.getNextLoop.2.next < pool.getNextLoop.2.numThreads) := by
  unfold EventLoopThreadPool.getNextLoop
  split
  next hzero => exact ⟨Nat.succ_pos _, rfl, Or.inl hzero⟩
  next hpos =>
    have hnext := hpool.resolve_left hpos
    refine ⟨Nat.succ_lt_succ hnext, rfl, Or.inr ?_⟩
    dsimp only
    split <;> omega

section Construct

variable (sockfd : Int) (hasWriteCompleteCallback : Bool)

theorem construct_conns {conn : ConnId} (hconn : conn < s.accepted) :
    (s.construct sockfd hasWriteCompleteCallback).conns conn = s.conns conn := by
  simp [construct, Nat.ne_of_lt hconn]

theorem construct_new :
    (s.construct sockfd hasWriteCompleteCallback).conns s.accepted =
      TcpConnection.create s.server.threadPool.getNextLoop.1
        (connName s.server.name s.server.ipPort s.server.nextConnId) sockfd
        hasWriteCompleteCallback false := by
  simp [construct]

theorem Wellformed.construct (hs : s.Wellformed) (hbounded : s.accepted < 2 ^ 32) :
    (s.construct sockfd hasWriteCompleteCallback).Wellformed := by
  obtain ⟨hloop, hthreads, hpool⟩ := getNextLoop_bound hs.pool
  have hids : (s.construct sockfd hasWriteCompleteCallback).loopIds = s.loopIds := by
    unfold loopIds
    rw [← hthreads]
    rfl
  refine ⟨hs.ipPort, hbounded, ?_, hpool, ?_, ?_, ?_, ?_, ?_⟩
  · simp only [System.construct, hs.nextConnId]
    exact BitVec.ofNat_add_ofNat _ _
  · intro conn hconn
    rw [hids]
    rcases Nat.lt_succ_iff_lt_or_eq.mp hconn with hold | rfl
    · rw [System.own, construct_conns _ _ hold]
      exact hs.own conn hold
    · rw [System.own, construct_new]
      exact List.mem_range.mpr hloop
  · intro conn hconn
    rcases Nat.lt_succ_iff_lt_or_eq.mp hconn with hold | rfl
    · rw [construct_conns _ _ hold]
      exact hs.names conn hold
    · rw [construct_new]
      exact congrArg (connName s.server.name s.server.ipPort) hs.nextConnId
  · intro name conn hmapped
    simp only [System.construct, Function.update_apply] at hmapped
    split at hmapped
    next hname =>
      obtain rfl := Option.some.inj hmapped
      rw [construct_new]
      exact ⟨Nat.lt_succ_self _, hname.symm⟩
    next =>
      obtain ⟨hold, hname⟩ := hs.mapped name conn hmapped
      rw [construct_conns _ _ hold]
      exact ⟨Nat.lt_succ_of_lt hold, hname⟩
  · intro loop functor hmem
    rw [hids]
    obtain ⟨hrange, htarget⟩ := hs.queued loop functor hmem
    exact ⟨hrange, Nat.lt_succ_of_lt htarget⟩
  · exact fun call hmem => Nat.lt_succ_of_lt (hs.calls call hmem)

/-- The name of a new connection is not in use. -/
theorem Wellformed.construct_mapped (hs : s.Wellformed) (hbounded : s.accepted < 2 ^ 32)
    {conn : ConnId} (hconn : conn < s.accepted) :
    (s.construct sockfd hasWriteCompleteCallback).Mapped conn ↔ s.Mapped conn := by
  have hname : (s.conns conn).name ≠
      connName s.server.name s.server.ipPort s.server.nextConnId := by
    rw [hs.names conn hconn, hs.nextConnId]
    intro hname
    have hnumber := number_injective (hconn.trans hbounded) hbounded
      (connName_injective _ hs.ipPort hname)
    exact absurd hnumber (Nat.ne_of_lt hconn)
  unfold Mapped
  rw [construct_conns _ _ hconn]
  simp [System.construct, hname]

end Construct

end System

end Muduo
