import Muduo.TcpServer.Advances

/-! # The contract of a running server

Over every run in which the server is not destroyed: when a connection is
established, handled, removed and destroyed, and how long it lives.
-/

open Transition

namespace Muduo

open TcpConnection

namespace System

variable {s next : System} {conn : ConnId}

/-- The server is not destroyed, every call of `shutdown` is one step, and fewer than
`2 ^ 31` connections are accepted. -/
def Regular (s : System) : Action → Prop
  | .newConnection .. => s.accepted + 1 < 2 ^ 31
  | .testShutdown _ | .testEntryShutdown _ | .storeShutdown _ | .queueShutdown _ => False
  | .destructor | .destroyConnection _ | .wheelDestructor | .dropBucket | .endDestructor => False
  | _ => True

instance (s : System) : (action : Action) → Decidable (s.Regular action) := by
  rintro ⟨⟩ <;> dsimp only [Regular] <;> infer_instance

/-- A connected connection is still mapped. -/
theorem Invariant.referenced (hs : s.Invariant) (halive : s.Alive conn)
    (hconnected : (s.conns conn).state = .kConnected) : s.Referenced conn := by
  have hlaw := hs.laws conn halive.1
  refine Or.inl (Or.inl (of_decide_eq_true (hlaw.mapped.mpr ?_)))
  -- only closed connections are removed
  by_contra hremoved
  have hclosed : (s.conns conn).state = .kDisconnected := hlaw.closed (by omega)
  rw [hconnected] at hclosed
  cases hclosed

theorem Regular.queuesSafely (hs : s.Invariant) {action : Action} (hregular : s.Regular action)
    (hstep : step s action = .ok next) : s.QueuesSafely action := by
  cases action with
  | newConnection sockfd hasWriteCompleteCallback now =>
      have hbounded : s.accepted + 1 < 2 ^ 31 := hregular
      change s.accepted < 2 ^ 32
      omega
  | shutdown conn =>
      obtain ⟨halive, -⟩ := Except.guard_eq_ok.mp hstep
      exact hs.referenced halive
  | destroyEntry entry =>
      -- the wheel and its entries hold no reference
      exact fun _ halive _ hconnected => hs.referenced halive hconnected
  | testShutdown | testEntryShutdown | storeShutdown | queueShutdown => exact hregular.elim
  | destructor | destroyConnection | wheelDestructor | dropBucket | endDestructor =>
      exact hregular.elim
  | poll | handleEvent | callback | endHandling | swap | runFunctor | endFunctors => trivial
  | onTimerTick | keep | drop | queueSend | sendDirect | shutdownDirect | user => trivial

/-! ## Steps -/

/-- Batches do not change the stages. -/
theorem batch_advances (hs : s.Invariant) {loop : LoopId} {change : IoLoop → IoLoop}
    (hqueued : (change (s.loops loop)).queued ⊆ (s.loops loop).queued)
    (htasks : (change (s.loops loop)).tasks = (s.loops loop).tasks)
    (hactive : (change (s.loops loop)).activeChannels = (s.loops loop).activeChannels)
    (hhandling : (change (s.loops loop)).handling = (s.loops loop).handling)
    (hguard : (change (s.loops loop)).guard = (s.loops loop).guard)
    (hpoller : (change (s.loops loop)).poller = (s.loops loop).poller)
    (hbatch : ∀ conn, (s.loops loop).Watches conn → (change (s.loops loop)).Batchless) :
    Advances s (s.updateLoop loop change) := by
  have hsubset : (change (s.loops loop)).tasks ⊆ (s.loops loop).tasks := by
    rw [htasks]
    exact List.Subset.refl _
  exact .of_same (hs.records.batch hqueued hsubset hactive hhandling hguard hpoller hbatch) rfl
    fun other _ => stage_batch htasks hactive hhandling other

theorem swap_advances (hs : s.Invariant) {loop : LoopId} (hidle : (s.loops loop).Idle) :
    Advances s (s.updateLoop loop IoLoop.swapFunctors) := by
  obtain ⟨hexecuted, hfunctors⟩ := hidle.2.2
  refine batch_advances hs ?_ ?_ rfl rfl rfl rfl fun conn hwatches => ?_
  · simp [IoLoop.queued, IoLoop.swapFunctors, hexecuted, hfunctors]
  · simp [IoLoop.tasks, IoLoop.swapFunctors, hfunctors]
  · exact absurd hwatches (hidle.not_watches conn)

theorem endFunctors_advances (hs : s.Invariant) {loop : LoopId}
    (hfunctors : (s.loops loop).functors = []) :
    Advances s (s.updateLoop loop IoLoop.destroyBatch) := by
  refine batch_advances hs ?_ rfl rfl rfl rfl rfl fun conn _ => ⟨rfl, hfunctors⟩
  simp [IoLoop.queued, IoLoop.destroyBatch]

theorem references_advances (hs : s.Invariant) {references : List ConnId}
    (halive : ∀ conn ∈ references, conn ∈ s.references ∨ s.Alive conn) :
    Advances s { s with references } :=
  .of_same (hs.records.of_same rfl rfl rfl rfl rfl rfl rfl halive) rfl fun _ _ => rfl

theorem withWheel_advances (hs : s.Invariant) (timerWheel : TimerWheel) :
    Advances s (s.withWheel timerWheel) :=
  .of_same (withWheel_records hs.records timerWheel) rfl fun _ _ => rfl

/-- A message is queued for a connection that is not connecting any more. -/
theorem queueSend_advances (hs : s.Invariant) (halive : s.Alive conn)
    (hopen : (s.conns conn).state ≠ .kConnecting) (buf : CppString) :
    Advances s (s.queueInLoop (s.own conn) (.sendInLoop conn buf.bytes)) := by
  have hgrows := grows_queueInLoop (s.own conn) (.sendInLoop conn buf.bytes) s
  have hqueued : (s.queueInLoop (s.own conn) (.sendInLoop conn buf.bytes)).Records := by
    refine hs.records.queueInLoop halive rfl ?_ fun hconnecting => absurd hconnecting hopen
    simpa [Functor.messages] using buf.fits
  refine .of_same hqueued rfl fun other _ => ?_
  rw [hgrows.stage (List.append_nil _).symm other]
  simp only [count_only, watches_queueInLoop, List.count_nil, Nat.add_zero, reduceCtorEq,
    and_false, ↓reduceIte]
  rfl

/-- The channels that a poll reports are activated one after the other. -/
theorem poll_invariant (hs : s.Invariant) {loop : LoopId} {events : List (Int × EventMask)}
    (hbatch : (s.loops loop).Batchless)
    (hpoll : run (fillActiveChannel loop) s events = .ok next) : next.Invariant := by
  have hpreserved (s : System) (event : Int × EventMask) (next : System)
      (hs : s.Invariant ∧ (s.loops loop).Batchless)
      (hfill : fillActiveChannel loop s event = .ok next) :
      next.Invariant ∧ (next.loops loop).Batchless := by
    obtain ⟨hadvances, -, hafter⟩ := fillActiveChannel_advances hs.1 event hs.2 hfill
    exact ⟨hadvances.invariant hs.1 (fillActiveChannel_guarded event hs.1.guarded hfill), hafter⟩
  exact (run_invariant hpreserved ⟨hs, hbatch⟩ hpoll).1

/-- A step other than a poll. -/
theorem step_advances (hs : s.Invariant) {action : Action} (hregular : s.Regular action)
    (hpoll : ∀ loop events, action ≠ .poll loop events) (hstep : step s action = .ok next) :
    Advances s next := by
  cases action with
  | newConnection sockfd hasWriteCompleteCallback now =>
      obtain ⟨⟨-, -, -, -, hfd⟩, hstep⟩ := Except.guard_eq_ok.mp hstep
      simp only [List.mem_range] at hfd
      have hbounded : s.accepted + 1 < 2 ^ 31 := hregular
      exact newConnection_advances hs (by omega) hfd hstep
  | poll loop events => exact absurd rfl (hpoll loop events)
  | handleEvent loop =>
      obtain ⟨⟨-, hhandling, -⟩, hstep⟩ := Except.guard_eq_ok.mp hstep
      exact handleEvent_advances hs hhandling hstep
  | callback loop calls now =>
      obtain ⟨-, hstep⟩ := Except.guard_eq_ok.mp hstep
      exact callback_advances hs hstep
  | endHandling loop =>
      obtain ⟨conn, -, rfl⟩ := endHandling_ok hstep
      exact endHandling_advances hs loop
  | swap loop =>
      obtain ⟨⟨-, hidle⟩, hstep⟩ := Except.guard_eq_ok.mp hstep
      obtain rfl := Except.ok.inj hstep
      exact swap_advances hs hidle
  | runFunctor loop result =>
      obtain ⟨-, hstep⟩ := Except.guard_eq_ok.mp hstep
      exact runFunctor_advances hs hstep
  | endFunctors loop =>
      obtain ⟨⟨-, hfunctors⟩, hstep⟩ := Except.guard_eq_ok.mp hstep
      obtain rfl := Except.ok.inj hstep
      exact endFunctors_advances hs hfunctors
  | onTimerTick =>
      obtain ⟨-, hstep⟩ := Except.guard_eq_ok.mp hstep
      split at hstep
      next => cases hstep
      next =>
        obtain rfl := Except.ok.inj hstep
        exact withWheel_advances hs _
  | destroyEntry entry =>
      obtain ⟨-, hstep⟩ := Except.guard_eq_ok.mp hstep
      have hwheel := withWheel_advances hs (s.server.timerWheel.release entry)
      split at hstep
      next =>
        obtain rfl := Except.ok.inj hstep
        exact hwheel
      next =>
        obtain rfl := Except.ok.inj hstep
        have hinvariant := hwheel.invariant hs (hs.guarded.withWheel _)
        exact hwheel.trans (destroyEntry_advances hinvariant) rfl
  | keep conn =>
      obtain ⟨halive, hstep⟩ := Except.guard_eq_ok.mp hstep
      obtain rfl := Except.ok.inj hstep
      refine references_advances hs fun other hmem => ?_
      rcases List.mem_append.mp hmem with hold | hnew
      · exact Or.inl hold
      · exact Or.inr (List.mem_singleton.mp hnew ▸ halive)
  | drop conn =>
      obtain ⟨-, hstep⟩ := Except.guard_eq_ok.mp hstep
      obtain rfl := Except.ok.inj hstep
      exact references_advances hs fun _ hmem => Or.inl (List.mem_of_mem_erase hmem)
  | queueSend conn buf =>
      obtain ⟨⟨halive, hopen⟩, hstep⟩ := Except.guard_eq_ok.mp hstep
      obtain rfl := Except.ok.inj hstep
      exact queueSend_advances hs halive hopen buf
  | sendDirect conn buf result =>
      obtain ⟨⟨halive, -⟩, hstep⟩ := Except.guard_eq_ok.mp hstep
      obtain ⟨f, hf, hstep⟩ := Except.bind_eq_ok.mp hstep
      obtain rfl := Except.ok.inj hstep
      exact sendDirect_advances hs halive hf
  | shutdown conn =>
      obtain ⟨halive, hstep⟩ := Except.guard_eq_ok.mp hstep
      obtain rfl := Except.ok.inj hstep
      exact shutdown_advances hs halive false
  | shutdownDirect conn =>
      obtain ⟨⟨halive, -⟩, hstep⟩ := Except.guard_eq_ok.mp hstep
      obtain rfl := Except.ok.inj hstep
      exact shutdown_advances hs halive true
  | user conn op =>
      obtain ⟨-, hstep⟩ := Except.guard_eq_ok.mp hstep
      obtain rfl := Except.ok.inj hstep
      exact user_advances hs conn op
  | testShutdown | testEntryShutdown | storeShutdown | queueShutdown => exact hregular.elim
  | destructor | destroyConnection | wheelDestructor | dropBucket | endDestructor =>
      exact hregular.elim

theorem step_invariant (s : System) (action : Action) (next : System) (hs : s.Invariant)
    (hregular : s.Regular action) (hstep : step s action = .ok next) : next.Invariant := by
  by_cases hpoll : ∃ loop events, action = .poll loop events
  · obtain ⟨loop, events, rfl⟩ := hpoll
    obtain ⟨⟨-, ⟨-, -, hbatch⟩, -⟩, hstep⟩ := Except.guard_eq_ok.mp hstep
    exact poll_invariant hs hbatch hstep
  · have hother (loop : LoopId) (events : List (Int × EventMask)) : action ≠ .poll loop events :=
      fun heq => hpoll ⟨loop, events, heq⟩
    exact (step_advances hs hregular hother hstep).invariant hs
      (step_guarded s action next hs.guarded (hregular.queuesSafely hs hstep) hstep)

/-! ## The contract -/

/-- What the server promises about an accepted connection. -/
structure Contract (s : System) (conn : ConnId) : Prop where
  /-- its establishment has run once, or waits to -/
  once : s.log.count ⟨s.own conn, conn, .established⟩ +
    (s.loops (s.own conn)).tasks.count (.connectEstablished conn) = 1
  /-- its own loop does everything but the removal -/
  placed : ∀ loop milestone, ⟨loop, conn, milestone⟩ ∈ s.log →
    loop = if milestone = .removed then baseLoop else s.own conn
  /-- no handler runs before the establishment or after the destruction -/
  handled : ∀ before after loop callback,
    s.log = before ++ ⟨loop, conn, .handled callback⟩ :: after →
      ⟨loop, conn, .established⟩ ∈ before ∧ ⟨loop, conn, .destroyed⟩ ∉ before
  mapped : s.Mapped conn ↔ ⟨baseLoop, conn, .removed⟩ ∉ s.log
  /-- the object outlives its `connectDestroyed` -/
  destroyed : ¬ s.Alive conn → ⟨s.own conn, conn, .destroyed⟩ ∈ s.log
  /-- after that no loop handles an event of it and no poller knows it -/
  gone : ⟨s.own conn, conn, .destroyed⟩ ∈ s.log → ∀ loop,
    ¬ (s.loops loop).Watches conn ∧ ∀ fd, ¬ (s.loops loop).poller.Refers fd conn
  /-- what the loops will touch is alive -/
  alive : ∀ loop, ((s.loops loop).Watches conn ∨ (∃ fd, (s.loops loop).poller.Refers fd conn) ∨
    ∃ functor ∈ (s.loops loop).tasks, functor.target = conn) → s.Alive conn

theorem Invariant.contract (hs : s.Invariant) (hconn : conn < s.accepted) : s.Contract conn := by
  have hlaw := hs.laws conn hconn
  have hregistry := hs.records.registry
  refine ⟨hlaw.once, fun loop milestone => hs.records.chronicle.placed ⟨loop, conn, milestone⟩,
    fun before after loop => hs.records.chronicle.ordered before after loop conn, ?_,
    fun hdead => ?_, fun hdestroyed loop => ⟨fun hwatches => ?_, fun fd hrefers => ?_⟩,
    fun loop htouches => ?_⟩
  · exact decide_eq_true_iff.symm.trans (hlaw.mapped.trans List.count_eq_zero)
  · by_contra hnone
    exact hdead (hs.alive hconn (List.count_eq_zero.mpr hnone))
  · obtain ⟨-, -, -, -, hnone⟩ := hs.of_watches hwatches
    exact List.count_eq_zero.mp hnone hdestroyed
  · have hindex := (hregistry.owned loop fd conn hrefers).2.2.2
    exact hindex (hlaw.gone (List.count_pos_iff.mpr hdestroyed)).1
  · rcases htouches with hwatches | ⟨fd, hrefers⟩ | ⟨functor, hmem, rfl⟩
    · exact (hs.of_watches hwatches).1
    · have hindex := (hregistry.owned loop fd conn hrefers).2.2.2
      exact hs.alive hconn (hlaw.of_registered hindex).2
    · exact hs.guarded.alive_of_mem hmem

/-- **The lifecycle of every connection**, in every state a running server reaches.
The names of `connections_` are those of accepted connections. -/
theorem connections_lifecycle {listenAddr : InetAddress} {nameArg : String}
    {timeout numThreads : Nat} {schedule : List Action}
    (hregular : EveryStep step Regular (initial listenAddr nameArg timeout numThreads) schedule)
    (hrun : run step (initial listenAddr nameArg timeout numThreads) schedule = .ok s) :
    (∀ conn < s.accepted, s.Contract conn) ∧
      ∀ name conn, s.server.connections name = some conn →
        conn < s.accepted ∧ (s.conns conn).name = name := by
  have hs : s.Invariant :=
    run_invariant_of_everyStep step_invariant
      (initial_invariant listenAddr nameArg timeout numThreads) hregular hrun
  exact ⟨fun conn hconn => hs.contract hconn, hs.guarded.wellformed.mapped⟩

/-- The peer of a connection on the sub-loop closes it. The removal goes to the base
loop and the destruction back. -/
def peerCloses : List Action :=
  [.newConnection 5 false 0, .swap 1, .runFunctor 1 (.accepted 0), .endFunctors 1,
    .poll 1 [(5, EPOLLIN)], .handleEvent 1, .callback 1 ⟨.received [], .other 0, .accepted 0⟩ 0,
    .endHandling 1, .swap 0, .runFunctor 0 (.accepted 0), .endFunctors 0, .swap 1,
    .runFunctor 1 (.accepted 0), .endFunctors 1]

theorem connections_lifecycle_peerCloses : ∃ s, run step idleServer peerCloses = .ok s ∧
    s.log = [⟨1, 0, .established⟩, ⟨1, 0, .handled .read⟩, ⟨0, 0, .removed⟩,
      ⟨1, 0, .destroyed⟩] ∧ ¬ s.Alive 0 ∧ s.Contract 0 := by
  have hends : ends (fun s => decide (s.accepted = 1 ∧ ¬ s.Alive 0 ∧
      s.log = [⟨1, 0, .established⟩, ⟨1, 0, .handled .read⟩, ⟨0, 0, .removed⟩,
        ⟨1, 0, .destroyed⟩])) (run step idleServer peerCloses) = true := by decide +kernel
  obtain ⟨s, hrun, hcheck⟩ := exists_of_ends hends
  obtain ⟨haccepted, hdead, hlog⟩ := of_decide_eq_true hcheck
  have hregular : EveryStep step Regular idleServer peerCloses := by decide +kernel
  have hlifecycle := connections_lifecycle hregular hrun
  exact ⟨s, hrun, hlog, hdead, hlifecycle.1 0 (haccepted ▸ Nat.one_pos)⟩

end System

end Muduo
