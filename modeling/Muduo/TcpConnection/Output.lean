import Muduo.TcpConnection.Invariant

/-! # The output stream

Every message passed to `sendInLoop` is written or buffered in order, and the
messages of one thread stay in the order of its calls. What is buffered is never
written: `handleWrite` asks `isWriting`, which is false while reading is enabled.
For the same reason `shutdownInLoop` half-closes whatever is buffered, so a
half-close loses bytes exactly when some write before it was short.
-/

open Transition

namespace Muduo

namespace IoEvent

/-- A write after which the peer is gone. -/
def isFault : IoEvent → Bool
  | .write _ (.failed errno) => TcpConnection.isFault errno
  | _ => false

/-- A write that leaves bytes for the buffer. -/
def isShort : IoEvent → Bool
  | .write offered (.accepted count) => count < offered.length
  | .write offered (.failed errno) => !TcpConnection.isFault errno && offered != []
  | _ => false

/-- The bytes the socket has accepted. -/
def accepted : IoEvent → List UInt8
  | .write offered (.accepted count) => offered.take count
  | _ => []

end IoEvent

/-- The messages of a task that a thread has sent. -/
def Task.sentBy (thread : ThreadId) (task : Task) : List (List UInt8) :=
  if task.sender = some thread then task.functor.messages else []

namespace TcpConnection

variable {cause : Cause} {state after : StateE} {before left : List UInt8}
  {sent : List (List UInt8)} {events : List IoEvent}

/-! ## Effects on the stream -/

theorem SendCase.no_shutdownWrite {data : List UInt8} (hcase : SendCase data before events left)
    (unsent : Nat) : .shutdownWrite unsent ∉ events := by
  cases hcase <;> simp

theorem Effect.halfCloses (heffect : Effect cause state before sent events after left)
    (hcause : cause = .halfClose) : events = [.shutdownWrite before.length] := by
  cases heffect <;> first | rfl | cases hcause

theorem Effect.not_halfCloses (heffect : Effect cause state before sent events after left)
    (hcause : cause ≠ .halfClose) (unsent : Nat) : .shutdownWrite unsent ∉ events := by
  cases heffect with
  | message hstate hcase => exact hcase.no_shutdownWrite unsent
  | halfClose | shutdownHalfClose => exact absurd rfl hcause
  | quiet | refuse | shutdown | writeComplete | highWaterMark | close | deliver | establish
  | destroy | remove => simp

/-- Without a fault, a message goes to the socket and the rest to the buffer. -/
theorem SendCase.stream {data : List UInt8} (hcase : SendCase data before events left)
    (hfault : ∀ event ∈ events, event.isFault = false) :
    events.flatMap IoEvent.accepted ++ left = before ++ data := by
  cases hcase with
  | accepted count hcount => simp [IoEvent.accepted]
  | dropped errno herrno => simp [IoEvent.isFault, herrno] at hfault
  | kept errno herrno => simp [IoEvent.accepted]
  | buffered backlog hbacklog => simp

theorem Effect.stream (heffect : Effect cause state before sent events after left)
    (hafter : after ≠ .kDisconnected) (hfault : ∀ event ∈ events, event.isFault = false) :
    events.flatMap IoEvent.accepted ++ left = before ++ sent.flatten := by
  cases heffect with
  | message hstate hcase =>
      rw [hcase.stream hfault]
      simp
  | close | destroy | refuse => exact absurd rfl hafter
  | quiet | shutdown | writeComplete | highWaterMark | halfClose | shutdownHalfClose | deliver
  | establish | remove => simp [IoEvent.accepted]

/-- Bytes are buffered by a short write only, and then never leave. -/
theorem SendCase.short {data : List UInt8} (hcase : SendCase data before events left) :
    left ≠ [] ↔ before ≠ [] ∨ ∃ event ∈ events, event.isShort = true := by
  cases hcase with
  | accepted count hcount => simp [IoEvent.isShort, List.drop_eq_nil_iff]
  | dropped errno herrno => simp [IoEvent.isShort, herrno]
  | kept errno herrno => simp [IoEvent.isShort, herrno]
  | buffered backlog hbacklog => simp [hbacklog]

theorem Effect.short (heffect : Effect cause state before sent events after left) :
    left ≠ [] ↔ before ≠ [] ∨ ∃ event ∈ events, event.isShort = true := by
  cases heffect with
  | message hstate hcase => exact hcase.short
  | quiet | refuse | shutdown | writeComplete | highWaterMark | halfClose | shutdownHalfClose
  | close | deliver | establish | destroy | remove => simp [IoEvent.isShort]

namespace System

variable {ptr : ConnId} {s next : System} {action : Action}

/-- Without a fault, what the socket has accepted and what is buffered are the
executed messages in order. -/
def Streams (s : System) : Prop :=
  s.conn.state ≠ .kDisconnected → (∀ event ∈ s.events, event.isFault = false) →
    s.events.flatMap IoEvent.accepted ++ s.conn.backlog = s.executed.flatMap Prod.snd

theorem Moves.streams (hmoves : Moves cause s next sent events) (hs : s.Streams) :
    next.Streams := by
  intro hopen hfault
  rw [hmoves.calls] at hfault ⊢
  have hbefore : s.conn.state ≠ .kDisconnected :=
    fun hclosed => hopen (hmoves.effect.stays_disconnected hclosed)
  have hold := hs hbefore fun event hmem => hfault event (List.mem_append_left _ hmem)
  have hnew := hmoves.effect.stream hopen fun event hmem =>
    hfault event (List.mem_append_right _ hmem)
  have hexecuted : next.executed.flatMap Prod.snd =
      s.executed.flatMap Prod.snd ++ sent.flatten := by
    rw [List.flatMap_def, hmoves.messages, List.flatten_append, List.flatMap_def]
  rw [List.flatMap_append, List.append_assoc, hnew, hexecuted, ← hold, List.append_assoc]

/-- Something is buffered exactly when some write was short. -/
def Backlogged (s : System) : Prop :=
  s.conn.backlog ≠ [] ↔ ∃ event ∈ s.events, event.isShort = true

theorem Moves.backlogged (hmoves : Moves cause s next sent events) (hs : s.Backlogged) :
    next.Backlogged := by
  unfold Backlogged at hs ⊢
  rw [hmoves.effect.short, hs, hmoves.calls]
  simp only [List.mem_append, or_and_right, exists_or]

/-! ## The order of each thread's messages -/

def executedBy (s : System) (thread : ThreadId) : List (List UInt8) :=
  (s.executed.filter (·.1 = some thread)).map Prod.snd

def queuedBy (s : System) (thread : ThreadId) : List (List UInt8) :=
  s.tasks.flatMap (Task.sentBy thread)

def calledBy (s : System) (thread : ThreadId) : List (List UInt8) :=
  (s.called.filter (·.1 = thread)).map Prod.snd

/-- The messages a thread has sent are executed, queued, or about to be queued,
in the order of the calls. -/
def InOrder (s : System) : Prop :=
  ∀ thread, s.executedBy thread ++ s.queuedBy thread ++ (s.calling thread).toList =
    s.calledBy thread

theorem tasks_absorb (s : System) (f : Frame) :
    (s.absorb f).tasks = s.tasks ++ f.queued.map (⟨·, none⟩) := by
  simp only [tasks, System.absorb, List.append_assoc]

/-- Functors without a sender carry no message of a thread. -/
theorem sentBy_none (queued : List Functor) (thread : ThreadId) :
    (queued.map (Task.mk · none)).flatMap (Task.sentBy thread) = [] := by
  rw [List.flatMap_eq_nil_iff]
  intro task hmem
  obtain ⟨functor, -, rfl⟩ := List.mem_map.mp hmem
  simp [Task.sentBy]

theorem InOrder.of_queued (hs : s.InOrder) (queued : List Functor)
    (htasks : next.tasks = s.tasks ++ queued.map (⟨·, none⟩))
    (hcalling : next.calling = s.calling) (hcalled : next.called = s.called)
    (hexecuted : ∀ thread, next.executedBy thread = s.executedBy thread) : next.InOrder := by
  intro thread
  have hqueued : next.queuedBy thread = s.queuedBy thread := by
    unfold queuedBy
    rw [htasks, List.flatMap_append, sentBy_none, List.append_nil]
  have hcalls : next.calledBy thread = s.calledBy thread := by
    unfold calledBy
    rw [hcalled]
  rw [hexecuted, hqueued, hcalling, hcalls]
  exact hs thread

theorem InOrder.absorb (hs : s.InOrder) {f : Frame} (htasks : next.tasks = (s.absorb f).tasks)
    (hcalling : next.calling = s.calling) (hcalled : next.called = s.called)
    (hexecuted : next.executed = s.executed) : next.InOrder :=
  hs.of_queued f.queued (htasks.trans (tasks_absorb s f)) hcalling hcalled
    fun thread => by rw [executedBy, hexecuted, executedBy]

theorem InOrder.of_same (hs : s.InOrder) (htasks : next.tasks = s.tasks)
    (hcalling : next.calling = s.calling) (hcalled : next.called = s.called)
    (hexecuted : next.executed = s.executed) : next.InOrder :=
  hs.of_queued [] (by simp [htasks]) hcalling hcalled
    fun thread => by rw [executedBy, hexecuted, executedBy]

theorem send_inOrder (hs : s.InOrder) {thread : ThreadId} {buf : CppString}
    (hstep : step ptr s (.send thread buf) = .ok next) : next.InOrder := by
  obtain ⟨hnone, hstep⟩ := Except.guard_eq_ok.mp hstep
  split at hstep
  next =>
    rw [Except.ok.injEq] at hstep
    subst hstep
    intro other
    have hother := hs other
    by_cases hsame : other = thread
    · subst hsame
      rw [hnone, Option.toList_none, List.append_nil] at hother
      simp only [Function.update_self, Option.toList_some, calledBy, List.filter_append,
        List.map_append]
      simp only [calledBy] at hother
      rw [← hother]
      simp [executedBy, queuedBy, tasks]
    · have hdistinct : thread ≠ other := fun heq => hsame heq.symm
      simp only [Function.update_of_ne hsame, calledBy, List.filter_append, List.map_append]
      simp only [calledBy] at hother
      rw [← hother]
      simp [executedBy, queuedBy, tasks, hdistinct]
  next =>
    rw [Except.ok.injEq] at hstep
    exact hstep ▸ hs

theorem queueSend_inOrder (hs : s.InOrder) {thread : ThreadId}
    (hstep : step ptr s (.queueSend thread) = .ok next) : next.InOrder := by
  obtain ⟨buf, hbuf, rfl⟩ := step_queueSend hstep
  intro other
  have hother := hs other
  by_cases hsame : other = thread
  · subst hsame
    rw [hbuf] at hother
    simp only [Function.update_self, Option.toList_none, List.append_nil]
    exact Eq.trans (by simp [executedBy, queuedBy, tasks, Task.sentBy, Functor.messages]) hother
  · have hdistinct : thread ≠ other := fun heq => hsame heq.symm
    simp only [Function.update_of_ne hsame]
    exact Eq.trans (by simp [executedBy, queuedBy, tasks, Task.sentBy, hdistinct]) hother

/-- A functor at the head of the batch hands its message to `sendInLoop`. -/
theorem runFunctor_inOrder (hs : s.InOrder) {result : WriteResult}
    (hstep : step ptr s (.runFunctor result) = .ok next) : next.InOrder := by
  obtain ⟨task, rest, hfunctors, -, hstep⟩ := step_runFunctor hstep
  obtain ⟨f, -, -, -, hcalling, htasks, -, hexecuted, -, -, -, hcalled⟩ := execute_eq hstep
  intro thread
  have hmoved : next.executedBy thread ++ next.queuedBy thread =
      s.executedBy thread ++ s.queuedBy thread := by
    unfold executedBy queuedBy
    rw [htasks, tasks_absorb, List.flatMap_append, sentBy_none, List.append_nil, hexecuted]
    simp only [tasks, hfunctors, List.cons_append, List.flatMap_cons, List.filter_append,
      List.map_append, List.append_assoc, List.append_cancel_left_eq]
    congr 1
    by_cases hsender : task.sender = some thread <;>
      simp [Task.sentBy, hsender, List.filter_map, Function.comp_def]
  have hcalls : next.calledBy thread = s.calledBy thread := by rw [calledBy, hcalled, calledBy]
  rw [hmoved, hcalling, hcalls]
  exact hs thread

theorem step_inOrder (hs : s.InOrder) (hstep : step ptr s action = .ok next) :
    next.InOrder := by
  cases action with
  | send thread buf => exact send_inOrder hs hstep
  | queueSend thread => exact queueSend_inOrder hs hstep
  | runFunctor result => exact runFunctor_inOrder hs hstep
  | sendDirect buf result =>
      obtain ⟨f, -, rfl⟩ := step_sendDirect hstep
      refine hs.of_queued f.queued (tasks_absorb s f) rfl rfl fun thread => ?_
      unfold executedBy
      split <;> simp
  | shutdown | shutdownDirect =>
      simp only [step, Except.ok.injEq] at hstep
      subst hstep
      exact hs.absorb rfl rfl rfl rfl
  | setHighWaterMarkCallback | setWriteCompleteCallback | retrieve =>
      simp only [step, Except.ok.injEq] at hstep
      subst hstep
      exact hs.of_same rfl rfl rfl rfl
  | queueConnectDestroyed =>
      simp only [step, Except.ok.injEq] at hstep
      subst hstep
      refine hs.of_queued [.connectDestroyed ptr] ?_ rfl rfl fun _ => rfl
      simp only [tasks, List.append_assoc, List.map_cons, List.map_nil]
  | connectDestroyedDirect =>
      obtain ⟨-, f, -, rfl⟩ := step_connectDestroyedDirect hstep
      exact hs.absorb rfl rfl rfl rfl
  | poll revents | handleEvent =>
      obtain ⟨-, hstep⟩ := Except.guard_eq_ok.mp hstep
      obtain rfl := Except.ok.inj hstep
      exact hs.of_same rfl rfl rfl rfl
  | callback calls =>
      obtain ⟨-, -, f, -, -, rfl⟩ := step_callback hstep
      exact hs.absorb rfl rfl rfl rfl
  | swap =>
      obtain ⟨hidle, hstep⟩ := Except.guard_eq_ok.mp hstep
      obtain rfl := Except.ok.inj hstep
      refine hs.of_same ?_ rfl rfl rfl
      rw [tasks, tasks, hidle.2, List.append_nil, List.nil_append]

/-! ## Runs -/

/-- What holds in every state of a run, besides the invariant. -/
structure Ordered (ptr : ConnId) (s : System) : Prop where
  invariant : s.Invariant ptr
  streams : s.Streams
  backlogged : s.Backlogged
  inOrder : s.InOrder

theorem initial_ordered (ptr loop : ConnId) (name : String) (sockfd : Int)
    (hasWriteCompleteCallback hasHighWaterMarkCallback : Bool) :
    (initial ptr loop name sockfd hasWriteCompleteCallback hasHighWaterMarkCallback).Ordered
      ptr where
  invariant := initial_invariant _ _ _ _ _ _
  streams := fun _ _ => Buffer.initial_readable
  backlogged := by
    have hempty : (initial ptr loop name sockfd hasWriteCompleteCallback
      hasHighWaterMarkCallback).conn.backlog = [] := Buffer.initial_readable
    rw [Backlogged, hempty]
    simp [initial]
  inOrder := fun _ => rfl

theorem step_ordered (s : System) (action : Action) (next : System) (hs : s.Ordered ptr)
    (hstep : step ptr s action = .ok next) : next.Ordered ptr := by
  obtain ⟨hinvariant, sent, events, hmoves⟩ := step_ok hs.invariant hstep
  exact ⟨hinvariant, hmoves.streams hs.streams, hmoves.backlogged hs.backlogged,
    step_inOrder hs.inOrder hstep⟩

variable {loop : LoopId} {name : String} {sockfd : Int}
  {hasWriteCompleteCallback hasHighWaterMarkCallback : Bool} {schedule : List Action}

/-- A connection of which the peer takes one of two bytes at once. -/
def sendShort : List Action :=
  [.swap, .runFunctor (.accepted 0), .sendDirect ⟨[97, 98], by decide⟩ (.accepted 1)]

/-- A connection without optional callbacks. -/
def plain : System := initial 0 0 "plain" 5 false false

/-- The other byte is buffered, and `EPOLLOUT` is requested. -/
theorem sendShort_backlog : ∃ s, run (step 0) plain sendShort = .ok s ∧
    s.conn.state = .kConnected ∧ s.conn.backlog = [98] ∧
      s.conn.channel.events.has EPOLLOUT = true ∧
      s.events = [.connectionCallback .kConnected, .write [97, 98] (.accepted 1)] := by
  have hends : ends (fun s => decide (s.conn.state = .kConnected ∧ s.conn.backlog = [98] ∧
      s.conn.channel.events.has EPOLLOUT = true ∧
      s.events = [.connectionCallback .kConnected, .write [97, 98] (.accepted 1)]))
      (run (step 0) plain sendShort) = true := by
    decide +kernel
  obtain ⟨s, hrun, hcheck⟩ := exists_of_ends hends
  exact ⟨s, hrun, of_decide_eq_true hcheck⟩

/-- One write event with `n` accepted bytes takes them out of the buffer. -/
def DrainsOnce (ptr : ConnId) (f : Frame) (n : Nat) : Prop :=
  ∃ after, handleWrite ptr (.accepted n) f = .ok after ∧
    after.conn.backlog = f.conn.backlog.drop n

/-- The write events with these results. -/
def handleWrites (ptr : ConnId) (f : Frame) (results : List Nat) : Except Stop Frame :=
  results.foldlM (fun f n => handleWrite ptr (.accepted n) f) f

/-- Write events that accept the whole backlog empty the buffer; write interest
ends, read interest stays, the user is told, and a deferred half-close is made. -/
structure DrainsAll (ptr : ConnId) (f : Frame) (results : List Nat) (after : Frame) : Prop where
  returns : handleWrites ptr f results = .ok after
  empty : after.conn.backlog = []
  writeInterest : after.conn.channel.events.has EPOLLOUT = false
  readInterest : after.conn.channel.events.has EPOLLIN = true
  notified : after.queued = f.queued ++
    (if f.conn.hasWriteCompleteCallback then [.writeCompleteCallback ptr] else [])
  halfClosed : after.events.filter (· == .shutdownWrite 0) =
    f.events.filter (· == .shutdownWrite 0) ++
      (if f.conn.state = .kDisconnecting then [.shutdownWrite 0] else [])

/-- The law of draining in one state. -/
def Drains (ptr : ConnId) (f : Frame) : Prop :=
  (∀ n, 0 < n → n ≤ f.conn.backlog.length → DrainsOnce ptr f n) ∧
    ∀ results : List Nat, (∀ n ∈ results, 0 < n) → results.sum = f.conn.backlog.length →
      ∃ after, DrainsAll ptr f results after

theorem handleWrites_eq {f : Frame} (hf : f.Sound ptr) (results : List Nat) :
    handleWrites ptr f results = .ok f := by
  induction results with
  | nil => rfl
  | cons n rest ih =>
      rw [handleWrites, List.foldlM_cons, handleWrite_eq hf]
      exact ih

/-- In no reachable state with a backlog does a write event take anything out of
the buffer, so no sequence of write events empties it. -/
theorem backlog_never_drains (hrun : run (step ptr) (initial ptr loop name sockfd
      hasWriteCompleteCallback hasHighWaterMarkCallback) schedule = .ok s)
    (hbacklog : s.conn.backlog ≠ []) :
    (∀ n, 0 < n → n ≤ s.conn.backlog.length → ¬ DrainsOnce ptr s.frame n) ∧
      ∀ results : List Nat, (∀ n ∈ results, 0 < n) → results.sum = s.conn.backlog.length →
        ¬ ∃ after, DrainsAll ptr s.frame results after := by
  have hs := run_invariant step_ordered (initial_ordered ptr loop name sockfd _ _) hrun
  have hsound := hs.invariant.sound
  constructor
  · rintro n hpos hlen ⟨after, hafter, hdropped⟩
    rw [handleWrite_eq hsound, Except.ok.injEq] at hafter
    subst hafter
    have hlength := congrArg List.length hdropped
    rw [List.length_drop] at hlength
    simp only [frame] at hlength
    omega
  · rintro results - - ⟨after, hdrains⟩
    have hreturns := hdrains.returns
    rw [handleWrites_eq hsound, Except.ok.injEq] at hreturns
    subst hreturns
    exact hbacklog hdrains.empty

theorem backlog_never_drains_short : ∃ s, run (step 0) plain sendShort = .ok s ∧
    s.conn.channel.events.has EPOLLOUT ∧ s.conn.backlog = [98] ∧ ¬ DrainsOnce 0 s.frame 1 := by
  obtain ⟨s, hrun, -, hbacklog, hwrite, -⟩ := sendShort_backlog
  obtain ⟨honce, -⟩ := backlog_never_drains hrun (by rw [hbacklog]; decide)
  exact ⟨s, hrun, hwrite, hbacklog, honce 1 Nat.one_pos (by rw [hbacklog]; decide)⟩

/-- The law of draining fails on a run that buffers one byte. -/
theorem drains_false : ¬ ∀ (schedule : List Action) (s : System),
    run (step 0) plain schedule = .ok s → s.conn.Established → s.conn.backlog ≠ [] →
      s.conn.channel.events.has EPOLLOUT → Drains 0 s.frame := by
  intro hall
  obtain ⟨s, hrun, hconnected, hbacklog, hwrite, -⟩ := sendShort_backlog
  have hdrains := hall sendShort s hrun (Or.inl hconnected) (by rw [hbacklog]; decide) hwrite
  obtain ⟨after, hafter, hdropped⟩ := hdrains.1 1 Nat.one_pos (by rw [frame, hbacklog]; decide)
  have hs := run_invariant step_ordered (initial_ordered 0 0 "plain" 5 false false) hrun
  rw [handleWrite_eq hs.invariant.sound, Except.ok.injEq] at hafter
  subst hafter
  rw [frame, hbacklog] at hdropped
  cases hdropped

/-! ## Half-close -/

/-- Every half-close is made with an empty buffer. -/
def Graceful (s : System) : Prop :=
  ∀ unsent, .shutdownWrite unsent ∈ s.events → unsent = 0

/-- The step runs `shutdownInLoop` only if no write has been short so far. -/
def HalfClosesDrained (s : System) (action : Action) : Prop :=
  s.cause action = .halfClose → ∀ event ∈ s.events, event.isShort = false

instance (s : System) (action : Action) : Decidable (s.HalfClosesDrained action) :=
  inferInstanceAs (Decidable (_ → _))

theorem graceful_step (s : System) (action : Action) (next : System) (hs : s.Ordered ptr)
    (hstep : step ptr s action = .ok next) :
    next.Graceful ↔ s.Graceful ∧ s.HalfClosesDrained action := by
  obtain ⟨-, sent, events, hmoves⟩ := step_ok hs.invariant hstep
  have hbacklogged : s.conn.backlog ≠ [] ↔ ∃ event ∈ s.events, event.isShort = true :=
    hs.backlogged
  unfold Graceful HalfClosesDrained
  rw [hmoves.calls]
  by_cases hcause : s.cause action = .halfClose
  · rw [hmoves.effect.halfCloses hcause]
    -- the half-close records the backlog, which is empty if no write was short
    have hdrained : (∀ event ∈ s.events, event.isShort = false) ↔ s.conn.backlog.length = 0 := by
      rw [List.length_eq_zero_iff, ← not_iff_not, ← ne_eq, hbacklogged]
      simp only [not_forall, Bool.not_eq_false, exists_prop]
    simp only [hcause, hdrained, forall_const, List.mem_append, List.mem_singleton,
      IoEvent.shutdownWrite.injEq, or_imp, forall_and, forall_eq]
  · simp only [hcause, false_implies, and_true, List.mem_append]
    constructor
    · exact fun hall unsent hmem => hall unsent (Or.inl hmem)
    · intro hall unsent hmem
      rcases hmem with hold | hnew
      · exact hall unsent hold
      · exact absurd hnew (hmoves.effect.not_halfCloses hcause unsent)

/-- Half-closes lose nothing exactly when none is made after a short write. -/
theorem halfClose_graceful_iff (hrun : run (step ptr) (initial ptr loop name sockfd
      hasWriteCompleteCallback hasHighWaterMarkCallback) schedule = .ok s) :
    s.Graceful ↔ EveryStep (step ptr) HalfClosesDrained
      (initial ptr loop name sockfd hasWriteCompleteCallback hasHighWaterMarkCallback)
      schedule := by
  rw [run_law_iff step_ordered graceful_step (initial_ordered ptr loop name sockfd _ _) hrun]
  exact and_iff_right fun unsent hmem => absurd hmem List.not_mem_nil

/-- The half-close of `shutdown` right after a short write. -/
theorem halfClose_short : ∃ s, run (step 0) plain (sendShort ++ [.shutdownDirect]) = .ok s ∧
    .shutdownWrite 1 ∈ s.events := by
  have hends : ends (fun s => decide (.shutdownWrite 1 ∈ s.events))
      (run (step 0) plain (sendShort ++ [.shutdownDirect])) = true := by
    decide +kernel
  obtain ⟨s, hrun, hcheck⟩ := exists_of_ends hends
  exact ⟨s, hrun, of_decide_eq_true hcheck⟩

/-- The peer takes both bytes at once. -/
def sendWhole : List Action :=
  [.swap, .runFunctor (.accepted 0), .sendDirect ⟨[97, 98], by decide⟩ (.accepted 2)]

/-- The half-close after a write of both bytes loses nothing, and the one after the short write
breaks the condition. -/
theorem halfClose_graceful_iff_sends :
    (∃ s, run (step 0) plain (sendWhole ++ [.shutdownDirect]) = .ok s ∧
      .shutdownWrite 0 ∈ s.events ∧ s.Graceful) ∧
    ¬ EveryStep (step 0) HalfClosesDrained plain (sendShort ++ [.shutdownDirect]) := by
  constructor
  · have hends : ends (fun s => decide (.shutdownWrite 0 ∈ s.events))
        (run (step 0) plain (sendWhole ++ [.shutdownDirect])) = true := by
      decide +kernel
    obtain ⟨s, hrun, hcheck⟩ := exists_of_ends hends
    have hevery : EveryStep (step 0) HalfClosesDrained plain (sendWhole ++ [.shutdownDirect]) := by
      decide +kernel
    exact ⟨s, hrun, of_decide_eq_true hcheck, (halfClose_graceful_iff hrun).mpr hevery⟩
  · obtain ⟨s, hrun, hmem⟩ := halfClose_short
    intro hevery
    exact absurd ((halfClose_graceful_iff hrun).mpr hevery 1 hmem) Nat.one_ne_zero

/-- Not every half-close is made with an empty buffer. -/
theorem graceful_false : ¬ ∀ (schedule : List Action) (s : System),
    run (step 0) plain schedule = .ok s → s.Graceful := by
  intro hall
  obtain ⟨s, hrun, hmem⟩ := halfClose_short
  exact absurd (hall _ s hrun 1 hmem) Nat.one_ne_zero

end System

end TcpConnection

end Muduo
