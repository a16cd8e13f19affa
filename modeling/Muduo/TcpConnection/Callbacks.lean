import Muduo.TcpConnection.Invariant

/-! # The user callbacks of a connection

The user is told of the connection, of its messages, and of its end. Nothing in
`handleClose` asks whether the connection is already closed, so the sequence
depends on the received events: it is as promised when every handled event runs
at most one of the callbacks that may close or deliver.
-/

open Transition

namespace Muduo

namespace IoEvent

/-- Calls of `connectionCallback_` and `messageCallback_`. -/
def isUserCallback : IoEvent → Bool
  | .connectionCallback _ | .messageCallback => true
  | _ => false

end IoEvent

namespace TcpConnection

/-- The callbacks of a connection that delivered some messages and is open. -/
def openStory (messages : Nat) : List IoEvent :=
  .connectionCallback .kConnected :: List.replicate messages .messageCallback

/-- The user callbacks are in order, and `closeCallback_` is called at most once. -/
structure Lawful (events : List IoEvent) : Prop where
  story : ∃ messages, events.filter IoEvent.isUserCallback <+:
    openStory messages ++ [.connectionCallback .kDisconnected]
  closes : events.count .closeCallback ≤ 1

/-- What the user has been told in a given state. -/
structure Told (state : StateE) (events : List IoEvent) : Prop where
  connecting : state = .kConnecting → events.filter IoEvent.isUserCallback = []
  established : state = .kConnected ∨ state = .kDisconnecting →
    ∃ messages, events.filter IoEvent.isUserCallback = openStory messages
  disconnected : state = .kDisconnected → ∃ messages,
    events.filter IoEvent.isUserCallback =
      openStory messages ++ [.connectionCallback .kDisconnected]
  closes : events.count .closeCallback ≤ if state = .kDisconnected then 1 else 0

theorem Told.lawful {state : StateE} {events : List IoEvent} (htold : Told state events) :
    Lawful events := by
  constructor
  · cases state with
    | kConnecting =>
        rw [htold.connecting rfl]
        exact ⟨0, List.nil_prefix⟩
    | kConnected =>
        obtain ⟨messages, hstory⟩ := htold.established (Or.inl rfl)
        exact ⟨messages, hstory ▸ List.prefix_append _ _⟩
    | kDisconnecting =>
        obtain ⟨messages, hstory⟩ := htold.established (Or.inr rfl)
        exact ⟨messages, hstory ▸ List.prefix_append _ _⟩
    | kDisconnected =>
        obtain ⟨messages, hstory⟩ := htold.disconnected rfl
        exact ⟨messages, hstory ▸ List.prefix_refl _⟩
  · refine htold.closes.trans ?_
    split <;> decide

theorem Lawful.of_append {told : List IoEvent} {events : List IoEvent}
    (hlawful : Lawful (told ++ events)) : Lawful told := by
  obtain ⟨messages, hstory⟩ := hlawful.story
  rw [List.filter_append] at hstory
  refine ⟨⟨messages, (List.prefix_append _ _).trans hstory⟩, ?_⟩
  have hcloses := hlawful.closes
  rw [List.count_append] at hcloses
  omega

/-- Nothing may be told after the end. -/
theorem not_lawful_after_down {told rest : List IoEvent} {event : IoEvent}
    (hdown : .connectionCallback .kDisconnected ∈ told) (hevent : event.isUserCallback = true) :
    ¬ Lawful (told ++ event :: rest) := by
  intro hlawful
  obtain ⟨messages, hstory⟩ := hlawful.story
  rw [List.filter_append, List.filter_cons_of_pos hevent] at hstory
  have hearly : told.filter IoEvent.isUserCallback <+: openStory messages := by
    refine List.prefix_of_prefix_length_le ((List.prefix_append _ _).trans hstory)
      (List.prefix_append _ _) ?_
    have hlength := hstory.length_le
    simp only [List.length_append, List.length_cons, List.length_nil] at hlength
    omega
  have hmem : .connectionCallback .kDisconnected ∈ openStory messages :=
    hearly.subset (List.mem_filter.mpr ⟨hdown, rfl⟩)
  simp [openStory] at hmem

/-- One more message is told at the end. -/
theorem openStory_succ (messages : Nat) :
    openStory messages ++ [.messageCallback] = openStory (messages + 1) := by
  rw [openStory, openStory, List.cons_append, ← List.replicate_succ']

variable {cause : Cause} {state after : StateE} {before left : List UInt8}
  {sent : List (List UInt8)} {events : List IoEvent}

theorem SendCase.untold {data : List UInt8} (hcase : SendCase data before events left) :
    events.filter IoEvent.isUserCallback = [] ∧ events.count .closeCallback = 0 := by
  cases hcase <;> exact ⟨rfl, rfl⟩

/-- A step that tells the user nothing, in a state with the same story. -/
theorem Told.silent {told : List IoEvent} (htold : Told state told)
    (hevents : events.filter IoEvent.isUserCallback = [] ∧ events.count .closeCallback = 0)
    (hafter : after = state ∨ state = .kConnected ∧ after = .kDisconnecting) :
    Told after (told ++ events) := by
  have hfilter : (told ++ events).filter IoEvent.isUserCallback =
      told.filter IoEvent.isUserCallback := by
    rw [List.filter_append, hevents.1, List.append_nil]
  have hcount : (told ++ events).count .closeCallback = told.count .closeCallback := by
    rw [List.count_append, hevents.2, Nat.add_zero]
  rcases hafter with rfl | ⟨rfl, rfl⟩
  · refine ⟨?_, ?_, ?_, ?_⟩ <;> simp only [hfilter, hcount]
    · exact htold.connecting
    · exact htold.established
    · exact htold.disconnected
    · exact htold.closes
  · refine ⟨nofun, fun _ => ?_, nofun, ?_⟩
    · rw [hfilter]
      exact htold.established (Or.inl rfl)
    · rw [hcount]
      exact htold.closes

/-- The user is told in order as long as nothing reacts on a closed connection. -/
theorem Told.step {told : List IoEvent} (htold : Told state told)
    (heffect : Effect cause state before sent events after left)
    (hreact : cause = .react → state = .kConnected ∨ state = .kDisconnecting) :
    Told after (told ++ events) := by
  cases heffect with
  | quiet | refuse | writeComplete | highWaterMark | halfClose | remove =>
      exact htold.silent ⟨rfl, rfl⟩ (Or.inl rfl)
  | shutdown | shutdownHalfClose => exact htold.silent ⟨rfl, rfl⟩ (Or.inr ⟨rfl, rfl⟩)
  | message hstate hcase => exact htold.silent hcase.untold (Or.inl rfl)
  | deliver =>
      have hstate := hreact rfl
      obtain ⟨messages, hstory⟩ := htold.established hstate
      have hfilter : (told ++ [IoEvent.messageCallback]).filter IoEvent.isUserCallback =
          openStory (messages + 1) := by
        rw [List.filter_append, hstory, ← openStory_succ]
        rfl
      refine ⟨fun hother => ?_, fun _ => ⟨_, hfilter⟩, fun hother => ?_, ?_⟩
      · rcases hstate with rfl | rfl <;> cases hother
      · rcases hstate with rfl | rfl <;> cases hother
      · simp only [List.count_append, List.count_singleton]
        exact htold.closes
  | close =>
      have hstate := hreact rfl
      obtain ⟨messages, hstory⟩ := htold.established hstate
      refine ⟨nofun, fun hother => ?_, fun _ => ⟨messages, ?_⟩, ?_⟩
      · rcases hother with hother | hother <;> cases hother
      · rw [List.filter_append, hstory]
        rfl
      · have hcloses := htold.closes
        have hopen : state ≠ .kDisconnected := by
          rcases hstate with rfl | rfl <;> decide
        rw [if_neg hopen] at hcloses
        rw [List.count_append, Nat.le_zero.mp hcloses]
        rfl
  | establish =>
      refine ⟨nofun, fun _ => ⟨0, ?_⟩, nofun, ?_⟩
      · rw [List.filter_append, htold.connecting rfl]
        rfl
      · rw [List.count_append]
        exact htold.closes
  | destroy =>
      obtain ⟨messages, hstory⟩ := htold.established (Or.inl rfl)
      refine ⟨nofun, fun hother => ?_, fun _ => ⟨messages, ?_⟩, ?_⟩
      · rcases hother with hother | hother <;> cases hother
      · rw [List.filter_append, hstory]
        rfl
      · rw [List.count_append]
        exact htold.closes.trans (by decide)

/-! ## Handled events -/

/-- The callbacks that may close the connection or deliver a message. -/
def reactions (callbacks : List Callback) : List Callback :=
  callbacks.filter (causeOfCallback · = .react)

theorem Effect.stays_established
    (heffect : Effect cause state before sent events after left)
    (hreact : cause ≠ .react) (hdestroy : cause ≠ .destroy)
    (hstate : state = .kConnected ∨ state = .kDisconnecting) :
    after = .kConnected ∨ after = .kDisconnecting := by
  cases heffect <;> simp_all

namespace System

variable {ptr : ConnId} {s next : System} {action : Action}

/-- Such a callback is still to be invoked for the handled event. -/
def Outstanding (s : System) : Prop :=
  s.active = true ∧ reactions s.conn.channel.handleEventWithGuard ≠ [] ∨
    reactions s.handlers ≠ []

instance (s : System) : Decidable s.Outstanding := inferInstanceAs (Decidable (_ ∨ _))

/-- At most one callback of every handled event reacts, and no connection is
destroyed while one is outstanding. -/
def ReactsOnce (s : System) : Action → Prop
  | .handleEvent => (reactions s.conn.channel.handleEventWithGuard).length ≤ 1
  | .connectDestroyedDirect => ¬ s.Outstanding
  | _ => True

instance (s : System) : (action : Action) → Decidable (s.ReactsOnce action) := by
  rintro ⟨⟩ <;> dsimp only [ReactsOnce] <;> infer_instance

/-- The invariant of runs whose events all react once. -/
structure Single (ptr : ConnId) (s : System) : Prop where
  invariant : s.Invariant ptr
  told : Told s.conn.state s.events
  exclusive : s.active = true → s.handlers = []
  single : (reactions s.handlers).length ≤ 1
  outstanding : s.Outstanding → s.conn.Established ∧ s.conn.channel.index = .kAdded
  closed : s.conn.state = .kDisconnected → s.conn.channel.index ≠ .kAdded

/-- Only a callback of the channel reacts. -/
theorem cause_react (hreact : s.cause action = .react) :
    ∃ calls callback rest, action = .callback calls ∧ s.handlers = callback :: rest ∧
      causeOfCallback callback = .react := by
  cases action with
  | callback calls =>
      simp only [cause] at hreact
      split at hreact
      next callback rest hhandlers => exact ⟨calls, callback, rest, rfl, hhandlers, hreact⟩
      next => cases hreact
  | shutdownDirect =>
      simp only [cause, causeOfShutdown] at hreact
      split at hreact <;> cases hreact
  | runFunctor result =>
      simp only [cause] at hreact
      split at hreact
      next task rest _ =>
        unfold causeOfFunctor at hreact
        split at hreact <;> cases hreact
      next => cases hreact
  | _ => cases hreact

theorem outstanding_of_react (hreact : s.cause action = .react) : s.Outstanding := by
  obtain ⟨calls, callback, rest, -, hhandlers, hcallback⟩ := cause_react hreact
  refine Or.inr ?_
  rw [hhandlers, reactions, List.filter_cons_of_pos (by simpa using hcallback)]
  exact List.cons_ne_nil _ _

/-- Only the event loop changes which event is handled. -/
theorem step_event (hstep : step ptr s action = .ok next)
    (hpoll : ∀ revents, action ≠ .poll revents) (hhandle : action ≠ .handleEvent)
    (hcallback : ∀ calls, action ≠ .callback calls) :
    next.active = s.active ∧ next.handlers = s.handlers := by
  cases action with
  | poll revents => exact absurd rfl (hpoll revents)
  | handleEvent => exact absurd rfl hhandle
  | callback calls => exact absurd rfl (hcallback calls)
  | shutdown | shutdownDirect | setHighWaterMarkCallback | setWriteCompleteCallback | retrieve
  | queueConnectDestroyed =>
      simp only [step, Except.ok.injEq] at hstep
      subst hstep
      exact ⟨rfl, rfl⟩
  | send thread buf =>
      obtain ⟨-, hstep⟩ := Except.guard_eq_ok.mp hstep
      split at hstep
      all_goals
        rw [Except.ok.injEq] at hstep
        subst hstep
        exact ⟨rfl, rfl⟩
  | queueSend thread =>
      obtain ⟨buf, -, rfl⟩ := step_queueSend hstep
      exact ⟨rfl, rfl⟩
  | sendDirect buf result =>
      obtain ⟨f, -, rfl⟩ := step_sendDirect hstep
      exact ⟨rfl, rfl⟩
  | connectDestroyedDirect =>
      obtain ⟨-, f, -, rfl⟩ := step_connectDestroyedDirect hstep
      exact ⟨rfl, rfl⟩
  | swap =>
      obtain ⟨-, hstep⟩ := Except.guard_eq_ok.mp hstep
      obtain rfl := Except.ok.inj hstep
      exact ⟨rfl, rfl⟩
  | runFunctor result =>
      obtain ⟨task, rest, -, -, hstep⟩ := step_runFunctor hstep
      obtain ⟨f, -, -, -, -, -, -, -, -, hactive, hhandlers, -⟩ := execute_eq hstep
      exact ⟨hactive, hhandlers⟩

/-- A step that neither reacts nor destroys keeps an open connection registered. -/
theorem Moves.stays_registered {sent : List (List UInt8)} {events : List IoEvent}
    (hmoves : Moves cause s next sent events) (hreact : cause ≠ .react)
    (hdestroy : cause ≠ .destroy)
    (hopen : s.conn.Established ∧ s.conn.channel.index = .kAdded) :
    next.conn.Established ∧ next.conn.channel.index = .kAdded := by
  have hestablished : next.conn.Established :=
    hmoves.effect.stays_established hreact hdestroy hopen.1
  exact ⟨hestablished, hmoves.index.added hdestroy hopen.2 hestablished⟩

/-- An event is only reported for an open connection. -/
theorem Single.poll_established (hs : s.Single ptr)
    (hkernel : (s.poller.kernel s.conn.channel.fd).isSome) :
    s.conn.Established ∧ s.conn.channel.index = .kAdded := by
  have htracks := hs.invariant.sound.tracks
  unfold EpollPoller.Tracks at htracks
  have hadded : s.conn.channel.index = .kAdded := by
    cases hindex : s.conn.channel.index with
    | kAdded => rfl
    | kNew | kDeleted =>
        simp only [frame, hindex] at htracks
        rw [htracks.2] at hkernel
        cases hkernel
  refine ⟨?_, hadded⟩
  unfold Established
  cases hstate : s.conn.state with
  | kConnected => exact Or.inl rfl
  | kDisconnecting => exact Or.inr rfl
  | kConnecting =>
      rw [(hs.invariant.connecting hstate).index] at hadded
      cases hadded
  | kDisconnected => exact absurd hadded (hs.closed hstate)

theorem Outstanding.of_same {sent : List (List UInt8)} {events : List IoEvent}
    (hmoves : Moves cause s next sent events) (hactive : next.active = s.active)
    (hhandlers : next.handlers = s.handlers) (hnext : next.Outstanding) : s.Outstanding := by
  rcases hnext with ⟨hstill, hreactions⟩ | hreactions
  · rw [hactive] at hstill
    have hguard : next.conn.channel.handleEventWithGuard =
        s.conn.channel.handleEventWithGuard := by
      unfold Channel.handleEventWithGuard
      rw [hmoves.revents hstill]
    exact Or.inl ⟨hstill, hguard ▸ hreactions⟩
  · exact Or.inr (hhandlers ▸ hreactions)

/-- What the two laws about the connection need of every step. -/
theorem Single.step_told (hs : s.Single ptr) (hstep : step ptr s action = .ok next) :
    Told next.conn.state next.events ∧
      (next.conn.state = .kDisconnected → next.conn.channel.index ≠ .kAdded) := by
  obtain ⟨-, sent, events, hmoves⟩ := step_ok hs.invariant hstep
  constructor
  · rw [hmoves.calls]
    exact hs.told.step hmoves.effect fun hreact =>
      (hs.outstanding (outstanding_of_react hreact)).1
  · intro hclosed hadded
    rcases hmoves.index.closed hclosed hadded with ⟨hbefore, hold⟩ | ⟨hreact, hnot⟩
    · exact hs.closed hbefore hold
    · exact hnot (hs.outstanding (outstanding_of_react hreact)).2

/-- `connectDestroyed` runs between two events, or by a direct call. -/
theorem cause_destroy (hdestroy : s.cause action = .destroy)
    (hstep : step ptr s action = .ok next) :
    action = .connectDestroyedDirect ∨ ¬ s.Outstanding := by
  cases action with
  | connectDestroyedDirect => exact Or.inl rfl
  | runFunctor result =>
      obtain ⟨task, rest, -, hidle, hstep⟩ := step_runFunctor hstep
      refine Or.inr ?_
      rintro (⟨hactive, -⟩ | hreactions)
      · rw [hidle.1] at hactive
        cases hactive
      · rw [hidle.2] at hreactions
        exact hreactions rfl
  | callback calls =>
      simp only [cause] at hdestroy
      split at hdestroy
      next callback _ _ => exact absurd hdestroy (causeOfCallback_ne_destroy callback)
      next => cases hdestroy
  | shutdownDirect =>
      simp only [cause, causeOfShutdown] at hdestroy
      split at hdestroy <;> cases hdestroy
  | _ => cases hdestroy

/-- User calls and functors leave the handled event alone. -/
theorem Single.step_same (hs : s.Single ptr) (honce : s.ReactsOnce action)
    (hstep : step ptr s action = .ok next) (hpoll : ∀ revents, action ≠ .poll revents)
    (hhandle : action ≠ .handleEvent) (hcallback : ∀ calls, action ≠ .callback calls) :
    next.Single ptr := by
  obtain ⟨hinvariant, sent, events, hmoves⟩ := step_ok hs.invariant hstep
  obtain ⟨htold, hclosed⟩ := hs.step_told hstep
  obtain ⟨hactive, hhandlers⟩ := step_event hstep hpoll hhandle hcallback
  refine ⟨hinvariant, htold, ?_, by rw [hhandlers]; exact hs.single, fun hnext => ?_, hclosed⟩
  · rw [hactive, hhandlers]
    exact hs.exclusive
  · have hbefore := Outstanding.of_same hmoves hactive hhandlers hnext
    refine hmoves.stays_registered ?_ ?_ (hs.outstanding hbefore)
    · intro hreact
      obtain ⟨calls, -, -, heq, -⟩ := cause_react hreact
      exact hcallback calls heq
    · intro hdestroy
      rcases cause_destroy hdestroy hstep with rfl | hnot
      · exact honce hbefore
      · exact hnot hbefore

theorem step_single (s : System) (action : Action) (next : System) (hs : s.Single ptr)
    (honce : s.ReactsOnce action) (hstep : step ptr s action = .ok next) : next.Single ptr := by
  obtain ⟨hinvariant, sent, events, hmoves⟩ := step_ok hs.invariant hstep
  obtain ⟨htold, hclosed⟩ := hs.step_told hstep
  cases haction : action with
  | poll revents =>
      subst haction
      obtain ⟨hpoll, hstep⟩ := Except.guard_eq_ok.mp hstep
      obtain rfl := Except.ok.inj hstep
      refine ⟨hinvariant, htold, fun _ => hpoll.1.2, hs.single, fun _ => ?_, hclosed⟩
      exact hs.poll_established hpoll.2.2
  | handleEvent =>
      subst haction
      obtain ⟨hactive, hstep⟩ := Except.guard_eq_ok.mp hstep
      obtain rfl := Except.ok.inj hstep
      refine ⟨hinvariant, htold, nofun, honce, fun hnext => ?_, hclosed⟩
      rcases hnext with ⟨hfalse, -⟩ | hreactions
      · cases hfalse
      · exact hs.outstanding (Or.inl ⟨hactive, hreactions⟩)
  | callback calls =>
      subst haction
      have hcause := hmoves
      obtain ⟨callback, rest, f, hhandlers, -, rfl⟩ := step_callback hstep
      have hidle : s.active = false := by
        cases hactive : s.active with
        | false => rfl
        | true => exact absurd (hs.exclusive hactive) (by simp [hhandlers])
      have hsingle := hs.single
      simp only [cause, hhandlers] at hmoves
      refine ⟨hinvariant, htold, fun hactive => ?_, ?_, fun hnext => ?_, hclosed⟩
      · exact absurd hactive (by simp [System.absorb, hidle])
      · refine le_trans ?_ hsingle
        rw [hhandlers]
        exact ((List.sublist_cons_self callback rest).filter _).length_le
      · rcases hnext with ⟨hactive, -⟩ | hreactions
        · exact absurd hactive (by simp [System.absorb, hidle])
        · dsimp only at hreactions
          -- a second reaction is outstanding, so the invoked callback is not one
          have hplain : causeOfCallback callback ≠ .react := by
            intro hreact
            rw [hhandlers, reactions, List.filter_cons_of_pos (by simpa using hreact),
              List.length_cons] at hsingle
            exact hreactions (List.length_eq_zero_iff.mp (by
              unfold reactions
              omega))
          have hbefore : s.Outstanding := by
            refine Or.inr ?_
            rw [hhandlers, reactions, List.filter_cons_of_neg (by simpa using hplain)]
            exact hreactions
          exact hmoves.stays_registered hplain (causeOfCallback_ne_destroy callback)
            (hs.outstanding hbefore)
  | _ => exact hs.step_same honce hstep (by simp [haction]) (by simp [haction]) (by simp [haction])

theorem initial_single (ptr loop : ConnId) (name : String) (sockfd : Int)
    (hasWriteCompleteCallback hasHighWaterMarkCallback : Bool) :
    (initial ptr loop name sockfd hasWriteCompleteCallback hasHighWaterMarkCallback).Single
      ptr where
  invariant := initial_invariant _ _ _ _ _ _
  told := ⟨fun _ => rfl, fun hstate => hstate.elim nofun nofun, nofun, Nat.le_refl 0⟩
  exclusive := nofun
  single := Nat.zero_le 1
  outstanding := by
    rintro (⟨hactive, -⟩ | hreactions)
    · cases hactive
    · exact absurd rfl hreactions
  closed := nofun

/-! ## Events that react twice -/

/-- The user callbacks are out of order, or the callbacks still to be invoked
will put them out of order. -/
inductive Doomed (s : System) : Prop where
  | broken (hbroken : ¬ Lawful s.events)
  | closed (hclosed : .connectionCallback .kDisconnected ∈ s.events)
      (hreactions : reactions s.handlers ≠ [])
  | twice (first second : Callback) (rest : List Callback)
      (hreactions : reactions s.handlers = first :: second :: rest) (hfirst : first ≠ .read)

/-- A reaction on a doomed connection breaks the order. -/
theorem Doomed.callback (hs : s.Invariant ptr) {calls : Syscalls} (hdoomed : s.Doomed)
    (hstep : step ptr s (.callback calls) = .ok next) : next.Doomed := by
  obtain ⟨callback, rest, f, hhandlers, hcallback, rfl⟩ := step_callback hstep
  cases hdoomed with
  | broken hbroken => exact .broken fun hlawful => hbroken hlawful.of_append
  | closed hclosed hreactions =>
      rcases onCallback_cases hs.sound hcallback with
        ⟨rfl, rfl⟩ | ⟨-, hcloses⟩ | ⟨-, hdelivers⟩
      · rw [hhandlers] at hreactions
        exact .closed (List.mem_append_left _ hclosed) hreactions
      · refine .broken ?_
        simp only [System.absorb, hcloses.events, frame, List.nil_append]
        exact not_lawful_after_down hclosed rfl
      · refine .broken ?_
        simp only [System.absorb, hdelivers.events, frame, List.nil_append]
        exact not_lawful_after_down hclosed rfl
  | twice first second others hreactions hfirst =>
      rw [hhandlers] at hreactions
      rcases onCallback_cases hs.sound hcallback with
        ⟨rfl, rfl⟩ | ⟨hother, hcloses⟩ | ⟨rfl, hdelivers⟩
      · exact .twice first second others hreactions hfirst
      · refine .closed ?_ ?_
        · simp [System.absorb, hcloses.events, frame]
        · cases callback with
          | write => exact absurd rfl hother
          | close | error | read =>
              have htail : reactions rest = second :: others := (List.cons.inj hreactions).2
              simp [htail]
      · exact absurd (List.cons.inj hreactions).1.symm hfirst

variable {loop : LoopId} {name : String} {sockfd : Int}
  {hasWriteCompleteCallback hasHighWaterMarkCallback : Bool} {schedule : List Action}

end System

end TcpConnection

end Muduo
