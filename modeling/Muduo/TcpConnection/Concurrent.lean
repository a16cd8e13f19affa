import Muduo.TcpConnection.States

/-! # A shutdown that another thread interrupts

`shutdown` tests the state in one step and stores `kDisconnecting` in a later one.
Called on another thread, it may find the connection connected and store after the
loop thread has closed it. Such a store is the only step that moves the state
backward. `connectDestroyed` does nothing in `kDisconnecting`, so a half-closed
connection is destroyed without a notification.
-/

open Transition

namespace Muduo

/-- Where a call of `shutdown` stands that has found the connection connected. -/
inductive ShutdownPoint where
  /-- before `setState` -/
  | storing
  /-- before `runInLoop` -/
  | queueing
  deriving DecidableEq, Repr

/-- The order of the states, with the steps `shutdown` may leave out. -/
def StateE.Forward (before after : StateE) : Prop :=
  after = before ∨ before = .kConnecting ∧ after = .kConnected ∨
    before = .kConnected ∧ after = .kDisconnecting ∨
    before = .kConnected ∧ after = .kDisconnected ∨
    before = .kDisconnecting ∧ after = .kDisconnected

instance (before after : StateE) : Decidable (before.Forward after) :=
  inferInstanceAs (Decidable (_ ∨ _))

namespace TcpConnection

structure Concurrent where
  system : System
  /-- the calls of `shutdown` on other threads -/
  shutdowns : ThreadId → Option ShutdownPoint

namespace Concurrent

def initial (self loop : ConnId) (name : String) (sockfd : Int)
    (hasWriteCompleteCallback hasHighWaterMarkCallback : Bool) : Concurrent where
  system := System.initial self loop name sockfd hasWriteCompleteCallback hasHighWaterMarkCallback
  shutdowns := fun _ => none

def state (s : Concurrent) : StateE := s.system.conn.state

inductive Action where
  | step (action : System.Action)
  /-- another thread calls `shutdown` and tests the state -/
  | testShutdown (thread : ThreadId)
  | storeShutdown (thread : ThreadId)
  | queueShutdown (thread : ThreadId)

def step (self : ConnId) (s : Concurrent) : Action → Except Stop Concurrent
  | .step action => do
      let system ← s.system.step self action
      return { s with system }
  | .testShutdown thread =>
      if s.shutdowns thread = none then
        if s.state = .kConnected then
          .ok { s with shutdowns := Function.update s.shutdowns thread (some .storing) }
        else .ok s
      else .error .disabled
  | .storeShutdown thread =>
      if s.shutdowns thread = some .storing then
        .ok {
          system := { s.system with conn := { s.system.conn with state := .kDisconnecting } }
          shutdowns := Function.update s.shutdowns thread (some .queueing) }
      else .error .disabled
  | .queueShutdown thread =>
      if s.shutdowns thread = some .queueing then
        .ok {
          system := { s.system with
            pendingFunctors := s.system.pendingFunctors ++ [⟨.shutdownInLoop self, none⟩] }
          shutdowns := Function.update s.shutdowns thread none }
      else .error .disabled

variable {ptr : ConnId} {s next : Concurrent} {action : Action}

/-- Uninterrupted, the three steps are the call of `shutdown`. -/
theorem run_shutdown {thread : ThreadId} (hconnected : s.state = .kConnected)
    (hidle : s.shutdowns thread = none) :
    run (step ptr) s [.testShutdown thread, .storeShutdown thread, .queueShutdown thread] =
      step ptr s (.step .shutdown) := by
  have hshutdown : TcpConnection.shutdown ptr false s.system.frame =
      (s.system.frame.setState .kDisconnecting).queueInLoop (.shutdownInLoop ptr) :=
    if_pos hconnected
  have habsorb : s.system.absorb (TcpConnection.shutdown ptr false s.system.frame) =
      { s.system with
        conn := { s.system.conn with state := .kDisconnecting }
        pendingFunctors := s.system.pendingFunctors ++ [⟨.shutdownInLoop ptr, none⟩] } := by
    rw [hshutdown]
    simp [System.absorb, System.frame, Frame.queueInLoop, Frame.setState]
  have hsame : Function.update s.shutdowns thread none = s.shutdowns := by
    rw [← hidle]
    exact Function.update_eq_self thread s.shutdowns
  simp [step, System.step, hconnected, hidle, habsorb, hsame, bind, Except.bind, pure,
    Except.pure]

/-- No connection is shut down before it is established. -/
structure Started (ptr : ConnId) (s : Concurrent) : Prop where
  begun : s.system.Begun ptr
  shutdowns : ∀ thread, s.shutdowns thread ≠ none → s.state ≠ .kConnecting

theorem step_started (s : Concurrent) (action : Action) (next : Concurrent) (hs : s.Started ptr)
    (hstep : step ptr s action = .ok next) : next.Started ptr := by
  cases action with
  | step action =>
      obtain ⟨system, hsystem, hstep⟩ := Except.bind_eq_ok.mp hstep
      obtain rfl := Except.ok.inj hstep
      refine ⟨System.step_begun hs.begun hsystem, fun thread hcalled => ?_⟩
      have hopen := hs.shutdowns thread hcalled
      unfold state at hopen ⊢
      rcases hs.begun.step_state hsystem with hstate | ⟨-, hstate⟩ | ⟨-, hstate⟩ | ⟨-, hstate⟩ <;>
        rw [hstate]
      · exact hopen
      all_goals rintro ⟨⟩
  | testShutdown thread =>
      obtain ⟨-, hstep⟩ := Except.guard_eq_ok.mp hstep
      split at hstep
      next hconnected =>
        obtain rfl := Except.ok.inj hstep
        refine ⟨hs.begun, fun _ _ hconnecting => ?_⟩
        cases hconnected.symm.trans hconnecting
      next =>
        obtain rfl := Except.ok.inj hstep
        exact hs
  | storeShutdown thread =>
      obtain ⟨hcalled, hstep⟩ := Except.guard_eq_ok.mp hstep
      obtain rfl := Except.ok.inj hstep
      have hopen := hs.shutdowns thread (by rw [hcalled]; rintro ⟨⟩)
      refine ⟨⟨by rintro ⟨⟩, fun _ => hs.begun.established hopen, by rintro ⟨⟩⟩, ?_⟩
      rintro _ _ ⟨⟩
  | queueShutdown thread =>
      obtain ⟨hcalled, hstep⟩ := Except.guard_eq_ok.mp hstep
      obtain rfl := Except.ok.inj hstep
      have hopen := hs.shutdowns thread (by rw [hcalled]; rintro ⟨⟩)
      refine ⟨⟨fun hconnecting => absurd hconnecting hopen, fun _ task htask => ?_,
        hs.begun.told⟩, fun _ _ => hopen⟩
      rw [System.tasks, ← List.append_assoc] at htask
      rcases List.mem_append.mp htask with hold | hnew
      · exact hs.begun.established hopen task hold
      · rw [List.mem_singleton.mp hnew]
        rintro _ ⟨⟩

theorem initial_started (ptr loop : ConnId) (name : String) (sockfd : Int)
    (hasWriteCompleteCallback hasHighWaterMarkCallback : Bool) :
    (initial ptr loop name sockfd hasWriteCompleteCallback hasHighWaterMarkCallback).Started ptr :=
  ⟨System.initial_begun ptr loop name sockfd _ _, fun _ hcalled => absurd rfl hcalled⟩

/-! ## The order of the states -/

/-- The step moves the state forward or leaves it. -/
def MovesForward (ptr : ConnId) (s : Concurrent) (action : Action) : Prop :=
  ∀ next, step ptr s action = .ok next → s.state.Forward next.state

theorem movesForward_iff (hstep : step ptr s action = .ok next) :
    s.MovesForward ptr action ↔ s.state.Forward next.state :=
  ⟨fun hmoves => hmoves next hstep, fun hforward _ hother =>
    Except.ok.inj (hstep.symm.trans hother) ▸ hforward⟩

instance (ptr : ConnId) (s : Concurrent) (action : Action) :
    Decidable (s.MovesForward ptr action) :=
  match hstep : step ptr s action with
  | .error _ => .isTrue fun next hnext => by rw [hstep] at hnext; cases hnext
  | .ok _ => decidable_of_iff _ (movesForward_iff hstep).symm

/-- A call of `shutdown` stores before the connection is closed. -/
def StoresInTime (s : Concurrent) : Action → Prop
  | .storeShutdown _ => s.state ≠ .kDisconnected
  | _ => True

instance (s : Concurrent) (action : Action) : Decidable (s.StoresInTime action) := by
  unfold StoresInTime
  split <;> infer_instance

theorem step_movesForward (hs : s.Started ptr) (hstep : step ptr s action = .ok next) :
    s.MovesForward ptr action ↔ s.StoresInTime action := by
  rw [movesForward_iff hstep]
  cases action with
  | step action =>
      obtain ⟨system, hsystem, hstep⟩ := Except.bind_eq_ok.mp hstep
      obtain rfl := Except.ok.inj hstep
      refine iff_of_true ?_ trivial
      unfold StateE.Forward state
      rcases hs.begun.step_state hsystem with hstate | hmove | hmove | ⟨hopen, hstate⟩
      · exact Or.inl hstate
      · exact Or.inr (Or.inl hmove)
      · exact Or.inr (Or.inr (Or.inl hmove))
      · rw [hstate]
        cases hbefore : s.system.conn.state <;> simp_all
  | testShutdown thread =>
      refine iff_of_true (Or.inl ?_) trivial
      obtain ⟨-, hstep⟩ := Except.guard_eq_ok.mp hstep
      split at hstep <;> (obtain rfl := Except.ok.inj hstep; rfl)
  | storeShutdown thread =>
      obtain ⟨hcalled, hstep⟩ := Except.guard_eq_ok.mp hstep
      obtain rfl := Except.ok.inj hstep
      have hopen := hs.shutdowns thread (by rw [hcalled]; exact nofun)
      show s.state.Forward .kDisconnecting ↔ s.state ≠ .kDisconnected
      cases hbefore : s.state with
      | kConnecting => exact absurd hbefore hopen
      | kDisconnected | kConnected | kDisconnecting => decide
  | queueShutdown thread =>
      obtain ⟨-, hstep⟩ := Except.guard_eq_ok.mp hstep
      obtain rfl := Except.ok.inj hstep
      exact iff_of_true (Or.inl rfl) trivial

/-- In a whole run the state moves forward only, if and only if no call of `shutdown`
stores after the connection is closed. -/
theorem forward_iff {loop : ConnId} {name : String} {sockfd : Int}
    {hasWriteCompleteCallback hasHighWaterMarkCallback : Bool} {schedule : List Action}
    (hrun : run (step ptr) (initial ptr loop name sockfd hasWriteCompleteCallback
      hasHighWaterMarkCallback) schedule = .ok s) :
    EveryStep (step ptr) (MovesForward ptr) (initial ptr loop name sockfd
        hasWriteCompleteCallback hasHighWaterMarkCallback) schedule ↔
      EveryStep (step ptr) StoresInTime (initial ptr loop name sockfd
        hasWriteCompleteCallback hasHighWaterMarkCallback) schedule := by
  apply everyStep_congr _ _ (initial_started ptr loop name sockfd _ _) hrun
  · exact fun s action next hs _ hstep => step_started s action next hs hstep
  · exact fun s action next hs hstep => step_movesForward hs hstep

/-- The newly accepted connection. -/
def plain : Concurrent := initial 0 0 "plain" 5 false false

/-- Thread 1 shuts the connection down, then the peer closes. -/
def shutdownThenClose : List Action :=
  [.step .swap, .step (.runFunctor (.accepted 0)), .testShutdown 1, .storeShutdown 1,
    .queueShutdown 1, .step (.poll EPOLLHUP), .step .handleEvent,
    .step (.callback ⟨.received [], .other 0, .accepted 0⟩)]

theorem forward_iff_shutdownThenClose : ∃ s, run (step 0) plain shutdownThenClose = .ok s ∧
    s.state = .kDisconnected ∧ EveryStep (step 0) (MovesForward 0) plain shutdownThenClose := by
  have hends : ends (fun s => decide (s.state = .kDisconnected))
      (run (step 0) plain shutdownThenClose) = true := by decide
  obtain ⟨s, hrun, hstate⟩ := exists_of_ends hends
  have htime : EveryStep (step 0) StoresInTime plain shutdownThenClose := by decide
  exact ⟨s, hrun, of_decide_eq_true hstate, (forward_iff hrun).mpr htime⟩

/-- The peer closes between the test and the store of thread 1. -/
def storeAfterClose : List Action :=
  [.step .swap, .step (.runFunctor (.accepted 0)), .testShutdown 1, .step (.poll EPOLLHUP),
    .step .handleEvent, .step (.callback ⟨.received [], .other 0, .accepted 0⟩),
    .storeShutdown 1]

/-- A closed connection becomes disconnecting. -/
theorem forward_false : ¬ ∀ (schedule : List Action) (s : Concurrent),
    run (step 0) plain schedule = .ok s →
      EveryStep (step 0) (MovesForward 0) plain schedule := by
  intro hforward
  have hends : ends (fun _ => true) (run (step 0) plain storeAfterClose) = true := by decide
  obtain ⟨s, hrun, -⟩ := exists_of_ends hends
  exact absurd (hforward storeAfterClose s hrun) (by decide)

/-! ## The notification of the end -/

/-- A destroyed connection is closed, and its user has been told. -/
def Notified (s : Concurrent) : Prop :=
  s.system.destroyed = true →
    s.state = .kDisconnected ∧ .connectionCallback .kDisconnected ∈ s.system.events

/-- No half-closed connection is destroyed, and no destroyed one is shut down. -/
def DestroysNotified (s : Concurrent) : Action → Prop
  | .step action => s.system.cause action = .destroy → s.state ≠ .kDisconnecting
  | .storeShutdown _ => s.system.destroyed = false
  | _ => True

instance (s : Concurrent) (action : Action) : Decidable (s.DestroysNotified action) := by
  unfold DestroysNotified
  split <;> infer_instance

/-- `connectDestroyed` never runs before `connectEstablished`. -/
theorem Started.not_connecting (hs : s.Started ptr) {action : System.Action} {system : System}
    (hdestroy : s.system.cause action = .destroy)
    (hstep : s.system.step ptr action = .ok system) (hsame : system.conn.state = s.state) :
    s.state ≠ .kConnecting := by
  intro hconnecting
  have hdestroyed := (System.step_records hstep).destroyed.mpr (Or.inr hdestroy)
  rcases (hs.begun.connecting hconnecting).step hconnecting hstep with ⟨hwaiting, -⟩ |
    ⟨hconnected, -⟩
  · rw [hwaiting.destroyed] at hdestroyed
    cases hdestroyed
  · rw [hsame, hconnecting] at hconnected
    cases hconnected

/-- A `connectDestroyed` notifies unless it finds the connection half-closed. -/
theorem destroy_notified (hs : s.Started ptr) {action : System.Action} {system : System}
    (hdestroy : s.system.cause action = .destroy)
    (hstep : s.system.step ptr action = .ok system) :
    (system.conn.state = .kDisconnected ∧
      .connectionCallback .kDisconnected ∈ system.events) ↔ s.state ≠ .kDisconnecting := by
  have hrecords := System.step_records hstep
  cases System.step_state hstep with
  | same hstate hother =>
      have hopen := hs.not_connecting hdestroy hstep hstate
      have hclosed := hother hdestroy
      rw [hstate]
      unfold state at hopen ⊢
      cases hbefore : s.system.conn.state with
      | kConnecting => exact absurd hbefore hopen
      | kConnected => exact absurd hbefore hclosed
      | kDisconnecting => exact iff_of_false (fun hnotified => by cases hnotified.1) (by simp)
      | kDisconnected =>
          exact iff_of_true ⟨rfl, hrecords.events.subset (hs.begun.told hbefore)⟩ nofun
  | shutdown _ _ hother => exact absurd hdestroy hother
  | down hbefore hafter htold =>
      refine iff_of_true ⟨hafter, htold⟩ ?_
      rcases hbefore with hconnected | ⟨-, hother⟩
      · unfold state
        rw [hconnected]
        exact nofun
      · exact absurd hdestroy hother
  | establish _ _ hother => exact absurd hdestroy hother

theorem step_notified (hs : s.Started ptr) (hnotified : s.Notified)
    (hstep : step ptr s action = .ok next) : next.Notified ↔ s.DestroysNotified action := by
  cases action with
  | step action =>
      obtain ⟨system, hsystem, hstep⟩ := Except.bind_eq_ok.mp hstep
      obtain rfl := Except.ok.inj hstep
      have hrecords := System.step_records hsystem
      unfold Notified DestroysNotified
      by_cases hdestroy : s.system.cause action = .destroy
      · have hnext : system.destroyed = true := hrecords.destroyed.mpr (Or.inr hdestroy)
        simp only [hnext, hdestroy, forall_const]
        exact destroy_notified hs hdestroy hsystem
      · refine iff_of_true (fun hdestroyed => ?_) fun hcause => absurd hcause hdestroy
        have hbefore := (hrecords.destroyed.mp hdestroyed).resolve_right hdestroy
        obtain ⟨hclosed, htold⟩ := hnotified hbefore
        refine ⟨?_, hrecords.events.subset htold⟩
        unfold state at hclosed ⊢
        -- a closed connection stays closed
        rcases hs.begun.step_state hsystem with hstate | ⟨hother, -⟩ | ⟨hother, -⟩ | ⟨-, hstate⟩
        · exact hstate.trans hclosed
        · cases hclosed.symm.trans hother
        · cases hclosed.symm.trans hother
        · exact hstate
  | testShutdown thread =>
      refine iff_of_true ?_ trivial
      obtain ⟨-, hstep⟩ := Except.guard_eq_ok.mp hstep
      split at hstep <;> (obtain rfl := Except.ok.inj hstep; exact hnotified)
  | storeShutdown thread =>
      obtain ⟨-, hstep⟩ := Except.guard_eq_ok.mp hstep
      obtain rfl := Except.ok.inj hstep
      unfold Notified DestroysNotified
      constructor
      · intro hafter
        exact Bool.eq_false_of_not_eq_true fun hdestroyed => by cases (hafter hdestroyed).1
      · intro hbefore hdestroyed
        cases hbefore.symm.trans hdestroyed
  | queueShutdown thread =>
      obtain ⟨-, hstep⟩ := Except.guard_eq_ok.mp hstep
      obtain rfl := Except.ok.inj hstep
      exact iff_of_true hnotified trivial

/-- In every state of a run a destroyed connection is closed and its user told, if and
only if every `connectDestroyed` finds the connection not half-closed and no call of
`shutdown` stores after it. -/
theorem notified_iff {loop : ConnId} {name : String} {sockfd : Int}
    {hasWriteCompleteCallback hasHighWaterMarkCallback : Bool} {schedule : List Action}
    (hrun : run (step ptr) (initial ptr loop name sockfd hasWriteCompleteCallback
      hasHighWaterMarkCallback) schedule = .ok s) :
    EveryState (step ptr) Notified (initial ptr loop name sockfd hasWriteCompleteCallback
        hasHighWaterMarkCallback) schedule ↔
      EveryStep (step ptr) DestroysNotified (initial ptr loop name sockfd
        hasWriteCompleteCallback hasHighWaterMarkCallback) schedule := by
  apply everyState_iff _ _ (initial_started ptr loop name sockfd _ _) nofun hrun
  · exact fun s action next hs _ hstep => step_started s action next hs hstep
  · exact fun s action next hs hnotified hstep => step_notified hs hnotified hstep

/-- The server is destroyed while the connection is connected. -/
def destroyConnected : List Action :=
  [.step .swap, .step (.runFunctor (.accepted 0)), .step .queueConnectDestroyed, .step .swap,
    .step (.runFunctor (.accepted 0))]

theorem notified_iff_destroyConnected : ∃ s, run (step 0) plain destroyConnected = .ok s ∧
    s.system.destroyed = true ∧ s.Notified := by
  have hends : ends (fun s => decide (s.system.destroyed = true))
      (run (step 0) plain destroyConnected) = true := by decide
  obtain ⟨s, hrun, hdestroyed⟩ := exists_of_ends hends
  have hmeets : EveryStep (step 0) DestroysNotified plain destroyConnected := by decide
  exact ⟨s, hrun, of_decide_eq_true hdestroyed, ((notified_iff hrun).mpr hmeets).final hrun⟩

/-- The server is destroyed after the user has called `shutdown`. -/
def destroyHalfClosed : List Action :=
  [.step .swap, .step (.runFunctor (.accepted 0)), .step .shutdownDirect,
    .step .queueConnectDestroyed, .step .swap, .step (.runFunctor (.accepted 0))]

/-- A half-closed connection is destroyed in silence. -/
theorem notified_false : ¬ ∀ (schedule : List Action) (s : Concurrent),
    run (step 0) plain schedule = .ok s → s.Notified := by
  intro hnotified
  have hends : ends (fun s => decide (s.system.destroyed = true ∧ s.state = .kDisconnecting ∧
      .connectionCallback .kDisconnected ∉ s.system.events))
      (run (step 0) plain destroyHalfClosed) = true := by decide
  obtain ⟨s, hrun, hcheck⟩ := exists_of_ends hends
  obtain ⟨hdestroyed, -, hsilent⟩ := of_decide_eq_true hcheck
  exact hsilent (hnotified destroyHalfClosed s hrun hdestroyed).2

end Concurrent

end TcpConnection

end Muduo
