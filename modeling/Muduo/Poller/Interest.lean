import Muduo.Poller.Bookkeeping

/-! # Channels without interest

A descriptor that is registered with an empty mask still reports errors and hangups, so
a channel without interest should not be in the epoll set. `updateChannel` looks at the
mask only when the index is `kAdded`: a channel that is not registered is added whatever
its mask is. Clearing the mask of a registered channel takes it out, clearing it once
more puts it in again.
-/

open Transition

namespace Muduo

/-- The mask an operation sets. -/
def ChannelOp.mask (op : ChannelOp) (events : EventMask) : Option EventMask :=
  match op with
  | .enableReading => some (events ||| Channel.kReadEvent)
  | .disableReading => some (events &&& ~~~Channel.kReadEvent)
  | .enableWriting => some (events ||| Channel.kWriteEvent)
  | .disableWriting => some (events &&& ~~~Channel.kWriteEvent)
  | .disableAll => some Channel.kNoneEvent
  | .remove => none

variable {Ptr : Type} {op : ChannelOp} {mask : EventMask}

theorem ChannelOp.exec_of_mask {c : Channel} (hmask : op.mask c.events = some mask)
    (p : EpollPoller Ptr) (self : Ptr) : op.exec p self c = c.setEvents mask p self := by
  cases op with
  | remove => cases hmask
  | enableReading | disableReading | enableWriting | disableWriting | disableAll =>
      obtain rfl := Option.some.inj hmask
      rfl

theorem ChannelOp.mask_isSome (events : EventMask) :
    (op.mask events).isSome ↔ op ≠ .remove := by
  cases op <;> simp [mask]

theorem Index.updated_none {index : Index} (hadded : index = .kAdded) :
    index.updated Channel.kNoneEvent = .kDeleted := by
  rw [hadded]
  rfl

theorem Index.updated_some {index : Index} (hmask : mask ≠ Channel.kNoneEvent) :
    index.updated mask = .kAdded := by
  cases index <;> simp [updated, hmask]

/-- A channel that is not registered is added, with or without interest. -/
theorem Index.updated_new {index : Index} (hadded : index ≠ .kAdded) :
    index.updated mask = .kAdded := by
  cases index <;> simp_all [updated]

namespace PollerState

variable [DecidableEq Ptr] {fd : Ptr → Int} {s next : PollerState Ptr} {self : Ptr}

omit [DecidableEq Ptr] in
theorem Consistent.registered_iff (hs : Consistent fd s) (self : Ptr) :
    (s.poller.kernel (fd self)).isSome ↔ (s.channel self).index = .kAdded := by
  have htracks := hs.tracks self
  unfold EpollPoller.Tracks EpollPoller.Registered at htracks
  rw [hs.fds] at htracks
  cases hindex : (s.channel self).index <;> rw [hindex] at htracks <;> simp [htracks]

/-- What setting a mask leaves in the channel. -/
theorem step_channel (hs : Consistent fd s)
    (hmask : op.mask (s.channel self).events = some mask) (hstep : s.step (self, op) = .ok next) :
    next.channel = Function.update s.channel self
      { s.channel self with events := mask, index := (s.channel self).index.updated mask } := by
  obtain ⟨poller, hset, -⟩ := Channel.setEvents_ok (hs.tracks self) mask
  unfold step at hstep
  simp only [ChannelOp.exec_of_mask hmask, hset, bind, Except.bind, pure, Except.pure,
    Except.ok.injEq] at hstep
  exact hstep ▸ rfl

theorem step_kept (hfd : Function.Injective fd) (hs : Consistent fd s) {call : Ptr × ChannelOp}
    (hstep : s.step call = .ok next) : Consistent fd next := by
  obtain ⟨other, hother, hnext⟩ := step_consistent hfd hs call
  obtain rfl := Except.ok.inj (hother.symm.trans hstep)
  exact hnext

end PollerState

/-! ## Calls with their history -/

/-- The channels of a poller, with the last call on each of them. -/
structure CallHistory (Ptr : Type) where
  state : PollerState Ptr
  last : Ptr → Option ChannelOp

namespace CallHistory

def initial (fd : Ptr → Int) : CallHistory Ptr := ⟨PollerState.initial fd, fun _ => none⟩

variable [DecidableEq Ptr]

def step (h : CallHistory Ptr) (call : Ptr × ChannelOp) : Except Stop (CallHistory Ptr) := do
  let state ← h.state.step call
  return ⟨state, Function.update h.last call.1 (some call.2)⟩

/-- After a call that sets the mask the descriptor is in the epoll set if and only if the
channel has interest, and a second `disableAll` changes neither the epoll set nor the
records of the poller. -/
structure Exact (h : CallHistory Ptr) (call : Ptr × ChannelOp) : Prop where
  interest : call.2 ≠ .remove → ∀ next, h.step call = .ok next →
    ((next.state.poller.kernel (next.state.channel call.1).fd).isSome ↔
      (next.state.channel call.1).isNoneEvent = false)
  again : h.last call.1 = some .disableAll → call.2 = .disableAll →
    ∀ next, h.step call = .ok next → next.state.poller.kernel = h.state.poller.kernel ∧
      next.state.poller.channels = h.state.poller.channels ∧
      (next.state.channel call.1).index = (h.state.channel call.1).index

/-- Only a registered channel loses its last interest. -/
def ClearsAdded (h : CallHistory Ptr) (call : Ptr × ChannelOp) : Prop :=
  call.2.mask (h.state.channel call.1).events = some Channel.kNoneEvent →
    (h.state.channel call.1).index = .kAdded

instance (h : CallHistory Ptr) (call : Ptr × ChannelOp) : Decidable (h.ClearsAdded call) :=
  inferInstanceAs (Decidable (_ → _))

variable {fd : Ptr → Int} {h next : CallHistory Ptr} {call : Ptr × ChannelOp}

theorem step_eq_ok : h.step call = .ok next ↔ ∃ state, h.state.step call = .ok state ∧
    ⟨state, Function.update h.last call.1 (some call.2)⟩ = next := by
  unfold step
  rw [Except.bind_eq_ok]
  simp only [pure, Except.pure, Except.ok.injEq]

/-- The descriptor is in the epoll set after a call that sets the mask, unless the call
took away the last interest of a registered channel. -/
theorem registered_step (hfd : Function.Injective fd) (hs : h.state.Consistent fd)
    (hmask : call.2.mask (h.state.channel call.1).events = some mask)
    (hstep : h.step call = .ok next) :
    ((next.state.poller.kernel (next.state.channel call.1).fd).isSome ↔
      (h.state.channel call.1).index.updated mask = .kAdded) ∧
    (next.state.channel call.1).events = mask := by
  obtain ⟨state, hstate, rfl⟩ := step_eq_ok.mp hstep
  have hnext := PollerState.step_kept hfd hs hstate
  have hchannel := congrFun (PollerState.step_channel hs hmask hstate) call.1
  rw [Function.update_self] at hchannel
  dsimp only
  rw [hnext.fds, hnext.registered_iff, hchannel]
  exact ⟨Iff.rfl, rfl⟩

/-- An exact call clears registered channels only: any other is added without
interest. -/
theorem Exact.clearsAdded (hfd : Function.Injective fd) (hs : h.state.Consistent fd)
    (hexact : h.Exact call) : h.ClearsAdded call := by
  intro hmask
  by_contra hadded
  obtain ⟨state, hstate, -⟩ := PollerState.step_consistent hfd hs call
  have hstep : h.step call = .ok ⟨state, _⟩ := step_eq_ok.mpr ⟨state, hstate, rfl⟩
  obtain ⟨hregistered, hevents⟩ := registered_step hfd hs hmask hstep
  have hset : call.2 ≠ .remove := by
    rw [← ChannelOp.mask_isSome, hmask]
    rfl
  have hinterest := (hexact.interest hset _ hstep).mp
    (hregistered.mpr (Index.updated_new hadded))
  rw [Channel.isNoneEvent, hevents] at hinterest
  exact absurd hinterest (by decide)

/-- All records are up to date, and a channel cleared by its last call is deleted. -/
structure Cleared (fd : Ptr → Int) (h : CallHistory Ptr) : Prop where
  consistent : h.state.Consistent fd
  deleted : ∀ self, h.last self = some .disableAll → (h.state.channel self).index = .kDeleted

omit [DecidableEq Ptr] in
theorem initial_cleared (fd : Ptr → Int) : (initial fd).Cleared fd :=
  ⟨PollerState.initial_consistent fd, by rintro _ ⟨⟩⟩

theorem Cleared.step (hfd : Function.Injective fd) (hs : h.Cleared fd)
    (hclears : h.ClearsAdded call) (hstep : h.step call = .ok next) : next.Cleared fd := by
  obtain ⟨state, hstate, rfl⟩ := step_eq_ok.mp hstep
  refine ⟨PollerState.step_kept hfd hs.consistent hstate, fun self hlast => ?_⟩
  obtain ⟨target, op⟩ := call
  dsimp only at hlast ⊢
  by_cases hself : self = target
  · subst hself
    rw [Function.update_self, Option.some.injEq] at hlast
    subst hlast
    rw [PollerState.step_channel hs.consistent rfl hstate, Function.update_self]
    exact Index.updated_none (hclears rfl)
  · rw [Function.update_of_ne hself] at hlast
    have hother : state.channel self = h.state.channel self := by
      unfold PollerState.step at hstate
      obtain ⟨result, -, hstate⟩ := Except.bind_eq_ok.mp hstate
      obtain rfl := Except.ok.inj hstate
      exact Function.update_of_ne hself ..
    rw [hother]
    exact hs.deleted self hlast

theorem ClearsAdded.exact (hfd : Function.Injective fd) (hs : h.Cleared fd)
    (hclears : h.ClearsAdded call) : h.Exact call := by
  constructor
  · intro hset next hstep
    obtain ⟨mask, hmask⟩ := Option.isSome_iff_exists.mp ((ChannelOp.mask_isSome _).mpr hset)
    obtain ⟨hregistered, hevents⟩ := registered_step hfd hs.consistent hmask hstep
    rw [hregistered, Channel.isNoneEvent, hevents, decide_eq_false_iff_not]
    by_cases hnone : mask = Channel.kNoneEvent
    · subst hnone
      simp [Index.updated_none (hclears hmask)]
    · simp [Index.updated_some hnone, hnone]
  · intro hlast hagain
    -- a deleted channel may not be cleared again
    have hadded := hclears (by rw [hagain]; rfl)
    rw [hs.deleted _ hlast] at hadded
    cases hadded

/-- Clearing a mask twice never ends where clearing it once does: of two calls of
`disableAll` in a row exactly one leaves the descriptor in the epoll set. -/
theorem disableAll_alternates (hfd : Function.Injective fd) (hs : h.state.Consistent fd)
    {self : Ptr} {once twice : CallHistory Ptr} (hfirst : h.step (self, .disableAll) = .ok once)
    (hsecond : once.step (self, .disableAll) = .ok twice) :
    (twice.state.poller.kernel (fd self)).isSome ↔
      ¬ (once.state.poller.kernel (fd self)).isSome := by
  obtain ⟨first, honce, rfl⟩ := step_eq_ok.mp hfirst
  have hconsistent := PollerState.step_kept hfd hs honce
  obtain ⟨hregistered, -⟩ := registered_step hfd hconsistent rfl hsecond
  obtain ⟨second, htwice, rfl⟩ := step_eq_ok.mp hsecond
  rw [(PollerState.step_kept hfd hconsistent htwice).fds] at hregistered
  dsimp only at hregistered ⊢
  rw [hregistered, hconsistent.registered_iff]
  cases (first.channel self).index <;> simp [Index.updated]

/-- **Channels without interest stay out of the epoll set**, and clearing the mask again
changes nothing, in every sequence of calls whose calls clear registered channels only,
and in no other. -/
theorem exact_iff (hfd : Function.Injective fd) (calls : List (Ptr × ChannelOp)) :
    EveryStep step Exact (initial fd) calls ↔ EveryStep step ClearsAdded (initial fd) calls := by
  have hkept (h : CallHistory Ptr) (call : Ptr × ChannelOp) (next : CallHistory Ptr)
      (hs : h.state.Consistent fd) (_ : h.Exact call) (hstep : h.step call = .ok next) :
      next.state.Consistent fd := by
    obtain ⟨state, hstate, rfl⟩ := step_eq_ok.mp hstep
    exact PollerState.step_kept hfd hs hstate
  constructor
  · exact EveryStep.imp hkept (fun h call hs hexact => hexact.clearsAdded hfd hs)
      (PollerState.initial_consistent fd)
  · exact EveryStep.imp (fun h call next hs hclears hstep => hs.step hfd hclears hstep)
      (fun h call hs hclears => hclears.exact hfd hs) (initial_cleared fd)

/-- The only channel of a poller. -/
def oneChannel : Unit → Int := fun _ => 7

theorem exact_iff_clearOnce : EveryStep step Exact (initial oneChannel)
    [((), .enableReading), ((), .enableWriting), ((), .disableAll), ((), .remove)] := by
  have hfd : Function.Injective oneChannel := Function.injective_of_subsingleton _
  exact (exact_iff hfd _).mpr (by decide)

/-- A channel is cleared before it was ever registered. -/
theorem exact_false : ¬ ∀ calls : List (Unit × ChannelOp),
    EveryStep step Exact (initial oneChannel) calls := by
  intro hclaim
  obtain ⟨⟨hinterest, -⟩, -⟩ := hclaim [((), .disableAll)]
  obtain ⟨state, hstep⟩ : ∃ state, (initial oneChannel).step ((), .disableAll) = .ok state :=
    ⟨_, rfl⟩
  obtain rfl := Except.ok.inj hstep
  exact absurd (hinterest (by decide) _ rfl) (by decide)

end CallHistory

end Muduo
