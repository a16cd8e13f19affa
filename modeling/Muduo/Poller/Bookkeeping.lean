import Muduo.Poller.Basic

/-! # Poller bookkeeping

The index of a channel, the map `channels_` and the kernel's interest list are
three records of one fact. `Registered` says what the latter two hold for a
channel with a given index; every operation moves all three together and leaves
the entries of other descriptors alone.
-/

namespace Muduo

variable {Ptr : Type}

/-- What the poller and the kernel hold for the descriptor of a channel with this
index and registered mask. -/
def EpollPoller.Registered (p : EpollPoller Ptr) (self : Ptr) (fd : Int)
    (mask : EventMask) : Index → Prop
  | .kNew => p.channels fd = none ∧ p.kernel fd = none
  | .kAdded => p.channels fd = some self ∧ p.kernel fd = some ⟨mask, self⟩
  | .kDeleted => p.channels fd = some self ∧ p.kernel fd = none

/-- The poller's records of one channel are up to date. -/
def EpollPoller.Tracks (p : EpollPoller Ptr) (self : Ptr) (c : Channel) : Prop :=
  p.Registered self c.fd c.events c.index

/-- The two pollers agree on every descriptor but one, and no call has failed. -/
structure EpollPoller.SameExcept (p next : EpollPoller Ptr) (fd : Int) : Prop where
  channels : ∀ other, other ≠ fd → next.channels other = p.channels other
  kernel : ∀ other, other ≠ fd → next.kernel other = p.kernel other
  failures : next.failures = p.failures

theorem EpollPoller.SameExcept.tracks {p next : EpollPoller Ptr} {fd : Int}
    (hsame : p.SameExcept next fd) {self : Ptr} {c : Channel} (hfd : c.fd ≠ fd)
    (htracks : p.Tracks self c) : next.Tracks self c := by
  unfold Tracks Registered at *
  cases hindex : c.index <;> rw [hindex] at htracks <;>
    simpa only [hsame.channels c.fd hfd, hsame.kernel c.fd hfd] using htracks

/-- The index a channel has after an update with this mask. -/
def Index.updated (index : Index) (events : EventMask) : Index :=
  match index with
  | .kAdded => if events = Channel.kNoneEvent then .kDeleted else .kAdded
  | _ => .kAdded

/-- `updateChannel` never fails on a registered channel, whatever mask was
registered before: it ends with all records up to date. -/
theorem EpollPoller.updateChannel_ok {p : EpollPoller Ptr} {self : Ptr} {c : Channel}
    {mask : EventMask} (hregistered : p.Registered self c.fd mask c.index) :
    ∃ next, p.updateChannel self c = .ok (next, { c with index := c.index.updated c.events }) ∧
      next.Tracks self { c with index := c.index.updated c.events } ∧
      p.SameExcept next c.fd := by
  unfold updateChannel
  -- the index decides on the operation, and the records say that it succeeds
  cases hindex : c.index with
  | kNew =>
      rw [hindex] at hregistered
      obtain ⟨-, hkernel⟩ := hregistered
      simp only [update, epollCtl, hkernel, bind, Except.bind]
      refine ⟨_, rfl, ?_, ?_, ?_, rfl⟩
      · simp [Tracks, Registered, Index.updated]
      all_goals
        intro other hother
        simp [hother]
  | kDeleted =>
      rw [hindex] at hregistered
      obtain ⟨hchannels, hkernel⟩ := hregistered
      simp only [update, epollCtl, hkernel, bind, Except.bind]
      refine ⟨_, rfl, ?_, ?_, ?_, rfl⟩
      · simp [Tracks, Registered, Index.updated, hchannels]
      · exact fun _ _ => rfl
      · intro other hother
        simp [hother]
  | kAdded =>
      rw [hindex] at hregistered
      obtain ⟨hchannels, hkernel⟩ := hregistered
      by_cases hnone : c.events = Channel.kNoneEvent
      · simp only [Channel.isNoneEvent, hnone, update, epollCtl, hkernel, bind, Except.bind,
          decide_true, ↓reduceIte]
        refine ⟨_, rfl, ?_, ?_, ?_, rfl⟩
        · simp [Tracks, Registered, Index.updated, hchannels]
        · exact fun _ _ => rfl
        · intro other hother
          simp [hother]
      · have hkeep : { c with index := Index.kAdded.updated c.events } = c := by
          simp [Index.updated, hnone, ← hindex]
        rw [hkeep]
        simp only [Channel.isNoneEvent, hnone, update, epollCtl, hkernel, bind, Except.bind,
          decide_false, Bool.false_eq_true, ↓reduceIte]
        refine ⟨_, rfl, ?_, ?_, ?_, rfl⟩
        · simp [Tracks, Registered, hindex, hchannels]
        · exact fun _ _ => rfl
        · intro other hother
          simp [hother]

/-- After `removeChannle` no record of the channel is left. -/
theorem EpollPoller.removeChannle_ok {p : EpollPoller Ptr} {self : Ptr} {c : Channel}
    (htracks : p.Tracks self c) :
    ∃ next, p.removeChannle self c = .ok (next, { c with index := .kNew }) ∧
      next.Tracks self { c with index := .kNew } ∧ p.SameExcept next c.fd := by
  unfold Tracks Registered at htracks
  unfold removeChannle
  cases hindex : c.index with
  | kAdded =>
      rw [hindex] at htracks
      simp only [update, epollCtl, htracks.2, bind, Except.bind, ↓reduceIte]
      refine ⟨_, rfl, ?_, ?_, ?_, rfl⟩
      · simp [Tracks, Registered]
      all_goals
        intro other hother
        simp [hother]
  | kNew | kDeleted =>
      rw [hindex] at htracks
      simp only [reduceCtorEq, ↓reduceIte, bind, Except.bind]
      refine ⟨_, rfl, ?_, ?_, fun _ _ => rfl, rfl⟩
      · simp [Tracks, Registered, htracks.2]
      · intro other hother
        simp [hother]

/-- Setting a mask on a tracked channel. -/
theorem Channel.setEvents_ok {p : EpollPoller Ptr} {self : Ptr} {c : Channel}
    (htracks : p.Tracks self c) (events : EventMask) :
    ∃ next, Channel.setEvents events p self c =
        .ok (next, { c with events, index := c.index.updated events }) ∧
      next.Tracks self { c with events, index := c.index.updated events } ∧
      p.SameExcept next c.fd :=
  EpollPoller.updateChannel_ok (c := { c with events }) htracks

/-! ## Any number of channels on one poller -/

/-- The public operations that reach the poller. -/
inductive ChannelOp where
  | enableReading
  | disableReading
  | enableWriting
  | disableWriting
  | disableAll
  | remove
  deriving DecidableEq, Repr

def ChannelOp.exec (op : ChannelOp) (p : EpollPoller Ptr) (self : Ptr) (c : Channel) :
    Except Stop (EpollPoller Ptr × Channel) :=
  match op with
  | .enableReading => c.enableReading p self
  | .disableReading => c.disableReading p self
  | .enableWriting => c.enableWriting p self
  | .disableWriting => c.disableWriting p self
  | .disableAll => c.disableAll p self
  | .remove => c.remove p self

theorem ChannelOp.exec_ok (op : ChannelOp) {p : EpollPoller Ptr} {self : Ptr} {c : Channel}
    (htracks : p.Tracks self c) :
    ∃ next channel, op.exec p self c = .ok (next, channel) ∧ channel.fd = c.fd ∧
      next.Tracks self channel ∧ p.SameExcept next c.fd := by
  cases op with
  | remove =>
      obtain ⟨next, hnext, hafter⟩ := EpollPoller.removeChannle_ok htracks
      exact ⟨next, _, hnext, rfl, hafter⟩
  | enableReading | disableReading | enableWriting | disableWriting | disableAll =>
      obtain ⟨next, hnext, hafter⟩ := Channel.setEvents_ok htracks _
      exact ⟨next, _, hnext, rfl, hafter⟩

/-- A family of channels and the poller of their loop. -/
structure PollerState (Ptr : Type) where
  poller : EpollPoller Ptr
  channel : Ptr → Channel

namespace PollerState

/-- Fresh channels on the given descriptors. -/
def initial (fd : Ptr → Int) : PollerState Ptr :=
  ⟨EpollPoller.create, fun self => Channel.create (fd self)⟩

variable [DecidableEq Ptr]

def step (s : PollerState Ptr) (call : Ptr × ChannelOp) : Except Stop (PollerState Ptr) := do
  let (poller, channel) ← call.2.exec s.poller call.1 (s.channel call.1)
  return ⟨poller, Function.update s.channel call.1 channel⟩

/-- Every channel keeps its descriptor, all records are up to date and no
`epoll_ctl` call has failed. -/
structure Consistent (fd : Ptr → Int) (s : PollerState Ptr) : Prop where
  fds : ∀ self, (s.channel self).fd = fd self
  tracks : ∀ self, s.poller.Tracks self (s.channel self)
  failures : s.poller.failures = []

omit [DecidableEq Ptr] in
theorem initial_consistent (fd : Ptr → Int) : Consistent fd (initial fd) :=
  ⟨fun _ => rfl, fun _ => ⟨rfl, rfl⟩, rfl⟩

/-- One call always returns and keeps all channels consistent: its own because
the operation updates it, the others because their descriptors are different. -/
theorem step_consistent {fd : Ptr → Int} (hfd : Function.Injective fd) {s : PollerState Ptr}
    (hs : Consistent fd s) (call : Ptr × ChannelOp) :
    ∃ next, step s call = .ok next ∧ Consistent fd next := by
  obtain ⟨self, op⟩ := call
  obtain ⟨poller, channel, hexec, hsame, htracks, hothers⟩ := op.exec_ok (hs.tracks self)
  refine ⟨⟨poller, Function.update s.channel self channel⟩, ?_, ?_, ?_, ?_⟩
  · simp [step, hexec, bind, Except.bind, pure, Except.pure]
  · intro other
    by_cases hother : other = self
    · subst other
      simp [hsame, hs.fds]
    · simp [hother, hs.fds]
  · intro other
    by_cases hother : other = self
    · subst other
      simpa using htracks
    · simp only [Function.update_of_ne hother]
      apply hothers.tracks _ (hs.tracks other)
      rw [hs.fds, hs.fds]
      exact fun heq => hother (hfd heq)
  · exact hothers.failures.trans hs.failures

/-- Every sequence of calls returns, and keeps all channels consistent. -/
theorem run_consistent {fd : Ptr → Int} (hfd : Function.Injective fd) {s : PollerState Ptr}
    (hs : Consistent fd s) (calls : List (Ptr × ChannelOp)) :
    ∃ final, Transition.run step s calls = .ok final ∧ Consistent fd final := by
  induction calls generalizing s with
  | nil => exact ⟨s, rfl, hs⟩
  | cons call rest ih =>
      obtain ⟨middle, hstep, hmiddle⟩ := step_consistent hfd hs call
      obtain ⟨final, hrest, hfinal⟩ := ih hmiddle
      exact ⟨final, Transition.run_cons_eq_ok.mpr ⟨middle, hstep, hrest⟩, hfinal⟩

/-- **The poller's bookkeeping matches the kernel.** Any calls on channels with
different descriptors return, so none of them exits. Then a descriptor is in the
epoll set iff the index of its channel is `kAdded`, with the current mask and
the channel itself; it is in `channels_` iff the index is `kAdded` or
`kDeleted`; and no `epoll_ctl` call has failed. -/
theorem poller_matches_kernel {fd : Ptr → Int} (hfd : Function.Injective fd)
    (calls : List (Ptr × ChannelOp)) :
    ∃ s, Transition.run step (initial fd) calls = .ok s ∧
      (∀ self, (s.channel self).fd = fd self ∧
        ((s.poller.kernel (fd self)).isSome ↔ (s.channel self).index = .kAdded) ∧
        ((s.channel self).index = .kAdded →
          s.poller.kernel (fd self) = some ⟨(s.channel self).events, self⟩) ∧
        (s.poller.channels (fd self) = some self ↔
          (s.channel self).index = .kAdded ∨ (s.channel self).index = .kDeleted) ∧
        (s.poller.hasChannel self (s.channel self) ↔ (s.channel self).index ≠ .kNew)) ∧
      s.poller.failures = [] := by
  obtain ⟨s, hrun, hs⟩ := run_consistent hfd (initial_consistent fd) calls
  refine ⟨s, hrun, ?_, hs.failures⟩
  intro self
  have htracks := hs.tracks self
  unfold EpollPoller.Tracks EpollPoller.Registered at htracks
  rw [hs.fds] at htracks
  simp only [EpollPoller.hasChannel, hs.fds, decide_eq_true_eq, true_and]
  cases hindex : (s.channel self).index <;> rw [hindex] at htracks <;> simp [htracks]

/-- Two channels, one of them removed and added again. -/
theorem poller_matches_kernel_two :
    ∃ s, Transition.run step (initial fun self : Bool => if self then 7 else 9)
        [(true, .enableReading), (false, .disableAll), (true, .remove), (true, .enableWriting)]
        = .ok s ∧ s.poller.failures = [] := by
  have hfd : Function.Injective fun self : Bool => if self then (7 : Int) else 9 := by
    intro first second
    cases first <;> cases second <;> simp
  obtain ⟨s, hrun, -, hfailures⟩ := poller_matches_kernel hfd
    [(true, .enableReading), (false, .disableAll), (true, .remove), (true, .enableWriting)]
  exact ⟨s, hrun, hfailures⟩

end PollerState

end Muduo
