import Muduo.Poller.Interest

/-! # Waiting for events

`EpollPoller::poll` gives `epoll_wait` the array `events_`, and the kernel fills at most that many
entries. A full array is doubled, so a ready descriptor that finds no room finds it a few calls
later.
-/

open Transition

namespace Muduo

variable {Ptr : Type}

/-- What `epoll_wait` returns: the filled entries of the array, or `errno`. -/
inductive WaitResult (Ptr : Type) where
  | events (filled : List (EpollEvent Ptr))
  | failed (errno : Errno)

/-- `EINVAL` -/
def Errno.einval : Errno := .other 22

/-- `epoll_wait`, when the kernel lists the ready descriptors in this order. It reports the first
of them, each with the registered pointer. -/
def epollWait (kernel : InterestList Ptr) (ready : List (Int × EventMask)) (maxevents : Int) :
    WaitResult Ptr :=
  if 0 < maxevents then
    .events ((ready.take maxevents.toNat).filterMap fun event =>
      (kernel event.1).map fun registered => ⟨event.2, registered.ptr⟩)
  else .failed .einval

def EpollPoller.kInitEventListSize : Nat := 16

/-- A poller and its channels, with the array `events_` and the list `activeChannels_` of the
loop. -/
structure PollingState (Ptr : Type) extends PollerState Ptr where
  /-- `events_.size()` -/
  eventListSize : Nat
  activeChannels : List Ptr
  /-- the calls of `poll` so far that left out a ready descriptor -/
  incomplete : Nat

namespace PollingState

def initial (fd : Ptr → Int) : PollingState Ptr where
  toPollerState := PollerState.initial fd
  eventListSize := EpollPoller.kInitEventListSize
  activeChannels := []
  incomplete := 0

/-- `static_cast<int>(events_.size())` -/
def maxEvents (s : PollingState Ptr) : Int := (BitVec.ofNat 32 s.eventListSize).toInt

/-- `activeChannels_.clear()`, before the loop polls. -/
def clear (s : PollingState Ptr) : PollingState Ptr := { s with activeChannels := [] }

variable [DecidableEq Ptr]

def fillActiveChannel (s : PollingState Ptr) (event : EpollEvent Ptr) : PollingState Ptr :=
  { s with
    channel := Function.update s.channel event.ptr
      { s.channel event.ptr with revents := event.events }
    activeChannels := s.activeChannels ++ [event.ptr] }

def fillActiveChannels (filled : List (EpollEvent Ptr)) (s : PollingState Ptr) :
    PollingState Ptr :=
  filled.foldl fillActiveChannel s

/-- `poll`, with the result of `epoll_wait`. -/
def poll (result : WaitResult Ptr) (s : PollingState Ptr) : PollingState Ptr :=
  match result with
  | .events filled =>
      if 0 < filled.length then
        let s := s.fillActiveChannels filled
        if filled.length = s.eventListSize then
          { s with eventListSize := s.eventListSize * 2 }
        else s
      else s
  | .failed _ => s

inductive Action (Ptr : Type) where
  | call (self : Ptr) (op : ChannelOp)
  /-- the loop polls while the kernel has these descriptors in its list -/
  | poll (ready : List (Int × EventMask))
  /-- a signal arrives, or the call fails otherwise -/
  | interrupted (errno : Errno)

def step (s : PollingState Ptr) : Action Ptr → Except Stop (PollingState Ptr)
  | .call self op => do
      return { s with toPollerState := ← s.toPollerState.step (self, op) }
  | .poll ready =>
      -- only registered descriptors are listed, each of them once
      if (ready.map Prod.fst).Nodup ∧ ∀ event ∈ ready, (s.poller.kernel event.1).isSome then
        let next := s.clear.poll (epollWait s.poller.kernel ready s.maxEvents)
        .ok { next with
          incomplete := s.incomplete + if next.activeChannels.length < ready.length then 1 else 0 }
      else .error .disabled
  | .interrupted errno => .ok (s.clear.poll (.failed errno))

variable {fd : Ptr → Int} {s next : PollingState Ptr} {filled : List (EpollEvent Ptr)}

/-! ## The reported channels -/

theorem fillActiveChannels_cons (event : EpollEvent Ptr) (rest : List (EpollEvent Ptr))
    (s : PollingState Ptr) :
    s.fillActiveChannels (event :: rest) = (s.fillActiveChannel event).fillActiveChannels rest :=
  rfl

/-- The poller and the array stay, and the pointers are appended. -/
theorem fillActiveChannels_same (filled : List (EpollEvent Ptr)) (s : PollingState Ptr) :
    (s.fillActiveChannels filled).poller = s.poller ∧
      (s.fillActiveChannels filled).eventListSize = s.eventListSize ∧
      (s.fillActiveChannels filled).activeChannels =
        s.activeChannels ++ filled.map EpollEvent.ptr := by
  induction filled generalizing s with
  | nil => exact ⟨rfl, rfl, (List.append_nil _).symm⟩
  | cons event rest ih =>
      obtain ⟨hpoller, hsize, hactive⟩ := ih (s.fillActiveChannel event)
      rw [fillActiveChannels_cons, hpoller, hsize, hactive]
      refine ⟨rfl, rfl, ?_⟩
      rw [fillActiveChannel, List.append_assoc, List.map_cons]
      rfl

/-- A channel only gets other `revents`. -/
theorem fillActiveChannels_channel (filled : List (EpollEvent Ptr)) (s : PollingState Ptr)
    (self : Ptr) : ∃ revents, (s.fillActiveChannels filled).channel self =
      { s.channel self with revents } := by
  induction filled generalizing s with
  | nil => exact ⟨(s.channel self).revents, rfl⟩
  | cons event rest ih =>
      obtain ⟨revents, hchannel⟩ := ih (s.fillActiveChannel event)
      refine ⟨revents, ?_⟩
      rw [fillActiveChannels_cons, hchannel]
      by_cases hself : self = event.ptr
      · subst hself
        simp [fillActiveChannel]
      · simp [fillActiveChannel, hself]

theorem fillActiveChannels_of_not_mem {self : Ptr} (hself : self ∉ filled.map EpollEvent.ptr)
    (s : PollingState Ptr) :
    (s.fillActiveChannels filled).channel self = s.channel self := by
  induction filled generalizing s with
  | nil => rfl
  | cons event rest ih =>
      rw [List.map_cons, List.mem_cons, not_or] at hself
      rw [fillActiveChannels_cons, ih hself.2]
      simp [fillActiveChannel, hself.1]

/-- Each reported channel has the mask it was reported with. -/
theorem fillActiveChannels_revents (hnodup : (filled.map EpollEvent.ptr).Nodup)
    (s : PollingState Ptr) {event : EpollEvent Ptr} (hevent : event ∈ filled) :
    ((s.fillActiveChannels filled).channel event.ptr).revents = event.events := by
  induction filled generalizing s with
  | nil => cases hevent
  | cons first rest ih =>
      rw [List.map_cons, List.nodup_cons] at hnodup
      rw [fillActiveChannels_cons]
      rcases List.mem_cons.mp hevent with rfl | hlater
      · rw [fillActiveChannels_of_not_mem hnodup.1]
        simp [fillActiveChannel]
      · exact ih hnodup.2 _ hlater

/-! ## What the poller keeps -/

/-- All records are up to date, and a registered descriptor is that of the channel registered for
it. -/
structure Sound (fd : Ptr → Int) (s : PollingState Ptr) : Prop where
  consistent : PollerState.Consistent fd s.toPollerState
  owned : ∀ other event, s.poller.kernel other = some event → fd event.ptr = other

omit [DecidableEq Ptr] in
theorem initial_sound (fd : Ptr → Int) : (initial fd).Sound fd where
  consistent := PollerState.initial_consistent fd
  owned := nofun

theorem call_sound (hfd : Function.Injective fd) (hs : s.Sound fd) {self : Ptr} {op : ChannelOp}
    (hstep : s.step (.call self op) = .ok next) : next.Sound fd := by
  obtain ⟨registry, hcall, hstep⟩ := Except.bind_eq_ok.mp hstep
  obtain rfl := Except.ok.inj hstep
  have hconsistent : PollerState.Consistent fd registry :=
    PollerState.step_kept hfd hs.consistent hcall
  refine ⟨hconsistent, fun other event hkernel => ?_⟩
  obtain ⟨poller, channel, hexec, -, -, hothers⟩ := op.exec_ok (hs.consistent.tracks self)
  have hpoller : registry.poller = poller := by
    unfold PollerState.step at hcall
    rw [hexec] at hcall
    obtain rfl := Except.ok.inj hcall
    rfl
  rw [hs.consistent.fds] at hothers
  by_cases hother : other = fd self
  · -- the channel is registered for its own descriptor
    have htracks := hconsistent.tracks self
    unfold EpollPoller.Tracks EpollPoller.Registered at htracks
    rw [hconsistent.fds, ← hother] at htracks
    dsimp only at hkernel
    cases hindex : (registry.channel self).index with
    | kAdded =>
        rw [hindex] at htracks
        obtain rfl := Option.some.inj (htracks.2.symm.trans hkernel)
        exact hother.symm
    | kNew | kDeleted =>
        rw [hindex] at htracks
        cases htracks.2.symm.trans hkernel
  · dsimp only at hkernel
    rw [hpoller, hothers.kernel other hother] at hkernel
    exact hs.owned other event hkernel

omit [DecidableEq Ptr] in
theorem Sound.of_revents (hs : s.Sound fd) (hpoller : next.poller = s.poller)
    (hchannel : ∀ self, ∃ revents, next.channel self = { s.channel self with revents }) :
    next.Sound fd := by
  refine ⟨⟨fun self => ?_, fun self => ?_, ?_⟩, ?_⟩
  · obtain ⟨revents, hself⟩ := hchannel self
    rw [hself]
    exact hs.consistent.fds self
  · obtain ⟨revents, hself⟩ := hchannel self
    rw [hself, hpoller]
    exact hs.consistent.tracks self
  · rw [hpoller]
    exact hs.consistent.failures
  · rw [hpoller]
    exact hs.owned

theorem poll_sound (hs : s.Sound fd) (result : WaitResult Ptr) : (s.poll result).Sound fd := by
  cases result with
  | failed errno => exact hs
  | events filled =>
      have hfilled : (s.fillActiveChannels filled).Sound fd :=
        hs.of_revents (fillActiveChannels_same filled s).1 (fillActiveChannels_channel filled s)
      unfold poll
      dsimp only
      split
      next =>
        split
        · exact ⟨hfilled.consistent, hfilled.owned⟩
        · exact hfilled
      next => exact hs

theorem step_sound (hfd : Function.Injective fd) (s : PollingState Ptr) (action : Action Ptr)
    (next : PollingState Ptr) (hs : s.Sound fd) (hstep : s.step action = .ok next) :
    next.Sound fd := by
  have hclear : s.clear.Sound fd := ⟨hs.consistent, hs.owned⟩
  cases action with
  | call self op => exact call_sound hfd hs hstep
  | poll ready =>
      obtain ⟨-, hstep⟩ := Except.guard_eq_ok.mp hstep
      obtain rfl := Except.ok.inj hstep
      have hpolled := poll_sound hclear (epollWait s.poller.kernel ready s.maxEvents)
      exact ⟨hpolled.consistent, hpolled.owned⟩
  | interrupted errno =>
      obtain rfl := Except.ok.inj hstep
      exact poll_sound hclear _

/-! ## One call of `poll` -/

omit [DecidableEq Ptr] in
theorem maxEvents_eq (hsize : s.eventListSize < 2 ^ 31) : s.maxEvents = s.eventListSize := by
  unfold maxEvents
  rw [BitVec.toInt_ofNat', Int.bmod_eq_of_le_mul_two]
  · omega
  · omega

omit [DecidableEq Ptr] in
/-- The entries are the first ready descriptors. -/
theorem epollWait_eq (hs : s.Sound fd) {ready : List (Int × EventMask)}
    (hready : ∀ event ∈ ready, (s.poller.kernel event.1).isSome) {size : Nat} (hsize : 0 < size) :
    ∃ filled, epollWait s.poller.kernel ready size = .events filled ∧
      filled.map (fun event => (fd event.ptr, event.events)) = ready.take size := by
  refine ⟨_, if_pos (Int.natCast_pos.mpr hsize), ?_⟩
  rw [Int.toNat_natCast, List.map_filterMap]
  have hreported (event : Int × EventMask) (hevent : event ∈ ready.take size) :
      (((s.poller.kernel event.1).map fun registered =>
        (⟨event.2, registered.ptr⟩ : EpollEvent Ptr)).map fun filled =>
          (fd filled.ptr, filled.events)) = some event := by
    obtain ⟨registered, hkernel⟩ :=
      Option.isSome_iff_exists.mp (hready event (List.mem_of_mem_take hevent))
    rw [hkernel, Option.map_some, Option.map_some, hs.owned _ _ hkernel]
  rw [List.filterMap_congr hreported]
  exact List.filterMap_some

/-- What a call of `poll` leaves behind. -/
structure Reports (fd : Ptr → Int) (s : PollingState Ptr) (ready : List (Int × EventMask))
    (filled : List (EpollEvent Ptr)) (next : PollingState Ptr) : Prop where
  first : filled.map (fun event => (fd event.ptr, event.events)) = ready.take s.eventListSize
  poller : next.poller = s.poller
  channel : next.channel = (s.clear.fillActiveChannels filled).channel
  active : next.activeChannels = filled.map EpollEvent.ptr
  size : next.eventListSize =
    if filled.length = s.eventListSize then s.eventListSize * 2 else s.eventListSize
  incomplete : next.incomplete = s.incomplete + if filled.length < ready.length then 1 else 0

theorem step_reports (hs : s.Sound fd) (hpositive : 0 < s.eventListSize)
    (hsize : s.eventListSize < 2 ^ 31) {ready : List (Int × EventMask)}
    (hstep : s.step (.poll ready) = .ok next) : ∃ filled, Reports fd s ready filled next := by
  obtain ⟨⟨-, hready⟩, hstep⟩ := Except.guard_eq_ok.mp hstep
  obtain rfl := Except.ok.inj hstep
  obtain ⟨filled, hwait, hfirst⟩ := epollWait_eq hs hready hpositive
  rw [maxEvents_eq hsize, hwait]
  obtain ⟨hpoller, hlength, hactive⟩ := fillActiveChannels_same filled s.clear
  have hresized (middle : PollingState Ptr) (size : Nat) (hsame : middle.eventListSize = size) :
      middle = { middle with eventListSize := size } := by
    subst hsame
    rfl
  have hpolled : s.clear.poll (.events filled) = { s.clear.fillActiveChannels filled with
      eventListSize :=
        if filled.length = s.eventListSize then s.eventListSize * 2 else s.eventListSize } := by
    unfold poll
    dsimp only
    rw [hlength]
    split
    next =>
      change (if filled.length = s.eventListSize then _ else _) = _
      split
      next => rfl
      next => exact hresized _ _ hlength
    next hnone =>
      have hempty : filled = [] := List.length_eq_zero_iff.mp (by omega)
      rw [hempty, if_neg (by rw [List.length_nil]; omega)]
      rfl
  rw [hpolled]
  refine ⟨filled, hfirst, hpoller, rfl, hactive, rfl, ?_⟩
  dsimp only
  rw [hactive, clear, List.nil_append, List.length_map]

theorem Reports.length {ready : List (Int × EventMask)}
    (hreports : Reports fd s ready filled next) :
    filled.length = min s.eventListSize ready.length := by
  have hlength := congrArg List.length hreports.first
  rw [List.length_map, List.length_take] at hlength
  exact hlength

/-- A descriptor is listed once, so a channel is reported once. -/
theorem Reports.nodup {ready : List (Int × EventMask)} (hreports : Reports fd s ready filled next)
    (hready : (ready.map Prod.fst).Nodup) : (filled.map EpollEvent.ptr).Nodup := by
  have hfds : (filled.map EpollEvent.ptr).map fd = (ready.map Prod.fst).take s.eventListSize := by
    rw [← List.map_take, ← hreports.first, List.map_map, List.map_map]
    rfl
  refine List.Nodup.of_map fd ?_
  rw [hfds]
  exact hready.sublist (List.take_sublist _ _)

/-! ## The size of the array -/

/-- At most so many descriptors are registered. -/
def Registers (bound : Nat) (s : PollingState Ptr) : Prop :=
  ∀ fds : List Int, fds.Nodup → (∀ fd ∈ fds, (s.poller.kernel fd).isSome) → fds.length ≤ bound

omit [DecidableEq Ptr] in
/-- No more descriptors are registered than there are channels. -/
theorem Sound.registers [Fintype Ptr] (hs : s.Sound fd) : s.Registers (Fintype.card Ptr) := by
  classical
  intro fds hnodup hregistered
  have hsubset : fds.toFinset ⊆ Finset.univ.image fd := by
    intro other hother
    obtain ⟨event, hkernel⟩ :=
      Option.isSome_iff_exists.mp (hregistered other (List.mem_toFinset.mp hother))
    exact Finset.mem_image.mpr ⟨event.ptr, Finset.mem_univ _, hs.owned other event hkernel⟩
  rw [← List.toFinset_card_of_nodup hnodup]
  exact (Finset.card_le_card hsubset).trans Finset.card_image_le

theorem Sound.everyState_registers [Fintype Ptr] (hfd : Function.Injective fd) (hs : s.Sound fd)
    (schedule : List (Action Ptr)) : EveryState step (Registers (Fintype.card Ptr)) s schedule := by
  induction schedule generalizing s with
  | nil => exact hs.registers
  | cons action rest ih =>
      exact ⟨hs.registers, fun next hstep => ih (step_sound hfd s action next hs hstep)⟩

/-- The array has been doubled at least once for each incomplete call, and only while it was not
larger than the number of registered descriptors. -/
structure Grown (bound : Nat) (s : PollingState Ptr) : Prop where
  doubled : ∃ doublings, s.eventListSize = EpollPoller.kInitEventListSize * 2 ^ doublings ∧
    s.incomplete ≤ doublings
  bounded : s.eventListSize ≤ max EpollPoller.kInitEventListSize (2 * bound)

omit [DecidableEq Ptr] in
theorem initial_grown (fd : Ptr → Int) (bound : Nat) : (initial fd).Grown bound where
  doubled := ⟨0, rfl, le_rfl⟩
  bounded := le_max_left _ _

omit [DecidableEq Ptr] in
theorem Grown.positive {bound : Nat} (hs : s.Grown bound) : 0 < s.eventListSize := by
  obtain ⟨doublings, hsize, -⟩ := hs.doubled
  rw [hsize]
  exact Nat.mul_pos (by decide) (Nat.two_pow_pos doublings)

omit [DecidableEq Ptr] in
theorem Grown.fits {bound : Nat} (hs : s.Grown bound) (hbound : bound < 2 ^ 30) :
    s.eventListSize < 2 ^ 31 := by
  have hbounded := hs.bounded
  have hinitial : EpollPoller.kInitEventListSize = 16 := rfl
  omega

theorem Reports.grown {bound : Nat} {ready : List (Int × EventMask)}
    (hreports : Reports fd s ready filled next) (hs : s.Grown bound)
    (hready : ready.length ≤ bound) : next.Grown bound := by
  obtain ⟨doublings, hsize, hincomplete⟩ := hs.doubled
  have hlength := hreports.length
  by_cases hfull : filled.length = s.eventListSize
  · have hdoubled : next.eventListSize = s.eventListSize * 2 := by
      rw [hreports.size, if_pos hfull]
    refine ⟨⟨doublings + 1, ?_, ?_⟩, ?_⟩
    · rw [hdoubled, hsize, Nat.pow_succ, Nat.mul_assoc]
    · rw [hreports.incomplete]
      split
      · omega
      · omega
    · rw [hdoubled]
      omega
  · -- an array with room to spare holds all ready descriptors
    have hsame : next.eventListSize = s.eventListSize := by rw [hreports.size, if_neg hfull]
    refine ⟨⟨doublings, hsame.trans hsize, ?_⟩, hsame ▸ hs.bounded⟩
    rw [hreports.incomplete, if_neg (by omega)]
    exact hincomplete

theorem step_grown {bound : Nat} (hfd : Function.Injective fd) (hbound : bound < 2 ^ 30)
    (s : PollingState Ptr) (action : Action Ptr) (next : PollingState Ptr)
    (hs : s.Sound fd ∧ s.Grown bound) (hregisters : next.Registers bound)
    (hstep : s.step action = .ok next) : next.Sound fd ∧ next.Grown bound := by
  obtain ⟨hsound, hgrown⟩ := hs
  refine ⟨step_sound hfd s action next hsound hstep, ?_⟩
  cases action with
  | call self op =>
      obtain ⟨registry, -, hstep⟩ := Except.bind_eq_ok.mp hstep
      obtain rfl := Except.ok.inj hstep
      exact ⟨hgrown.doubled, hgrown.bounded⟩
  | poll ready =>
      obtain ⟨filled, hreports⟩ :=
        step_reports hsound hgrown.positive (hgrown.fits hbound) hstep
      obtain ⟨⟨hnodup, hready⟩, -⟩ := Except.guard_eq_ok.mp hstep
      refine hreports.grown hgrown ?_
      rw [← List.length_map (f := Prod.fst)]
      refine hregisters _ hnodup fun other hother => ?_
      obtain ⟨event, hevent, rfl⟩ := List.mem_map.mp hother
      rw [hreports.poller]
      exact hready event hevent
  | interrupted errno =>
      obtain rfl := Except.ok.inj hstep
      exact ⟨hgrown.doubled, hgrown.bounded⟩

theorem run_grown {bound : Nat} (hfd : Function.Injective fd) (hbound : bound < 2 ^ 30)
    {schedule : List (Action Ptr)}
    (hevery : EveryState step (Registers bound) (initial fd) schedule)
    (hrun : run step (initial fd) schedule = .ok s) : s.Sound fd ∧ s.Grown bound :=
  hevery.run_invariant (fun s action next hs (_ : True) => step_grown hfd hbound s action next hs)
    (fun _ _ => trivial) ⟨initial_sound fd, initial_grown fd bound⟩ hrun

/-- **A call of `poll`** reports the first ready descriptors, as many as the array holds: each by
its own channel, which is registered, with what it is ready for; and it changes no other channel. -/
theorem poll_reports {bound : Nat} (hfd : Function.Injective fd) (hbound : bound < 2 ^ 30)
    {schedule : List (Action Ptr)}
    (hevery : EveryState step (Registers bound) (initial fd) schedule)
    (hrun : run step (initial fd) schedule = .ok s) {ready : List (Int × EventMask)}
    (hpoll : s.step (.poll ready) = .ok next) :
    next.activeChannels.map (fun self => (fd self, (next.channel self).revents)) =
        ready.take s.eventListSize ∧
      (∀ self ∈ next.activeChannels, (next.channel self).index = .kAdded) ∧
      ∀ self ∉ next.activeChannels, next.channel self = s.channel self := by
  obtain ⟨hsound, hgrown⟩ := run_grown hfd hbound hevery hrun
  obtain ⟨filled, hreports⟩ := step_reports hsound hgrown.positive (hgrown.fits hbound) hpoll
  obtain ⟨⟨hlisted, hready⟩, -⟩ := Except.guard_eq_ok.mp hpoll
  have hnodup := hreports.nodup hlisted
  rw [hreports.active]
  refine ⟨?_, fun self hself => ?_, fun self hself => ?_⟩
  · rw [← hreports.first, List.map_map]
    refine List.map_congr_left fun event hevent => ?_
    rw [Function.comp_apply, hreports.channel, fillActiveChannels_revents hnodup _ hevent]
  · obtain ⟨event, hevent, rfl⟩ := List.mem_map.mp hself
    have hfirst : (fd event.ptr, event.events) ∈ ready.take s.eventListSize := by
      rw [← hreports.first]
      exact List.mem_map_of_mem hevent
    have hregistered := hready _ (List.mem_of_mem_take hfirst)
    have hnext := step_sound hfd s _ next hsound hpoll
    rw [← hreports.poller] at hregistered
    exact (hnext.consistent.registered_iff event.ptr).mp hregistered
  · rw [hreports.channel, fillActiveChannels_of_not_mem hself]
    rfl

/-- **No descriptor starves.** As long as at most `bound` descriptors are registered, the array
grows to at most twice that number, and the calls of `poll` that leave out a ready descriptor are
no more than the doublings that takes. -/
theorem incomplete_bounded {bound : Nat} (hfd : Function.Injective fd) (hbound : bound < 2 ^ 30)
    {schedule : List (Action Ptr)}
    (hevery : EveryState step (Registers bound) (initial fd) schedule)
    (hrun : run step (initial fd) schedule = .ok s) :
    s.eventListSize ≤ max EpollPoller.kInitEventListSize (2 * bound) ∧
      EpollPoller.kInitEventListSize * 2 ^ s.incomplete ≤ s.eventListSize := by
  obtain ⟨-, hgrown⟩ := run_grown hfd hbound hevery hrun
  obtain ⟨doublings, hsize, hincomplete⟩ := hgrown.doubled
  refine ⟨hgrown.bounded, ?_⟩
  rw [hsize]
  exact Nat.mul_le_mul_left _ (Nat.pow_le_pow_right Nat.two_pos hincomplete)

/-- Seventeen channels are registered, and all are ready at each of two calls. -/
def allReady : List (Int × EventMask) := (List.range 17).map fun fd => (fd, EPOLLIN)

def seventeen (channel : Fin 17) : Int := channel.val

def registersAll : List (Action (Fin 17)) := (List.finRange 17).map (.call · .enableReading)

theorem seventeen_injective : Function.Injective seventeen := by
  intro first second heq
  exact Fin.val_injective (Int.ofNat_inj.mp heq)

theorem poll_reports_allReady : ∃ s next, run step (initial seventeen) registersAll = .ok s ∧
    s.step (.poll allReady) = .ok next ∧ next.activeChannels.length = 16 ∧
    ∀ self ∈ next.activeChannels, (next.channel self).index = .kAdded := by
  have hends : ends (fun s => decide (s.eventListSize = 16) &&
      ends (fun _ => true) (s.step (.poll allReady)))
      (run step (initial seventeen) registersAll) = true := by decide +kernel
  obtain ⟨s, hrun, hcheck⟩ := exists_of_ends hends
  rw [Bool.and_eq_true] at hcheck
  obtain ⟨hsize, hpoll⟩ := hcheck
  obtain ⟨next, hpoll, -⟩ := exists_of_ends hpoll
  obtain ⟨hreported, hadded, -⟩ := poll_reports seventeen_injective (by decide)
    ((initial_sound seventeen).everyState_registers seventeen_injective registersAll) hrun hpoll
  have hlength := congrArg List.length hreported
  rw [List.length_map, of_decide_eq_true hsize] at hlength
  exact ⟨s, next, hrun, hpoll, hlength, hadded⟩

theorem incomplete_bounded_allReady : ∃ s,
    run step (initial seventeen) (registersAll ++ [.poll allReady, .poll allReady]) = .ok s ∧
      s.incomplete = 1 ∧ 16 * 2 ^ s.incomplete ≤ s.eventListSize ∧ s.eventListSize ≤ 34 := by
  have hends : ends (fun s => decide (s.incomplete = 1))
      (run step (initial seventeen) (registersAll ++ [.poll allReady, .poll allReady])) = true := by
    decide +kernel
  obtain ⟨s, hrun, hcheck⟩ := exists_of_ends hends
  obtain ⟨hbounded, hdoubled⟩ := incomplete_bounded seventeen_injective (by decide)
    ((initial_sound seventeen).everyState_registers seventeen_injective _) hrun
  exact ⟨s, hrun, of_decide_eq_true hcheck, hdoubled, hbounded⟩

end PollingState

end Muduo
