import Muduo.TimerWheel.Forgetting

/-! # Active connections are not evicted

An entry is due one turn after the last update of its connection, as long as the
filter for calls within one second only drops refreshes of entries that are still
in the last bucket. The filter compares readings of the wall clock, and a tick
may fall between two equal readings.
-/

open Transition

namespace Muduo

namespace IdleWatch

variable {idleSeconds : Nat} {s next : IdleWatch} {conn : ConnId} {now : Int}
  {deadline : Nat} {entry other : EntryId}

/-- A tick from this state destroys an entry only if its connection has been idle for
the full number of ticks, that one included. -/
def NeverEarly (idleSeconds : Nat) (s : IdleWatch) : Prop :=
  ∀ entry, s.Lives entry → ¬ s.onTimerTick.Lives entry → ∃ ticks,
    s.updated (s.connOf entry) = some ticks ∧ ticks + idleSeconds ≤ s.onTimerTick.ticks

/-- A call that is filtered as the second one within a second finds its entry in the
last bucket. -/
def FiltersInTime (s : IdleWatch) : Action → Prop
  | .updateConnection conn now =>
      match s.timerWheel.lock (s.context conn) with
      | some entry => (s.timerWheel.entries entry).lastTickTime = now →
          entry ∈ s.timerWheel.wheel.getLastD []
      | none => True
  | _ => True

instance (s : IdleWatch) : (action : Action) → Decidable (s.FiltersInTime action)
  | .updateConnection conn _ => by
      dsimp only [FiltersInTime]
      exact match s.timerWheel.lock (s.context conn) with
        | some _ => inferInstanceAs (Decidable (_ → _))
        | none => .isTrue trivial
  | .onTimerTick | .setContext _ _ | .destroyConnection _ => .isTrue trivial

/-- User code sets a context. -/
def Action.setsContext : Action → Bool
  | .setContext _ _ => true
  | _ => false

/-! ## The only entry of a connection -/

/-- While user code sets no contexts, the context of a connection points to its only entry. -/
structure Linked (s : IdleWatch) : Prop where
  points : ∀ conn entry, s.context conn = .weakEntry entry → s.connOf entry = conn
  named : ∀ entry, s.Lives entry → s.context (s.connOf entry) = .weakEntry entry

theorem create_linked (idleSeconds : Nat) : (create idleSeconds).Linked := by
  refine ⟨fun conn entry hpoints => ?_, fun entry hlives => ?_⟩
  · cases hpoints
  · exact absurd ((create_sound idleSeconds).made entry hlives) (Nat.not_lt_zero _)

theorem Linked.unique (hlinked : s.Linked) (hpoints : s.context conn = .weakEntry entry)
    (hother : s.Lives other) (hconn : s.connOf other = conn) : other = entry := by
  have hnamed := hlinked.named other hother
  rw [hconn, hpoints, Context.weakEntry.injEq] at hnamed
  exact hnamed.symm

theorem Linked.usesOwnEntry (hlinked : s.Linked) (action : Action) : s.UsesOwnEntry action := by
  unfold UsesOwnEntry
  split
  · split
    next entry hlock => exact hlinked.points _ _ (TimerWheel.lock_eq_some.mp hlock).1
    next => trivial
  · trivial

/-- A connection whose context points to no entry has none. -/
theorem Linked.ne_of_lock (hlinked : s.Linked) (hlock : s.timerWheel.lock (s.context conn) = none)
    (hlives : s.Lives other) : s.connOf other ≠ conn := by
  rintro rfl
  rw [TimerWheel.lock_eq_some.mpr ⟨hlinked.named other hlives, hlives⟩] at hlock
  cases hlock

/-- A step that makes and destroys no entry and sets no context. -/
theorem Linked.of_same (hlinked : s.Linked) (hconn : next.connOf = s.connOf)
    (hcontext : next.context = s.context) (hlives : ∀ other, next.Lives other → s.Lives other) :
    next.Linked := by
  refine ⟨?_, fun other hother => ?_⟩
  · rw [hcontext, hconn]
    exact hlinked.points
  · rw [hcontext, hconn]
    exact hlinked.named other (hlives other hother)

theorem Linked.tick (hs : s.Sound idleSeconds) (hlinked : s.Linked) : s.onTimerTick.Linked :=
  hlinked.of_same rfl rfl fun _ => tick_lives hs.expired

/-- A connection without an entry gets one. -/
theorem Linked.make (hs : s.Sound idleSeconds) (hlinked : s.Linked)
    (hlock : s.timerWheel.lock (s.context conn) = none)
    (hlives : ∀ other, next.Lives other → s.Lives other ∨ other = s.timerWheel.made)
    (hold : ∀ other, other ≠ s.timerWheel.made → next.connOf other = s.connOf other)
    (hnew : next.connOf s.timerWheel.made = conn)
    (hcontext : next.context = Function.update s.context conn (.weakEntry s.timerWheel.made)) :
    next.Linked := by
  refine ⟨fun other entry hpoints => ?_, fun other hother => ?_⟩
  · rw [hcontext] at hpoints
    by_cases hself : other = conn
    · rw [hself, Function.update_self, Context.weakEntry.injEq] at hpoints
      rw [← hpoints, hnew, hself]
    · rw [Function.update_of_ne hself] at hpoints
      have hknown := hs.known other
      rw [hpoints] at hknown
      rw [hold entry (Nat.ne_of_lt hknown)]
      exact hlinked.points other entry hpoints
  · by_cases hmade : other = s.timerWheel.made
    · rw [hmade, hnew, hcontext, Function.update_self]
    · have hlived := (hlives other hother).resolve_right hmade
      rw [hold other hmade, hcontext, Function.update_of_ne (hlinked.ne_of_lock hlock hlived)]
      exact hlinked.named other hlived

/-! ## Deadlines -/

/-- Besides, the entry is due one turn after the last update. -/
structure Timely (idleSeconds : Nat) (s : IdleWatch) : Prop extends Linked s where
  due : ∀ entry, s.Lives entry → ∃ ticks, s.updated (s.connOf entry) = some ticks ∧
    s.Due (ticks + idleSeconds) entry

theorem create_timely (idleSeconds : Nat) : (create idleSeconds).Timely idleSeconds := by
  refine ⟨create_linked idleSeconds, fun entry hlives => ?_⟩
  exact absurd ((create_sound idleSeconds).made entry hlives) (Nat.not_lt_zero _)

/-- An update of one connection leaves the deadlines of the others alone. -/
theorem UpdateFrame.due_other (hframe : UpdateFrame conn s next)
    (hkept : ∀ deadline, s.Due deadline entry → next.Due deadline entry)
    (hother : s.connOf entry ≠ conn) (hconn : next.connOf entry = s.connOf entry)
    (hdue : ∃ ticks, s.updated (s.connOf entry) = some ticks ∧
      s.Due (ticks + idleSeconds) entry) :
    ∃ ticks, next.updated (next.connOf entry) = some ticks ∧
      next.Due (ticks + idleSeconds) entry := by
  obtain ⟨ticks, hticks, hdeadline⟩ := hdue
  refine ⟨ticks, ?_, hkept _ hdeadline⟩
  rw [hframe.updated, hconn, Function.update_of_ne hother, hticks]

theorem mem_lastBucket_iff_due (hs : s.Sound idleSeconds) :
    entry ∈ s.timerWheel.wheel.getLastD [] ↔ s.Due (s.ticks + idleSeconds) entry := by
  rw [Due, ← hs.length, List.getLastD_eq_getLast?]
  cases hlast : s.timerWheel.wheel.getLast? with
  | none =>
      rw [List.getLast?_eq_none_iff.mp hlast]
      simp
  | some bucket => exact Wheel.mem_last_iff_due hlast

/-- The entry in the context of the connection is due one turn from now. -/
theorem Timely.refresh (htimely : s.Timely idleSeconds) (hframe : UpdateFrame conn s next)
    (hpoints : s.context conn = .weakEntry entry) (hconn : next.connOf = s.connOf)
    (hcontext : next.context = s.context) (hlives : ∀ other, next.Lives other → s.Lives other)
    (hkept : ∀ deadline other, s.Due deadline other → next.Due deadline other)
    (hentry : next.Due (s.ticks + idleSeconds) entry) : next.Timely idleSeconds := by
  refine ⟨htimely.of_same hconn hcontext hlives, fun other hother => ?_⟩
  have hbefore := hlives other hother
  by_cases hsame : s.connOf other = conn
  · rw [hframe.updated, hconn, hsame, Function.update_self,
      htimely.unique hpoints hbefore hsame]
    exact ⟨s.ticks, rfl, hentry⟩
  · exact hframe.due_other (fun deadline => hkept deadline other) hsame (by rw [hconn])
      (htimely.due other hbefore)

/-- A connection without an entry gets one. -/
theorem Timely.make (hs : s.Sound idleSeconds) (htimely : s.Timely idleSeconds)
    (hframe : UpdateFrame conn s next) (hlock : s.timerWheel.lock (s.context conn) = none)
    (hinserts : Inserts idleSeconds s.timerWheel.made s next)
    (hconn : next.connOf = Function.update s.connOf s.timerWheel.made conn)
    (hcontext : next.context = Function.update s.context conn (.weakEntry s.timerWheel.made)) :
    next.Timely idleSeconds := by
  have hsame (other : EntryId) (hne : other ≠ s.timerWheel.made) :
      next.connOf other = s.connOf other := by
    rw [hconn, Function.update_of_ne hne]
  have hnew : next.connOf s.timerWheel.made = conn := by rw [hconn, Function.update_self]
  refine ⟨htimely.toLinked.make hs hlock (fun other => (hinserts.lives hs.expired).mp) hsame hnew
    hcontext, fun other hother => ?_⟩
  by_cases hmade : other = s.timerWheel.made
  · rw [hmade, hframe.updated, hnew, Function.update_self]
    exact ⟨s.ticks, rfl, (hinserts.due _ _).mpr (Or.inr ⟨rfl, rfl⟩)⟩
  · have hbefore := ((hinserts.lives hs.expired).mp hother).resolve_right hmade
    exact hframe.due_other (fun deadline hdue => (hinserts.due _ _).mpr (Or.inl hdue))
      (htimely.ne_of_lock hlock hbefore) (hsame other hmade) (htimely.due other hbefore)

theorem update_timely (hs : s.Sound idleSeconds) (htimely : s.Timely idleSeconds)
    (hfilter : s.FiltersInTime (.updateConnection conn now))
    (hstep : step s (.updateConnection conn now) = .ok next) : next.Timely idleSeconds := by
  obtain ⟨hframe, hcases⟩ := update_cases hs hstep
  rcases hcases with ⟨entry, hlock, hsame, hwheel, hcontext⟩ | ⟨entry, hlock, -, hinserts, -,
    hconn, hcontext⟩ | ⟨hlock, hinserts, -, hconn, hcontext⟩
  · -- the filtered entry is in the last bucket
    have hentry : s.Due (s.ticks + idleSeconds) entry := by
      simp only [FiltersInTime, hlock] at hfilter
      exact (mem_lastBucket_iff_due hs).mp (hfilter hsame)
    have hconn : next.connOf = s.connOf := by
      ext other
      rw [connOf, hwheel, connOf]
    have hkept (deadline : Nat) (other : EntryId) (hdue : s.Due deadline other) :
        next.Due deadline other := by
      rw [Due, hwheel, hframe.ticks]
      exact hdue
    apply htimely.refresh hframe (TimerWheel.lock_eq_some.mp hlock).1 hconn hcontext _ hkept
      (hkept _ _ hentry)
    intro other hother
    rw [Lives, hwheel] at hother
    exact hother
  · obtain ⟨hpoints, howns⟩ := TimerWheel.lock_eq_some.mp hlock
    apply htimely.refresh hframe hpoints hconn hcontext _
      (fun _ _ hdue => (hinserts.due _ _).mpr (Or.inl hdue))
      ((hinserts.due _ _).mpr (Or.inr ⟨rfl, rfl⟩))
    intro other hother
    rcases (hinserts.lives hs.expired).mp hother with hbefore | rfl
    · exact hbefore
    · exact howns
  · exact htimely.make hs hframe hlock hinserts hconn hcontext

/-- A connection whose only entry dies has not been updated for a full turn. -/
theorem Timely.neverEarly (htimely : s.Timely idleSeconds) : s.NeverEarly idleSeconds := by
  intro entry hlives hgone
  obtain ⟨ticks, hticks, hdue⟩ := htimely.due entry hlives
  refine ⟨ticks, hticks, ?_⟩
  by_contra hearly
  have hlater : ticks + idleSeconds ≠ s.ticks + 1 := fun heq => hearly heq.le
  have hkept := (lives_iff_due (s := s.onTimerTick) rfl).mpr ⟨_, tick_due.mpr ⟨hdue, hlater⟩⟩
  exact hgone hkept

theorem tick_timely (hs : s.Sound idleSeconds) (hbounded : s.Bounded idleSeconds)
    (htimely : s.Timely idleSeconds) : s.onTimerTick.Timely idleSeconds := by
  refine ⟨htimely.tick hs, fun entry hlives => ?_⟩
  obtain ⟨deadline, hdue⟩ := (lives_iff_due (s := s.onTimerTick) rfl).mp hlives
  obtain ⟨hbefore, -⟩ := tick_due.mp hdue
  obtain ⟨ticks, hticks, hlast⟩ := htimely.due entry (tick_lives hs.expired hlives)
  refine ⟨ticks, hticks, tick_due.mpr ⟨hlast, ?_⟩⟩
  -- the entry outlives the tick, and no deadline is later than the last one
  obtain ⟨other, hother, hbound⟩ := hbounded deadline entry hbefore
  obtain rfl := Option.some.inj (hticks.symm.trans hother)
  have hahead : s.ticks + 1 < deadline := hdue.bounds.1
  omega

theorem step_timely (s : IdleWatch) (action : Action) (next : IdleWatch)
    (hs : (s.Sound idleSeconds ∧ s.Bounded idleSeconds) ∧ s.Timely idleSeconds)
    (hcondition : s.FiltersInTime action ∧ action.setsContext = false)
    (hstep : step s action = .ok next) :
    (next.Sound idleSeconds ∧ next.Bounded idleSeconds) ∧ next.Timely idleSeconds := by
  refine ⟨step_bounded s action next hs.1 (hs.2.usesOwnEntry action) hstep, ?_⟩
  cases action with
  | onTimerTick =>
      obtain rfl := Except.ok.inj hstep
      exact tick_timely hs.1.1 hs.1.2 hs.2
  | updateConnection conn now => exact update_timely hs.1.1 hs.2 hcondition.1 hstep
  | setContext conn context => cases hcondition.2
  | destroyConnection conn =>
      obtain ⟨-, hstep⟩ := Except.guard_eq_ok.mp hstep
      obtain rfl := Except.ok.inj hstep
      exact ⟨⟨hs.2.points, hs.2.named⟩, hs.2.due⟩

/-- An entry whose deadlines all come before a full turn is evicted early when only
ticks follow. -/
theorem early_of_deadlines {ticks : Nat} (remaining : Nat)
    (hexpired : s.timerWheel.expired = []) (hlives : s.Lives entry)
    (hticks : s.updated (s.connOf entry) = some ticks)
    (hbound : ∀ deadline, s.Due deadline entry → deadline ≤ s.ticks + remaining)
    (hshort : s.ticks + remaining < ticks + idleSeconds) :
    ∃ count final, run step s (List.replicate count .onTimerTick) = .ok final ∧
      ¬ final.NeverEarly idleSeconds := by
  induction remaining generalizing s with
  | zero =>
      obtain ⟨deadline, hdue⟩ := (lives_iff_due hexpired).mp hlives
      have hahead := hdue.bounds.1
      have hnow := hbound deadline hdue
      omega
  | succ remaining ih =>
      by_cases hgone : s.onTimerTick.Lives entry
      · obtain ⟨count, final, hrun, hearly⟩ := ih (s := s.onTimerTick) rfl hgone hticks
          (fun deadline hdue => by
            have hlast := hbound deadline (tick_due.mp hdue).1
            have htick : s.onTimerTick.ticks = s.ticks + 1 := rfl
            omega)
          (by
            have htick : s.onTimerTick.ticks = s.ticks + 1 := rfl
            omega)
        exact ⟨count + 1, final, run_cons_eq_ok.mpr ⟨_, rfl, hrun⟩, hearly⟩
      · refine ⟨0, s, rfl, fun hnever => ?_⟩
        obtain ⟨other, hother, hlate⟩ := hnever entry hlives hgone
        obtain rfl := Option.some.inj (hticks.symm.trans hother)
        have htick : s.onTimerTick.ticks = s.ticks + 1 := rfl
        omega

/-- A refresh that the filter drops although the entry has left the last bucket leads
to an early eviction, if only ticks follow. -/
theorem early_of_filtered (hs : s.Sound idleSeconds) (htimely : s.Timely idleSeconds)
    (hstep : step s (.updateConnection conn now) = .ok next)
    (hdropped : ¬ s.FiltersInTime (.updateConnection conn now)) :
    ∃ count final, run step next (List.replicate count .onTimerTick) = .ok final ∧
      ¬ final.NeverEarly idleSeconds := by
  obtain ⟨hframe, hcases⟩ := update_cases hs hstep
  simp only [FiltersInTime] at hdropped
  split at hdropped
  next entry hlock =>
    obtain ⟨hsame, hlost⟩ := Classical.not_imp.mp hdropped
    obtain ⟨hpoints, hlives⟩ := TimerWheel.lock_eq_some.mp hlock
    rcases hcases with ⟨-, -, -, hwheel, -⟩ | ⟨other, hother, hfresh, -⟩ | ⟨hnone, -⟩
    · have hconn : next.connOf entry = conn := by
        rw [connOf, hwheel]
        exact htimely.points conn entry hpoints
      have hlater : ∀ deadline, s.Due deadline entry → deadline < s.ticks + idleSeconds := by
        intro deadline hdue
        have hbound := hdue.bounds.2
        rw [hs.length] at hbound
        exact lt_of_le_of_ne hbound fun heq =>
          hlost ((mem_lastBucket_iff_due hs).mpr (heq ▸ hdue))
      obtain ⟨deadline, hdue⟩ := (lives_iff_due hs.expired).mp hlives
      have hahead := hdue.bounds.1
      have hshort := hlater deadline hdue
      have hnextDue : ∀ deadline, next.Due deadline entry ↔ s.Due deadline entry := by
        intro deadline
        rw [Due, hwheel, hframe.ticks, Due]
      have hticks : next.updated (next.connOf entry) = some s.ticks := by
        rw [hconn, hframe.updated, Function.update_self]
      refine early_of_deadlines (idleSeconds - 1) (by rw [hwheel, hs.expired]) ?_ hticks ?_ ?_
      · rw [Lives, hwheel]
        exact hlives
      · intro deadline hdue
        have hbound := hlater deadline ((hnextDue deadline).mp hdue)
        rw [hframe.ticks]
        omega
      · rw [hframe.ticks]
        omega
    · obtain rfl := Option.some.inj (hlock.symm.trans hother)
      exact absurd hsame hfresh
    · rw [hlock] at hnone
      cases hnone
  next => exact absurd trivial hdropped

/-- In a run without `setContext`, in which every refresh that the filter drops finds
its entry in the last bucket, no tick evicts a connection that has been updated less
than a full turn ago. From such a run on, the first refresh that is dropped although
its entry has left the last bucket leads to an early eviction if only ticks follow. -/
theorem never_early {schedule : List Action}
    (hrun : run step (create idleSeconds) schedule = .ok s)
    (huser : ∀ action ∈ schedule, action.setsContext = false)
    (hfilter : EveryStep step FiltersInTime (create idleSeconds) schedule) :
    s.NeverEarly idleSeconds ∧ ∀ conn now next, step s (.updateConnection conn now) = .ok next →
      ¬ s.FiltersInTime (.updateConnection conn now) →
      ∃ count final, run step next (List.replicate count .onTimerTick) = .ok final ∧
        ¬ final.NeverEarly idleSeconds := by
  obtain ⟨⟨hs, hbounded⟩, htimely⟩ := run_invariant_of_everyStep step_timely
    ⟨⟨create_sound idleSeconds, create_bounded idleSeconds⟩, create_timely idleSeconds⟩
    (hfilter.and_forall huser) hrun
  exact ⟨htimely.neverEarly, fun conn now next => early_of_filtered hs htimely⟩

/-- The readings of the clock in a run. -/
def readings (schedule : List Action) : List Int :=
  schedule.filterMap fun
    | .updateConnection _ now => some now
    | _ => none

/-- A tick falls between two updates within one second. -/
def sameSecond : List Action :=
  [.updateConnection 0 10, .onTimerTick, .updateConnection 0 10]

/-- The next tick evicts the connection, one tick after its last update. -/
theorem never_early_false : ¬ ∀ idleSeconds schedule s, 0 < idleSeconds →
    (readings schedule).Pairwise (· ≤ ·) → (∀ action ∈ schedule, action.setsContext = false) →
    run step (create idleSeconds) schedule = .ok s → s.NeverEarly idleSeconds := by
  intro hclaim
  have hends : ends (fun s => decide (s.Lives 0 ∧ ¬ s.onTimerTick.Lives 0 ∧
      s.updated (s.connOf 0) = some 1 ∧ s.onTimerTick.ticks = 2))
      (run step (create 2) sameSecond) = true := by decide
  obtain ⟨s, hrun, hcheck⟩ := exists_of_ends hends
  obtain ⟨hlives, hgone, hupdated, hticks⟩ := of_decide_eq_true hcheck
  obtain ⟨ticks, hlast, hlate⟩ :=
    hclaim 2 sameSecond s (by decide) (by decide) (by decide) hrun 0 hlives hgone
  rw [hupdated, Option.some.injEq] at hlast
  omega

/-- A tick falls between two updates in different seconds. -/
def nextSecond : List Action :=
  [.updateConnection 0 10, .updateConnection 0 10, .onTimerTick, .updateConnection 0 11]

theorem never_early_nextSecond : ∃ s, run step (create 2) nextSecond = .ok s ∧
    s.NeverEarly 2 ∧ s.Lives 0 ∧ s.ticks = 1 := by
  have hends : ends (fun s => decide (s.Lives 0 ∧ s.ticks = 1))
      (run step (create 2) nextSecond) = true := by decide
  obtain ⟨s, hrun, hcheck⟩ := exists_of_ends hends
  exact ⟨s, hrun, (never_early hrun (by decide) (by decide)).1, of_decide_eq_true hcheck⟩

end IdleWatch

end Muduo
