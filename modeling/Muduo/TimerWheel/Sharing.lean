import Muduo.TimerWheel.Expiry

/-! # The wheel and user code share the context

`updateConnection` keeps its entry in the context of the connection, where user
code keeps its own data. The two only stay out of each other's way as long as no
update meets a value of the user that does not point to a live entry: the update
then replaces the value, and makes a second entry beside the first.
-/

open Transition

namespace Muduo

namespace IdleWatch

variable {idleSeconds : Nat} {s next : IdleWatch} {conn : ConnId} {now : Int}
  {entry other : EntryId}

/-- The context has the value the user has set last, and a connection has one live
entry at most. -/
structure Separate (s : IdleWatch) : Prop where
  keeps : ∀ conn value, s.assigned conn = some value → s.context conn = value
  single : ∀ entry other, s.Lives entry → s.Lives other → s.connOf entry = s.connOf other →
    entry = other

/-- An update of a connection whose context the user has set finds a live entry in
it. -/
def FindsEntry (s : IdleWatch) : Action → Prop
  | .updateConnection conn _ =>
      s.assigned conn = none ∨ (s.timerWheel.lock (s.context conn)).isSome
  | _ => True

instance (s : IdleWatch) : (action : Action) → Decidable (s.FindsEntry action)
  | .updateConnection _ _ => inferInstanceAs (Decidable (_ ∨ _))
  | .onTimerTick | .setContext _ _ | .destroyConnection _ => .isTrue trivial

/-- A context the user has not set points to the live entry of its connection. -/
def PointsToEntry (s : IdleWatch) : Prop :=
  ∀ entry, s.Lives entry → s.assigned (s.connOf entry) = none →
    s.context (s.connOf entry) = .weakEntry entry

theorem create_pointsToEntry (idleSeconds : Nat) : (create idleSeconds).PointsToEntry :=
  fun entry hlives => absurd ((create_sound idleSeconds).made entry hlives) (Nat.not_lt_zero _)

theorem create_separate (idleSeconds : Nat) : (create idleSeconds).Separate := by
  refine ⟨nofun, fun entry other hlives => ?_⟩
  exact absurd ((create_sound idleSeconds).made entry hlives) (Nat.not_lt_zero _)

/-- A step that neither makes an entry nor touches a context. -/
structure Undisturbed (s next : IdleWatch) : Prop where
  lives : ∀ entry, next.Lives entry → s.Lives entry
  connOf : next.connOf = s.connOf
  context : next.context = s.context
  assigned : next.assigned = s.assigned

theorem Undisturbed.separate (hkept : Undisturbed s next) (hs : s.Separate) : next.Separate := by
  constructor
  · rw [hkept.context, hkept.assigned]
    exact hs.keeps
  · rw [hkept.connOf]
    exact fun entry other hentry hother =>
      hs.single entry other (hkept.lives entry hentry) (hkept.lives other hother)

theorem Undisturbed.pointsToEntry (hkept : Undisturbed s next) (hs : s.PointsToEntry) :
    next.PointsToEntry := by
  unfold PointsToEntry
  rw [hkept.connOf, hkept.context, hkept.assigned]
  exact fun entry hentry => hs entry (hkept.lives entry hentry)

/-- An update that finds an entry makes none. -/
theorem update_undisturbed (hs : s.Sound idleSeconds)
    (hfinds : (s.timerWheel.lock (s.context conn)).isSome)
    (hstep : step s (.updateConnection conn now) = .ok next) : Undisturbed s next := by
  obtain ⟨hframe, hcases⟩ := update_cases hs hstep
  rcases hcases with ⟨entry, -, -, hwheel, hcontext⟩ | ⟨entry, hlock, -, hinserts, -, hconn,
    hcontext⟩ | ⟨hnone, -⟩
  · refine ⟨fun other hother => ?_, ?_, hcontext, hframe.assigned⟩
    · rw [Lives, hwheel] at hother
      exact hother
    · ext other
      rw [IdleWatch.connOf, hwheel, IdleWatch.connOf]
  · refine ⟨fun other hother => ?_, hconn, hcontext, hframe.assigned⟩
    rcases (hinserts.lives hs.expired).mp hother with hbefore | rfl
    · exact hbefore
    · exact (TimerWheel.lock_eq_some.mp hlock).2
  · rw [hnone] at hfinds
    cases hfinds

/-- An update that finds no entry makes one and takes the context. -/
structure Takes (conn : ConnId) (s next : IdleWatch) : Prop where
  lives : ∀ entry, next.Lives entry → s.Lives entry ∨ entry = s.timerWheel.made
  connOf : next.connOf = Function.update s.connOf s.timerWheel.made conn
  context : next.context = Function.update s.context conn (.weakEntry s.timerWheel.made)
  assigned : next.assigned = s.assigned

theorem update_takes (hs : s.Sound idleSeconds)
    (hnone : s.timerWheel.lock (s.context conn) = none)
    (hstep : step s (.updateConnection conn now) = .ok next) : Takes conn s next := by
  obtain ⟨hframe, hcases⟩ := update_cases hs hstep
  rcases hcases with ⟨entry, hlock, -⟩ | ⟨entry, hlock, -⟩ | ⟨-, hinserts, -, hconn, hcontext⟩
  · rw [hnone] at hlock
    cases hlock
  · rw [hnone] at hlock
    cases hlock
  · exact ⟨fun other hother => (hinserts.lives hs.expired).mp hother, hconn, hcontext,
      hframe.assigned⟩

/-- The entries of the connection are dead if its own context does not point to one. -/
theorem PointsToEntry.dead (hs : s.PointsToEntry) (hassigned : s.assigned conn = none)
    (hnone : s.timerWheel.lock (s.context conn) = none) (hlives : s.Lives entry) :
    s.connOf entry ≠ conn := by
  rintro rfl
  rw [TimerWheel.lock_eq_some.mpr ⟨hs entry hlives hassigned, hlives⟩] at hnone
  cases hnone

theorem Takes.pointsToEntry (htakes : Takes conn s next) (hs : s.PointsToEntry)
    (hassigned : s.assigned conn = none)
    (hnone : s.timerWheel.lock (s.context conn) = none) : next.PointsToEntry := by
  intro other hother hfree
  rw [htakes.assigned, htakes.connOf] at hfree
  rw [htakes.context, htakes.connOf]
  by_cases hnew : other = s.timerWheel.made
  · rw [hnew, Function.update_self, Function.update_self]
  · have hbefore := (htakes.lives other hother).resolve_right hnew
    rw [Function.update_of_ne hnew] at hfree ⊢
    rw [Function.update_of_ne (hs.dead hassigned hnone hbefore)]
    exact hs other hbefore hfree

theorem Takes.separate (htakes : Takes conn s next) (hs : s.Separate) (hpoints : s.PointsToEntry)
    (hassigned : s.assigned conn = none)
    (hnone : s.timerWheel.lock (s.context conn) = none) : next.Separate := by
  have hdead := fun entry (hlives : s.Lives entry) => hpoints.dead hassigned hnone hlives
  constructor
  · intro other value hvalue
    rw [htakes.assigned] at hvalue
    have hother : other ≠ conn := by
      rintro rfl
      rw [hassigned] at hvalue
      cases hvalue
    rw [htakes.context, Function.update_of_ne hother]
    exact hs.keeps other value hvalue
  · rw [htakes.connOf]
    intro first second hfirst hsecond hsame
    by_cases hnewFirst : first = s.timerWheel.made
    · by_cases hnewSecond : second = s.timerWheel.made
      · rw [hnewFirst, hnewSecond]
      · rw [hnewFirst, Function.update_self, Function.update_of_ne hnewSecond] at hsame
        have hbefore := (htakes.lives second hsecond).resolve_right hnewSecond
        exact absurd hsame.symm (hdead second hbefore)
    · have hbefore := (htakes.lives first hfirst).resolve_right hnewFirst
      rw [Function.update_of_ne hnewFirst] at hsame
      by_cases hnewSecond : second = s.timerWheel.made
      · rw [hnewSecond, Function.update_self] at hsame
        exact absurd hsame (hdead first hbefore)
      · rw [Function.update_of_ne hnewSecond] at hsame
        have hsecondBefore := (htakes.lives second hsecond).resolve_right hnewSecond
        exact hs.single first second hbefore hsecondBefore hsame

/-- The context of the user is replaced by a weak pointer that did not exist before. -/
theorem Takes.not_separate (htakes : Takes conn s next) (hs : s.Sound idleSeconds)
    (hseparate : s.Separate) {value : Context} (hassigned : s.assigned conn = some value) :
    ¬ next.Separate := by
  intro hnext
  have hafter := hnext.keeps conn value (by rw [htakes.assigned, hassigned])
  rw [htakes.context, Function.update_self] at hafter
  have hknown := hs.known conn
  rw [hseparate.keeps conn value hassigned, ← hafter] at hknown
  exact Nat.lt_irrefl _ hknown

/-! ## Steps and runs -/

theorem setContext_separate {context : Context} (hs : s.Separate)
    (hstep : step s (.setContext conn context) = .ok next) : next.Separate := by
  obtain ⟨-, hstep⟩ := Except.guard_eq_ok.mp hstep
  obtain rfl := Except.ok.inj hstep
  refine ⟨fun other value hvalue => ?_, hs.single⟩
  by_cases hother : other = conn
  · simp only [hother, Function.update_self, Option.some.injEq] at hvalue ⊢
    exact hvalue
  · simp only [Function.update_of_ne hother] at hvalue ⊢
    exact hs.keeps other value hvalue

theorem setContext_pointsToEntry {context : Context} (hs : s.PointsToEntry)
    (hstep : step s (.setContext conn context) = .ok next) : next.PointsToEntry := by
  obtain ⟨-, hstep⟩ := Except.guard_eq_ok.mp hstep
  obtain rfl := Except.ok.inj hstep
  intro entry hlives hfree
  have hfree : Function.update s.assigned conn (some context) (s.connOf entry) = none := hfree
  by_cases hother : s.connOf entry = conn
  · rw [hother, Function.update_self] at hfree
    cases hfree
  · rw [Function.update_of_ne hother] at hfree
    exact (Function.update_of_ne hother _ _).trans (hs entry hlives hfree)

/-- A tick destroys entries and touches no context. -/
theorem tick_undisturbed (hs : s.Sound idleSeconds) : Undisturbed s s.onTimerTick :=
  ⟨fun _ => tick_lives hs.expired, rfl, rfl, rfl⟩

theorem destroyConnection_undisturbed
    (hstep : step s (.destroyConnection conn) = .ok next) : Undisturbed s next := by
  obtain ⟨-, hstep⟩ := Except.guard_eq_ok.mp hstep
  obtain rfl := Except.ok.inj hstep
  exact ⟨fun _ => id, rfl, rfl, rfl⟩

theorem step_pointsToEntry (s : IdleWatch) (action : Action) (next : IdleWatch)
    (hs : s.Sound idleSeconds ∧ s.PointsToEntry) (hfinds : s.FindsEntry action)
    (hstep : step s action = .ok next) : next.Sound idleSeconds ∧ next.PointsToEntry := by
  refine ⟨step_sound s action next hs.1 hstep, ?_⟩
  cases action with
  | updateConnection conn now =>
      cases hlock : s.timerWheel.lock (s.context conn) with
      | some entry =>
          have hkept := update_undisturbed hs.1 (by rw [hlock]; rfl) hstep
          exact hkept.pointsToEntry hs.2
      | none =>
          have hassigned : s.assigned conn = none :=
            hfinds.resolve_right (by rw [hlock]; exact Bool.false_ne_true)
          exact (update_takes hs.1 hlock hstep).pointsToEntry hs.2 hassigned hlock
  | setContext conn context => exact setContext_pointsToEntry hs.2 hstep
  | onTimerTick =>
      obtain rfl := Except.ok.inj hstep
      exact (tick_undisturbed hs.1).pointsToEntry hs.2
  | destroyConnection conn => exact (destroyConnection_undisturbed hstep).pointsToEntry hs.2

/-- A step keeps the wheel and the user apart if and only if it finds the entry. -/
theorem step_separate_iff (s : IdleWatch) (action : Action) (next : IdleWatch)
    (hs : s.Sound idleSeconds ∧ s.PointsToEntry) (hseparate : s.Separate)
    (hstep : step s action = .ok next) : next.Separate ↔ s.FindsEntry action := by
  cases action with
  | updateConnection conn now =>
      cases hlock : s.timerWheel.lock (s.context conn) with
      | some entry =>
          have hfound : (s.timerWheel.lock (s.context conn)).isSome := by rw [hlock]; rfl
          have hkept := update_undisturbed hs.1 hfound hstep
          exact iff_of_true (hkept.separate hseparate) (Or.inr hfound)
      | none =>
          have htakes := update_takes hs.1 hlock hstep
          cases hassigned : s.assigned conn with
          | none =>
              exact iff_of_true (htakes.separate hseparate hs.2 hassigned hlock)
                (Or.inl hassigned)
          | some value =>
              refine iff_of_false (htakes.not_separate hs.1 hseparate hassigned) ?_
              rintro (hfree | hfound)
              · rw [hassigned] at hfree
                cases hfree
              · rw [hlock] at hfound
                cases hfound
  | setContext conn context => exact iff_of_true (setContext_separate hseparate hstep) trivial
  | onTimerTick =>
      obtain rfl := Except.ok.inj hstep
      exact iff_of_true ((tick_undisturbed hs.1).separate hseparate) trivial
  | destroyConnection conn =>
      exact iff_of_true ((destroyConnection_undisturbed hstep).separate hseparate) trivial

/-- In every state of a run the context has the value the user has set last and a
connection has at most one live entry, if and only if every update of a connection
whose context the user has set finds a live entry in that context. -/
theorem separate_iff {schedule : List Action}
    (hrun : run step (create idleSeconds) schedule = .ok s) :
    EveryState step Separate (create idleSeconds) schedule ↔
      EveryStep step FindsEntry (create idleSeconds) schedule :=
  everyState_iff step_pointsToEntry step_separate_iff
    ⟨create_sound idleSeconds, create_pointsToEntry idleSeconds⟩ (create_separate idleSeconds) hrun

/-- The user sets a context, and a message arrives. -/
def messageAfterSet : List Action :=
  [.updateConnection 0 10, .setContext 0 (.user 5), .updateConnection 0 10]

/-- The value of the user is gone, and the connection has two entries. -/
theorem separate_false : ¬ ∀ idleSeconds schedule s, 0 < idleSeconds →
    run step (create idleSeconds) schedule = .ok s → s.Separate := by
  intro hclaim
  have hends : ends (fun s => decide (s.assigned 0 = some (.user 5) ∧
      s.context 0 = .weakEntry 1 ∧ s.Lives 0 ∧ s.Lives 1 ∧ s.connOf 0 = s.connOf 1))
      (run step (create 2) messageAfterSet) = true := by decide
  obtain ⟨s, hrun, hcheck⟩ := exists_of_ends hends
  obtain ⟨-, -, hfirst, hsecond, hsame⟩ := of_decide_eq_true hcheck
  have hseparate := hclaim 2 messageAfterSet s (by decide) hrun
  cases hseparate.single 0 1 hfirst hsecond hsame

/-- The user sets a context, and the connection stays idle. -/
def idleAfterSet : List Action :=
  [.updateConnection 0 10, .updateConnection 0 11, .setContext 0 (.user 5), .onTimerTick,
    .onTimerTick]

theorem separate_iff_idleAfterSet : ∃ s, run step (create 2) idleAfterSet = .ok s ∧
    EveryState step Separate (create 2) idleAfterSet ∧ s.shutdowns = [0] := by
  have hends : ends (fun s => decide (s.shutdowns = [0]))
      (run step (create 2) idleAfterSet) = true := by decide
  obtain ⟨s, hrun, hcheck⟩ := exists_of_ends hends
  exact ⟨s, hrun, (separate_iff hrun).mpr (by decide), of_decide_eq_true hcheck⟩

end IdleWatch

end Muduo
