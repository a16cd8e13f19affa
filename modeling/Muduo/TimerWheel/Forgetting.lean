import Muduo.TimerWheel.Expiry

/-! # The wheel forgets nothing

Every bucket with an entry leaves the wheel at the latest one turn after the last
update of the connection the entry was made for. The one exception is an update
of another connection whose context has been given a weak pointer to the entry:
`updateConnection` refreshes whatever entry it finds there.
-/

open Transition

namespace Muduo

namespace IdleWatch

variable {idleSeconds : Nat} {s next : IdleWatch} {conn : ConnId} {now : Int}
  {deadline : Nat} {entry other : EntryId}

/-- An entry found in the context of a connection was made for that connection. -/
def UsesOwnEntry (s : IdleWatch) : Action → Prop
  | .updateConnection conn _ =>
      match s.timerWheel.lock (s.context conn) with
      | some entry => s.connOf entry = conn
      | none => True
  | _ => True

instance (s : IdleWatch) : (action : Action) → Decidable (s.UsesOwnEntry action)
  | .updateConnection conn _ => by
      dsimp only [UsesOwnEntry]
      exact match s.timerWheel.lock (s.context conn) with
        | some _ => inferInstanceAs (Decidable (_ = _))
        | none => .isTrue trivial
  | .onTimerTick | .setContext _ _ | .destroyConnection _ => .isTrue trivial

/-- No bucket with an entry leaves later than one turn after the last update. -/
def Bounded (idleSeconds : Nat) (s : IdleWatch) : Prop :=
  ∀ deadline entry, s.Due deadline entry → ∃ ticks,
    s.updated (s.connOf entry) = some ticks ∧ deadline ≤ ticks + idleSeconds

theorem tick_bounded (hbounded : s.Bounded idleSeconds) : s.onTimerTick.Bounded idleSeconds :=
  fun deadline entry hdue => hbounded deadline entry (tick_due.mp hdue).1

/-- An update only moves the bounds of its connection, to a full turn from now. -/
theorem UpdateFrame.bounded (hframe : UpdateFrame conn s next)
    (hlength : s.timerWheel.wheel.length = idleSeconds) (hbounded : s.Bounded idleSeconds)
    (hdue : s.Due deadline entry) (hconn : next.connOf entry = s.connOf entry) : ∃ ticks,
    next.updated (next.connOf entry) = some ticks ∧ deadline ≤ ticks + idleSeconds := by
  rw [hframe.updated, hconn]
  by_cases hother : s.connOf entry = conn
  · rw [hother, Function.update_self]
    exact ⟨s.ticks, rfl, hlength ▸ hdue.bounds.2⟩
  · rw [Function.update_of_ne hother]
    exact hbounded deadline entry hdue

theorem update_bounded (hs : s.Sound idleSeconds) (hbounded : s.Bounded idleSeconds)
    (hown : s.UsesOwnEntry (.updateConnection conn now))
    (hstep : step s (.updateConnection conn now) = .ok next) : next.Bounded idleSeconds := by
  obtain ⟨hframe, hcases⟩ := update_cases hs hstep
  rcases hcases with ⟨entry, -, -, hwheel, -⟩ | ⟨entry, hlock, -, hinserts, -, hconn, -⟩ |
    ⟨-, hinserts, -, hconn, -⟩
  · intro deadline other hdue
    rw [Due, hwheel, hframe.ticks] at hdue
    exact hframe.bounded hs.length hbounded hdue (by rw [connOf, hwheel, connOf])
  · intro deadline other hdue
    rcases (hinserts.due deadline other).mp hdue with hold | ⟨rfl, rfl⟩
    · exact hframe.bounded hs.length hbounded hold (by rw [hconn])
    · simp only [UsesOwnEntry, hlock] at hown
      rw [hframe.updated, hconn, hown, Function.update_self]
      exact ⟨s.ticks, rfl, le_rfl⟩
  · intro deadline other hdue
    rcases (hinserts.due deadline other).mp hdue with hold | ⟨rfl, rfl⟩
    · have hbelow := hs.made other ((lives_iff_due hs.expired).mpr ⟨deadline, hold⟩)
      refine hframe.bounded hs.length hbounded hold ?_
      rw [hconn, Function.update_of_ne (Nat.ne_of_lt hbelow)]
    · rw [hframe.updated, hconn, Function.update_self, Function.update_self]
      exact ⟨s.ticks, rfl, le_rfl⟩

theorem create_bounded (idleSeconds : Nat) : (create idleSeconds).Bounded idleSeconds := by
  intro deadline entry hdue
  have hsound := create_sound idleSeconds
  have hlives := (lives_iff_due hsound.expired).mpr ⟨deadline, hdue⟩
  exact absurd (hsound.made entry hlives) (Nat.not_lt_zero _)

theorem step_bounded (s : IdleWatch) (action : Action) (next : IdleWatch)
    (hs : s.Sound idleSeconds ∧ s.Bounded idleSeconds) (hown : s.UsesOwnEntry action)
    (hstep : step s action = .ok next) : next.Sound idleSeconds ∧ next.Bounded idleSeconds := by
  refine ⟨step_sound s action next hs.1 hstep, ?_⟩
  cases action with
  | onTimerTick =>
      obtain rfl := Except.ok.inj hstep
      exact tick_bounded hs.2
  | updateConnection conn now => exact update_bounded hs.1 hs.2 hown hstep
  | setContext conn context =>
      obtain ⟨-, hstep⟩ := Except.guard_eq_ok.mp hstep
      obtain rfl := Except.ok.inj hstep
      exact hs.2
  | destroyConnection conn =>
      obtain ⟨-, hstep⟩ := Except.guard_eq_ok.mp hstep
      obtain rfl := Except.ok.inj hstep
      exact hs.2

/-- A step calls `shutdown` on behalf of the entries that die in it, if their
connection is alive. -/
theorem step_shutdowns (hs : s.Sound idleSeconds) {action : Action}
    (hstep : step s action = .ok next) : ∃ calls, next.shutdowns = s.shutdowns ++ calls ∧
      calls.Nodup ∧ ∀ entry, entry ∈ calls ↔
        s.Lives entry ∧ ¬ next.Lives entry ∧ s.alive (s.connOf entry) = true := by
  have hnone : next.shutdowns = s.shutdowns → (∀ entry, s.Lives entry → next.Lives entry) →
      ∃ calls, next.shutdowns = s.shutdowns ++ calls ∧ calls.Nodup ∧ ∀ entry, entry ∈ calls ↔
        s.Lives entry ∧ ¬ next.Lives entry ∧ s.alive (s.connOf entry) = true := by
    intro hsame hkept
    refine ⟨[], by rw [hsame, List.append_nil], List.nodup_nil, fun entry => ⟨nofun, ?_⟩⟩
    rintro ⟨hlives, hgone, -⟩
    exact absurd (hkept entry hlives) hgone
  cases action with
  | onTimerTick =>
      obtain rfl := Except.ok.inj hstep
      obtain ⟨dead, hdestroyed, hshutdowns, -, hdead⟩ := tick_destroyed hs.expired
      have honce := (tick_sound hs).once
      rw [hdestroyed] at honce
      refine ⟨_, hshutdowns, (List.nodup_append.mp honce).2.1.filter _, fun entry => ?_⟩
      rw [List.mem_filter, hdead, and_assoc]
  | updateConnection conn now =>
      obtain ⟨hframe, hcases⟩ := update_cases hs hstep
      refine hnone hframe.shutdowns fun entry hlives => ?_
      rcases hcases with ⟨_, _, _, hwheel, _⟩ | ⟨_, _, _, hinserts, _⟩ | ⟨_, hinserts, _⟩
      · rw [Lives, hwheel]
        exact hlives
      · exact (hinserts.lives hs.expired).mpr (Or.inl hlives)
      · exact (hinserts.lives hs.expired).mpr (Or.inl hlives)
  | setContext conn context =>
      obtain ⟨-, hstep⟩ := Except.guard_eq_ok.mp hstep
      obtain rfl := Except.ok.inj hstep
      exact hnone rfl fun _ => id
  | destroyConnection conn =>
      obtain ⟨-, hstep⟩ := Except.guard_eq_ok.mp hstep
      obtain rfl := Except.ok.inj hstep
      exact hnone rfl fun _ => id

/-- The wheel keeps its size, every entry is destroyed at the latest by the tick one
turn after the last update of its connection, once, and its destructor calls
`shutdown` once if the connection is alive. -/
structure NeverForgets (idleSeconds : Nat) (s : IdleWatch) : Prop where
  buckets : s.timerWheel.wheel.length = idleSeconds
  expires : ∀ entry < s.timerWheel.made, ∃ ticks, s.updated (s.connOf entry) = some ticks ∧
    (ticks + idleSeconds ≤ s.ticks → entry ∈ s.destroyed)
  destroyed : ∀ entry, entry ∈ s.destroyed ↔ entry < s.timerWheel.made ∧ ¬ s.Lives entry
  destroyedOnce : s.destroyed.Nodup
  shutdowns : ∀ action next, step s action = .ok next → ∃ calls,
    next.shutdowns = s.shutdowns ++ calls ∧ calls.Nodup ∧ ∀ entry, entry ∈ calls ↔
      s.Lives entry ∧ ¬ next.Lives entry ∧ s.alive (s.connOf entry) = true
  shutdownsOnce : s.shutdowns.Nodup

theorem Bounded.neverForgets (hs : s.Sound idleSeconds) (hbounded : s.Bounded idleSeconds) :
    s.NeverForgets idleSeconds where
  buckets := hs.length
  expires := by
    intro entry hmade
    obtain ⟨ticks, hticks⟩ := hs.updated entry hmade
    refine ⟨ticks, hticks, fun hlate => ?_⟩
    rw [hs.destroyed]
    refine ⟨hmade, fun hlives => ?_⟩
    obtain ⟨deadline, hdue⟩ := (lives_iff_due hs.expired).mp hlives
    obtain ⟨other, hother, hbound⟩ := hbounded deadline entry hdue
    obtain rfl := Option.some.inj (hticks.symm.trans hother)
    have hahead := hdue.bounds.1
    omega
  destroyed := hs.destroyed
  destroyedOnce := hs.once
  shutdowns := fun _ _ => step_shutdowns hs
  shutdownsOnce := hs.calls.nodup hs.once

theorem step_past (s : IdleWatch) (action : Action) (next : IdleWatch)
    (hpast : ∀ conn ticks, s.updated conn = some ticks → ticks ≤ s.ticks)
    (hstep : step s action = .ok next) :
    ∀ conn ticks, next.updated conn = some ticks → ticks ≤ next.ticks := by
  cases action with
  | onTimerTick =>
      obtain rfl := Except.ok.inj hstep
      exact fun conn ticks hticks => Nat.le_succ_of_le (hpast conn ticks hticks)
  | updateConnection conn now =>
      obtain ⟨-, hstep⟩ := Except.guard_eq_ok.mp hstep
      obtain ⟨_, -, hstep⟩ := Except.bind_eq_ok.mp hstep
      obtain rfl := Except.ok.inj hstep
      intro other ticks hticks
      by_cases hother : other = conn
      · simp only [hother, Function.update_self, Option.some.injEq] at hticks
        exact hticks.ge
      · simp only [Function.update_of_ne hother] at hticks
        exact hpast other ticks hticks
  | setContext conn context =>
      obtain ⟨-, hstep⟩ := Except.guard_eq_ok.mp hstep
      obtain rfl := Except.ok.inj hstep
      exact hpast
  | destroyConnection conn =>
      obtain ⟨-, hstep⟩ := Except.guard_eq_ok.mp hstep
      obtain rfl := Except.ok.inj hstep
      exact hpast

/-- Without an update of the connection the ticks count its idle time. -/
theorem run_idle {rest : List Action} {final : IdleWatch}
    (hidle : ∀ now, Action.updateConnection conn now ∉ rest)
    (hrun : run step s rest = .ok final) :
    final.updated conn = s.updated conn ∧ final.ticks = s.ticks + rest.count .onTimerTick := by
  induction rest generalizing s with
  | nil =>
      obtain rfl := Except.ok.inj hrun
      exact ⟨rfl, rfl⟩
  | cons action rest ih =>
      obtain ⟨middle, hstep, hrest⟩ := run_cons_eq_ok.mp hrun
      have hlater := ih (fun now hmem => hidle now (List.mem_cons_of_mem _ hmem)) hrest
      have hother : ∀ now, action ≠ .updateConnection conn now :=
        fun now heq => hidle now (heq ▸ List.mem_cons_self)
      suffices hfirst : middle.updated conn = s.updated conn ∧
          middle.ticks = s.ticks + [action].count .onTimerTick by
        rw [hlater.1, hlater.2, hfirst.1, hfirst.2, Nat.add_assoc, ← List.count_append]
        exact ⟨rfl, rfl⟩
      cases action with
      | onTimerTick =>
          obtain rfl := Except.ok.inj hstep
          exact ⟨rfl, rfl⟩
      | updateConnection updated now =>
          obtain ⟨-, hstep⟩ := Except.guard_eq_ok.mp hstep
          obtain ⟨_, -, hstep⟩ := Except.bind_eq_ok.mp hstep
          obtain rfl := Except.ok.inj hstep
          refine ⟨Function.update_of_ne (fun heq => hother now (by rw [heq])) _ _, by simp⟩
      | setContext set context =>
          obtain ⟨-, hstep⟩ := Except.guard_eq_ok.mp hstep
          obtain rfl := Except.ok.inj hstep
          exact ⟨rfl, by simp⟩
      | destroyConnection gone =>
          obtain ⟨-, hstep⟩ := Except.guard_eq_ok.mp hstep
          obtain rfl := Except.ok.inj hstep
          exact ⟨rfl, by simp⟩

/-- In a run in which no connection is updated through the entry of another one, the
wheel forgets nothing, and after one full turn of ticks without an update of a
connection no bucket holds an entry of it. -/
theorem never_forgets {schedule : List Action}
    (hrun : run step (create idleSeconds) schedule = .ok s)
    (hown : EveryStep step UsesOwnEntry (create idleSeconds) schedule) :
    s.NeverForgets idleSeconds ∧ ∀ conn rest final, run step s rest = .ok final →
      EveryStep step UsesOwnEntry s rest → (∀ now, Action.updateConnection conn now ∉ rest) →
      idleSeconds ≤ rest.count .onTimerTick →
      ∀ entry, final.Lives entry → final.connOf entry ≠ conn := by
  have hs := run_invariant_of_everyStep step_bounded
    ⟨create_sound idleSeconds, create_bounded idleSeconds⟩ hown hrun
  have hpast : ∀ conn ticks, s.updated conn = some ticks → ticks ≤ s.ticks :=
    run_invariant step_past (fun _ _ hticks => by cases hticks) hrun
  refine ⟨hs.2.neverForgets hs.1, ?_⟩
  rintro conn rest final hrest hownRest hidle hturn entry hlives rfl
  have hfinal := run_invariant_of_everyStep step_bounded hs hownRest hrest
  obtain ⟨deadline, hdue⟩ := (lives_iff_due hfinal.1.expired).mp hlives
  obtain ⟨ticks, hticks, hbound⟩ := hfinal.2 deadline entry hdue
  obtain ⟨hupdated, hcount⟩ := run_idle hidle hrest
  rw [hupdated] at hticks
  have hsince := hpast _ ticks hticks
  have hahead := hdue.bounds.1
  omega

/-- User code gives one connection the context of another one. -/
def sharedContext : List Action :=
  [.updateConnection 0 10, .updateConnection 1 10, .setContext 1 (.weakEntry 0), .onTimerTick,
    .updateConnection 1 11, .onTimerTick]

/-- The updates of connection 1 keep the entry of connection 0 in the wheel. -/
theorem never_forgets_false : ¬ ∀ idleSeconds schedule s, 0 < idleSeconds →
    run step (create idleSeconds) schedule = .ok s → s.NeverForgets idleSeconds := by
  intro hclaim
  have hends : ends (fun s => decide (0 < s.timerWheel.made ∧ s.updated (s.connOf 0) = some 0 ∧
      s.ticks = 2 ∧ 0 ∉ s.destroyed)) (run step (create 2) sharedContext) = true := by
    decide
  obtain ⟨s, hrun, hcheck⟩ := exists_of_ends hends
  obtain ⟨hmade, hupdated, hticks, halive⟩ := of_decide_eq_true hcheck
  obtain ⟨ticks, hlast, hexpires⟩ := (hclaim 2 sharedContext s (by decide) hrun).expires 0 hmade
  rw [hupdated, Option.some.injEq] at hlast
  exact halive (hexpires (by omega))

/-- Two connections, of which one is refreshed through its own entry. -/
def refreshed : List Action :=
  [.updateConnection 0 10, .updateConnection 1 10, .setContext 1 (.user 5), .onTimerTick,
    .updateConnection 0 11, .updateConnection 1 11, .onTimerTick]

theorem never_forgets_refreshed : ∃ s, run step (create 2) refreshed = .ok s ∧
    s.NeverForgets 2 ∧ s.shutdowns = [1] := by
  have hends : ends (fun s => decide (s.shutdowns = [1]))
      (run step (create 2) refreshed) = true := by decide
  obtain ⟨s, hrun, hcheck⟩ := exists_of_ends hends
  exact ⟨s, hrun, (never_forgets hrun (by decide)).1, of_decide_eq_true hcheck⟩

end IdleWatch

end Muduo
