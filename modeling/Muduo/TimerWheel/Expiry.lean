import Muduo.TimerWheel.IdleWatch

/-! # When entries expire

An insertion sets a deadline of one full turn for an entry, so an entry lives as
long as some deadline of it lies ahead. Entries of other connections are only
touched through a context that user code has copied, and a refresh is only lost
when the filter for one second meets an entry that is no longer in the last
bucket.
-/

open Transition

namespace Muduo

namespace IdleWatch

variable {idleSeconds : Nat} {s next : IdleWatch} {conn : ConnId} {now : Int}
  {deadline : Nat} {entry other : EntryId}

/-- A bucket with the entry leaves the wheel at this tick. -/
def Due (s : IdleWatch) (deadline : Nat) (entry : EntryId) : Prop :=
  Wheel.Due s.timerWheel.wheel s.ticks deadline entry

/-- Nothing is under destruction, and the destroyed entries are those that have been
made and no longer exist. -/
structure Sound (idleSeconds : Nat) (s : IdleWatch) : Prop where
  length : s.timerWheel.wheel.length = idleSeconds
  expired : s.timerWheel.expired = []
  nodup : ∀ bucket ∈ s.timerWheel.wheel, bucket.Nodup
  made : ∀ entry, s.Lives entry → entry < s.timerWheel.made
  known : ∀ conn, (s.context conn).Known s.timerWheel.made
  updated : ∀ entry < s.timerWheel.made, ∃ ticks, s.updated (s.connOf entry) = some ticks
  destroyed : ∀ entry, entry ∈ s.destroyed ↔ entry < s.timerWheel.made ∧ ¬ s.Lives entry
  once : s.destroyed.Nodup
  calls : s.shutdowns.Sublist s.destroyed

theorem lives_iff_due (hexpired : s.timerWheel.expired = []) :
    s.Lives entry ↔ ∃ deadline, s.Due deadline entry := by
  unfold Lives Due
  rw [TimerWheel.owns_iff, hexpired, ← Wheel.held_iff_due]
  simp

theorem create_sound (idleSeconds : Nat) : (create idleSeconds).Sound idleSeconds := by
  have hempty : ∀ entry, ¬ (create idleSeconds).Lives entry := by
    intro entry
    unfold Lives
    rw [TimerWheel.owns_iff]
    rintro (hexpired | ⟨bucket, hbucket, hentry⟩)
    · cases hexpired
    · rw [List.eq_of_mem_replicate hbucket] at hentry
      cases hentry
  refine ⟨List.length_replicate, rfl, fun bucket hbucket => ?_, fun entry hlives => ?_,
    fun _ => trivial, nofun, fun entry => ?_, List.nodup_nil, List.Sublist.refl _⟩
  · rw [List.eq_of_mem_replicate hbucket]
    exact List.nodup_nil
  · exact absurd hlives (hempty entry)
  · exact ⟨nofun, fun hmade => absurd hmade.1 (Nat.not_lt_zero _)⟩

/-! ## Ticks -/

theorem tick_due : s.onTimerTick.Due deadline entry ↔
    s.Due deadline entry ∧ deadline ≠ s.ticks + 1 :=
  Wheel.due_turn

/-- What a tick destroys are the entries that live before it and not after it. -/
theorem tick_destroyed (hexpired : s.timerWheel.expired = []) :
    ∃ dead, s.onTimerTick.destroyed = s.destroyed ++ dead ∧
      s.onTimerTick.shutdowns =
        s.shutdowns ++ dead.filter (fun entry => s.alive (s.connOf entry)) ∧
      dead.Sublist ((s.timerWheel.wheel ++ [[]]).headD []) ∧
      ∀ entry, entry ∈ dead ↔ s.Lives entry ∧ ¬ s.onTimerTick.Lives entry := by
  refine ⟨s.timerWheel.onTimerTick.destroyExpired.2, rfl, rfl, List.filter_sublist,
    fun entry => ?_⟩
  have hafter : s.onTimerTick.timerWheel.expired = [] := rfl
  have hkept : s.onTimerTick.Lives entry ↔
      ∃ bucket ∈ (s.timerWheel.wheel ++ [[]]).tail, entry ∈ bucket := by
    unfold Lives
    rw [TimerWheel.owns_iff, hafter]
    simp only [List.not_mem_nil, false_or]
    rfl
  have hfront : entry ∈ (s.timerWheel.wheel ++ [[]]).headD [] ↔ s.Due (s.ticks + 1) entry :=
    Wheel.mem_front_iff_due
  have hdead : entry ∈ s.timerWheel.onTimerTick.destroyExpired.2 ↔
      entry ∈ (s.timerWheel.wheel ++ [[]]).headD [] ∧ ¬ s.onTimerTick.Lives entry := by
    rw [hkept]
    simp [TimerWheel.destroyExpired, TimerWheel.onTimerTick]
  rw [hdead, hfront, lives_iff_due hexpired]
  constructor
  · rintro ⟨hdue, hgone⟩
    exact ⟨⟨_, hdue⟩, hgone⟩
  · rintro ⟨⟨deadline, hdue⟩, hgone⟩
    refine ⟨?_, hgone⟩
    -- any later deadline would keep the entry alive
    by_cases hnow : deadline = s.ticks + 1
    · exact hnow ▸ hdue
    · exact absurd ((lives_iff_due hafter).mpr ⟨deadline, tick_due.mpr ⟨hdue, hnow⟩⟩) hgone

theorem tick_lives (hexpired : s.timerWheel.expired = []) (hlives : s.onTimerTick.Lives entry) :
    s.Lives entry := by
  obtain ⟨deadline, hdue⟩ := (lives_iff_due (s := s.onTimerTick) rfl).mp hlives
  exact (lives_iff_due hexpired).mpr ⟨deadline, (tick_due.mp hdue).1⟩

theorem tick_sound (hs : s.Sound idleSeconds) : s.onTimerTick.Sound idleSeconds := by
  obtain ⟨dead, hdestroyed, hshutdowns, hsublist, hdead⟩ := tick_destroyed hs.expired
  have hmade : s.onTimerTick.timerWheel.made = s.timerWheel.made := rfl
  refine ⟨?_, rfl, fun bucket hbucket => ?_, fun entry hlives => ?_, hs.known, hs.updated,
    fun entry => ?_, ?_, ?_⟩
  · exact (Wheel.length_turn _).trans hs.length
  · have hmem : bucket ∈ s.timerWheel.wheel ++ [[]] := List.mem_of_mem_tail hbucket
    rcases List.mem_append.mp hmem with hold | hnew
    · exact hs.nodup bucket hold
    · rw [List.mem_singleton.mp hnew]
      exact List.nodup_nil
  · exact hs.made entry (tick_lives hs.expired hlives)
  · rw [hdestroyed, List.mem_append, hdead, hs.destroyed, hmade]
    constructor
    · rintro (⟨hbelow, hgone⟩ | ⟨hlived, hgone⟩)
      · exact ⟨hbelow, fun hlives => hgone (tick_lives hs.expired hlives)⟩
      · exact ⟨hs.made entry hlived, hgone⟩
    · rintro ⟨hbelow, hgone⟩
      by_cases hlived : s.Lives entry
      · exact Or.inr ⟨hlived, hgone⟩
      · exact Or.inl ⟨hbelow, hlived⟩
  · rw [hdestroyed]
    refine List.nodup_append.mpr ⟨hs.once, ?_, ?_⟩
    · apply hsublist.nodup
      cases hwheel : s.timerWheel.wheel with
      | nil => exact List.nodup_nil
      | cons bucket rest => exact hs.nodup bucket (by rw [hwheel]; exact List.mem_cons_self)
    · rintro old hold new hnew rfl
      exact ((hs.destroyed old).mp hold).2 ((hdead old).mp hnew).1
  · rw [hdestroyed, hshutdowns]
    exact hs.calls.append List.filter_sublist

/-! ## Updates -/

/-- The entry is put into the last bucket. -/
structure Inserts (idleSeconds : Nat) (entry : EntryId) (s next : IdleWatch) : Prop where
  due : ∀ deadline other, next.Due deadline other ↔
    s.Due deadline other ∨ other = entry ∧ deadline = s.ticks + idleSeconds
  length : next.timerWheel.wheel.length = idleSeconds
  expired : next.timerWheel.expired = []
  nodup : ∀ bucket ∈ next.timerWheel.wheel, bucket.Nodup

theorem Inserts.of_wheel (hs : s.Sound idleSeconds) {bucket : Bucket}
    (hlast : s.timerWheel.wheel.getLast? = some bucket)
    (hwheel : next.timerWheel.wheel = s.timerWheel.wheel.dropLast ++ [bucket.insert entry])
    (hexpired : next.timerWheel.expired = s.timerWheel.expired) (hticks : next.ticks = s.ticks) :
    Inserts idleSeconds entry s next := by
  refine ⟨fun deadline other => ?_, ?_, hexpired.trans hs.expired, fun found hfound => ?_⟩
  · unfold Due
    rw [hwheel, hticks, Wheel.due_insert hlast, hs.length]
  · obtain ⟨front, hfront⟩ := List.getLast?_eq_some_iff.mp hlast
    rw [hwheel, hfront, ← hs.length, hfront]
    simp
  · rw [hwheel] at hfound
    rcases List.mem_append.mp hfound with hold | hnew
    · exact hs.nodup found (List.mem_of_mem_dropLast hold)
    · rw [List.mem_singleton.mp hnew]
      exact (hs.nodup bucket (List.mem_of_getLast? hlast)).insert

theorem Inserts.lives (hinserts : Inserts idleSeconds entry s next)
    (hexpired : s.timerWheel.expired = []) : next.Lives other ↔ s.Lives other ∨ other = entry := by
  rw [lives_iff_due hinserts.expired, lives_iff_due hexpired]
  simp only [hinserts.due, exists_or, exists_and_left, exists_eq, and_true]

/-- What no call of `updateConnection` touches. -/
structure UpdateFrame (conn : ConnId) (s next : IdleWatch) : Prop where
  alive : next.alive = s.alive
  ticks : next.ticks = s.ticks
  updated : next.updated = Function.update s.updated conn (some s.ticks)
  assigned : next.assigned = s.assigned
  destroyed : next.destroyed = s.destroyed
  shutdowns : next.shutdowns = s.shutdowns

/-- A call of `updateConnection` is filtered, refreshes the entry in the context, or
makes an entry. -/
theorem update_cases (hs : s.Sound idleSeconds)
    (hstep : step s (.updateConnection conn now) = .ok next) : UpdateFrame conn s next ∧
    ((∃ entry, s.timerWheel.lock (s.context conn) = some entry ∧
        (s.timerWheel.entries entry).lastTickTime = now ∧ next.timerWheel = s.timerWheel ∧
        next.context = s.context) ∨
      (∃ entry, s.timerWheel.lock (s.context conn) = some entry ∧
        (s.timerWheel.entries entry).lastTickTime ≠ now ∧ Inserts idleSeconds entry s next ∧
        next.timerWheel.made = s.timerWheel.made ∧ next.connOf = s.connOf ∧
        next.context = s.context) ∨
      (s.timerWheel.lock (s.context conn) = none ∧
        Inserts idleSeconds s.timerWheel.made s next ∧
        next.timerWheel.made = s.timerWheel.made + 1 ∧
        next.connOf = Function.update s.connOf s.timerWheel.made conn ∧
        next.context = Function.update s.context conn (.weakEntry s.timerWheel.made))) := by
  obtain ⟨-, hstep⟩ := Except.guard_eq_ok.mp hstep
  obtain ⟨⟨timerWheel, context⟩, hupdate, hstep⟩ := Except.bind_eq_ok.mp hstep
  obtain rfl := Except.ok.inj hstep
  refine ⟨⟨rfl, rfl, rfl, rfl, rfl, rfl⟩, ?_⟩
  rcases TimerWheel.updateConnection_cases hupdate with ⟨entry, hlock, hsame, rfl, rfl⟩ |
    ⟨entry, bucket, hlock, hother, hlast, rfl, rfl⟩ | ⟨bucket, hlock, hlast, rfl, rfl⟩
  · exact Or.inl ⟨entry, hlock, hsame, rfl, Function.update_eq_self conn s.context⟩
  · refine Or.inr (Or.inl ⟨entry, hlock, hother, Inserts.of_wheel hs hlast rfl rfl rfl, rfl, ?_,
      Function.update_eq_self conn s.context⟩)
    ext other
    unfold connOf
    by_cases hother : other = entry
    · simp [hother]
    · simp [hother]
  · refine Or.inr (Or.inr ⟨hlock, Inserts.of_wheel hs hlast rfl rfl rfl, rfl, ?_, rfl⟩)
    ext other
    unfold connOf
    by_cases hother : other = s.timerWheel.made
    · simp [hother]
    · simp [hother]

/-- A connection that has been updated stays so. -/
theorem UpdateFrame.keeps_updated (hframe : UpdateFrame conn s next) {other : ConnId}
    (hupdated : ∃ ticks, s.updated other = some ticks) :
    ∃ ticks, next.updated other = some ticks := by
  rw [hframe.updated]
  by_cases hother : other = conn
  · exact ⟨s.ticks, by rw [hother, Function.update_self]⟩
  · rw [Function.update_of_ne hother]
    exact hupdated

/-- A step that makes and destroys no entry. -/
theorem Sound.of_kept (hs : s.Sound idleSeconds)
    (hlength : next.timerWheel.wheel.length = idleSeconds)
    (hexpired : next.timerWheel.expired = [])
    (hnodup : ∀ bucket ∈ next.timerWheel.wheel, bucket.Nodup)
    (hlives : ∀ entry, next.Lives entry ↔ s.Lives entry)
    (hmade : next.timerWheel.made = s.timerWheel.made) (hconn : next.connOf = s.connOf)
    (hknown : ∀ conn, (next.context conn).Known s.timerWheel.made)
    (hupdated : ∀ conn, (∃ ticks, s.updated conn = some ticks) →
      ∃ ticks, next.updated conn = some ticks)
    (hdestroyed : next.destroyed = s.destroyed) (hshutdowns : next.shutdowns = s.shutdowns) :
    next.Sound idleSeconds := by
  refine ⟨hlength, hexpired, hnodup, fun entry hentry => ?_, ?_, fun entry hbelow => ?_,
    fun entry => ?_, ?_, ?_⟩
  · rw [hmade]
    exact hs.made entry ((hlives entry).mp hentry)
  · rw [hmade]
    exact hknown
  · rw [hmade] at hbelow
    rw [hconn]
    exact hupdated _ (hs.updated entry hbelow)
  · rw [hdestroyed, hmade, hlives]
    exact hs.destroyed entry
  · rw [hdestroyed]
    exact hs.once
  · rw [hdestroyed, hshutdowns]
    exact hs.calls

/-- A new entry is alive, and its connection has been updated. -/
theorem Sound.of_made (hs : s.Sound idleSeconds) (hframe : UpdateFrame conn s next)
    (hinserts : Inserts idleSeconds s.timerWheel.made s next)
    (hmade : next.timerWheel.made = s.timerWheel.made + 1)
    (hconn : next.connOf = Function.update s.connOf s.timerWheel.made conn)
    (hcontext : next.context = Function.update s.context conn (.weakEntry s.timerWheel.made)) :
    next.Sound idleSeconds := by
  have hlives : ∀ other, next.Lives other ↔ s.Lives other ∨ other = s.timerWheel.made :=
    fun other => hinserts.lives hs.expired
  refine ⟨hinserts.length, hinserts.expired, hinserts.nodup, fun other hother => ?_,
    fun other => ?_, fun other hbelow => ?_, fun other => ?_, ?_, ?_⟩
  · rw [hmade]
    rcases (hlives other).mp hother with hold | rfl
    · exact Nat.lt_succ_of_lt (hs.made other hold)
    · exact Nat.lt_succ_self _
  · rw [hcontext, hmade]
    by_cases hother : other = conn
    · rw [hother, Function.update_self]
      exact Nat.lt_succ_self _
    · rw [Function.update_of_ne hother]
      have hknown := hs.known other
      cases hcase : s.context other with
      | weakEntry old =>
          rw [hcase] at hknown
          exact Nat.lt_succ_of_lt hknown
      | empty | user => trivial
  · rw [hconn]
    by_cases hother : other = s.timerWheel.made
    · rw [hother, Function.update_self, hframe.updated, Function.update_self]
      exact ⟨s.ticks, rfl⟩
    · rw [Function.update_of_ne hother]
      rw [hmade] at hbelow
      exact hframe.keeps_updated (hs.updated other (by omega))
  · rw [hframe.destroyed, hs.destroyed, hlives, hmade, not_or]
    constructor
    · rintro ⟨hbelow, hgone⟩
      exact ⟨Nat.lt_succ_of_lt hbelow, hgone, Nat.ne_of_lt hbelow⟩
    · rintro ⟨hbelow, hgone, hother⟩
      exact ⟨Nat.lt_of_le_of_ne (Nat.le_of_lt_succ hbelow) hother, hgone⟩
  · rw [hframe.destroyed]
    exact hs.once
  · rw [hframe.destroyed, hframe.shutdowns]
    exact hs.calls

theorem update_sound (hs : s.Sound idleSeconds)
    (hstep : step s (.updateConnection conn now) = .ok next) : next.Sound idleSeconds := by
  obtain ⟨hframe, hcases⟩ := update_cases hs hstep
  rcases hcases with ⟨entry, -, -, hwheel, hcontext⟩ | ⟨entry, hlock, -, hinserts, hmade,
    hconn, hcontext⟩ | ⟨-, hinserts, hmade, hconn, hcontext⟩
  · refine hs.of_kept (by rw [hwheel, hs.length]) (by rw [hwheel, hs.expired])
      (by rw [hwheel]; exact hs.nodup) ?_ (by rw [hwheel]) ?_ (by rw [hcontext]; exact hs.known)
      (fun _ => hframe.keeps_updated) hframe.destroyed hframe.shutdowns
    · intro other
      rw [Lives, hwheel, Lives]
    · ext other
      rw [connOf, hwheel, connOf]
  · refine hs.of_kept hinserts.length hinserts.expired hinserts.nodup ?_ hmade hconn
      (by rw [hcontext]; exact hs.known) (fun _ => hframe.keeps_updated) hframe.destroyed
      hframe.shutdowns
    intro other
    rw [hinserts.lives hs.expired, or_iff_left_iff_imp]
    rintro rfl
    exact (TimerWheel.lock_eq_some.mp hlock).2
  · exact hs.of_made hframe hinserts hmade hconn hcontext

theorem setContext_sound {context : Context} (hs : s.Sound idleSeconds)
    (hstep : step s (.setContext conn context) = .ok next) : next.Sound idleSeconds := by
  obtain ⟨⟨-, hknown⟩, hstep⟩ := Except.guard_eq_ok.mp hstep
  obtain rfl := Except.ok.inj hstep
  refine hs.of_kept hs.length hs.expired hs.nodup (fun _ => Iff.rfl) rfl rfl (fun other => ?_)
    (fun _ => id) rfl rfl
  by_cases hother : other = conn
  · simp only [hother, Function.update_self]
    exact hknown
  · simp only [Function.update_of_ne hother]
    exact hs.known other

theorem step_sound (s : IdleWatch) (action : Action) (next : IdleWatch)
    (hs : s.Sound idleSeconds) (hstep : step s action = .ok next) : next.Sound idleSeconds := by
  cases action with
  | onTimerTick =>
      obtain rfl := Except.ok.inj hstep
      exact tick_sound hs
  | updateConnection conn now => exact update_sound hs hstep
  | setContext conn context => exact setContext_sound hs hstep
  | destroyConnection conn =>
      obtain ⟨-, hstep⟩ := Except.guard_eq_ok.mp hstep
      obtain rfl := Except.ok.inj hstep
      exact hs.of_kept hs.length hs.expired hs.nodup (fun _ => Iff.rfl) rfl rfl hs.known
        (fun _ => id) rfl rfl

end IdleWatch

end Muduo
