import Muduo.TimerWheel.Eviction

/-! # The idle timeout in real time

`EventLoop::loop` calls `onTimerTick` when its steady clock has moved by a second since the last
call, and it asks once an iteration. `updateConnection` reads the wall clock, in whole seconds.
The wall clock is taken to run with the steady one. The loop asks at least once a period, which
is the timeout of `epoll_wait` and the time its handlers take.
-/

open Transition

namespace Muduo

/-- The destructor of an entry calls `shutdown` of its connection. -/
structure TimedWatch.Shutdown where
  conn : ConnId
  lastActivity : Nat
  time : Nat
  deriving DecidableEq, Repr

structure TimedWatch where
  watch : IdleWatch
  /-- the steady clock -/
  clock : Nat
  /-- `lastTimerTime_` -/
  lastTimerTime : Nat
  /-- when the loop has last asked for the time -/
  asked : Nat
  /-- when `updateConnection` has last been called for a connection -/
  lastActivity : ConnId → Nat
  shutdowns : List TimedWatch.Shutdown

namespace TimedWatch

/-- A second of the steady clock, which counts nanoseconds. -/
def second : Nat := 1000000000

/-- What `time(nullptr)` returns while nobody sets the wall clock, which is `epoch` ahead of the
steady clock. -/
def wallClock (epoch clock : Nat) : Nat := (clock + epoch) / second

/-- The call comes no earlier than two seconds before the timeout is over, and before as many ticks
of a second and a period each have passed. -/
def InWindow (idleSeconds period : Nat) (call : Shutdown) : Prop :=
  call.lastActivity + idleSeconds * second < call.time + 2 * second ∧
    call.time < call.lastActivity + idleSeconds * (second + period)

/-- The clock starts with `loop()`. -/
def create (idleSeconds : Nat) : TimedWatch where
  watch := IdleWatch.create idleSeconds
  clock := 0
  lastTimerTime := 0
  asked := 0
  lastActivity := fun _ => 0
  shutdowns := []

inductive Action where
  | elapse (time : Nat)
  /-- the end of an iteration of `loop()` -/
  | askTimer
  | call (action : IdleWatch.Action)
  deriving DecidableEq, Repr

/-- User code sets a context. -/
def Action.setsContext : Action → Bool
  | .call action => action.setsContext
  | _ => false

/-- The calls of `shutdown` that a tick makes now. What they do depends on the state of the
connection. -/
def shutdownCalls (s : TimedWatch) : List Shutdown :=
  (s.watch.onTimerTick.shutdowns.drop s.watch.shutdowns.length).map fun entry =>
    ⟨s.watch.connOf entry, s.lastActivity (s.watch.connOf entry), s.clock⟩

def askTimer (s : TimedWatch) : TimedWatch :=
  if s.clock - s.lastTimerTime ≥ second then
    { s with
      watch := s.watch.onTimerTick
      lastTimerTime := s.clock
      asked := s.clock
      shutdowns := s.shutdowns ++ s.shutdownCalls }
  else { s with asked := s.clock }

/-- `updateConnection` reads the wall clock, and only the loop calls `onTimerTick`. -/
def Reads (epoch : Nat) (s : TimedWatch) : IdleWatch.Action → Prop
  | .onTimerTick => False
  | .updateConnection _ now => now = wallClock epoch s.clock
  | .setContext _ _ | .destroyConnection _ => True

instance (epoch : Nat) (s : TimedWatch) :
    (action : IdleWatch.Action) → Decidable (s.Reads epoch action)
  | .onTimerTick => .isFalse id
  | .updateConnection _ _ => inferInstanceAs (Decidable (_ = _))
  | .setContext _ _ | .destroyConnection _ => .isTrue trivial

/-- The last activity of the connections after a call. -/
def activityAfter (s : TimedWatch) : IdleWatch.Action → ConnId → Nat
  | .updateConnection conn _ => Function.update s.lastActivity conn s.clock
  | _ => s.lastActivity

def step (epoch : Nat) (s : TimedWatch) : Action → Except Stop TimedWatch
  | .elapse time => .ok { s with clock := s.clock + time }
  | .askTimer => .ok s.askTimer
  | .call action =>
      if s.Reads epoch action then do
        let watch ← s.watch.step action
        return { s with watch, lastActivity := s.activityAfter action }
      else .error .disabled

/-- The loop asks for the time at least once a period. -/
def Punctual (period : Nat) (s : TimedWatch) : Action → Prop
  | .elapse time => s.clock + time ≤ s.asked + period
  | _ => True

instance (period : Nat) (s : TimedWatch) : (action : Action) → Decidable (s.Punctual period action)
  | .elapse _ => inferInstanceAs (Decidable (_ ≤ _))
  | .askTimer | .call _ => .isTrue trivial

/-! ## The clocks -/

variable {epoch clock : Nat}

theorem second_pos : 0 < second := by decide

theorem wallClock_bounds (epoch clock : Nat) : wallClock epoch clock * second ≤ clock + epoch ∧
    clock + epoch < wallClock epoch clock * second + second :=
  ⟨Nat.div_mul_le_self _ _, Nat.lt_div_mul_add second_pos⟩

end TimedWatch

/-! ## Renewed entries -/

namespace IdleWatch

variable {idleSeconds : Nat} {s next : IdleWatch} {conn : ConnId} {now : Int}
  {deadline : Nat} {entry other : EntryId}

/-- After a call of `updateConnection` the connection has an entry that has been put into a
bucket within the same second, or is due one turn from now. The entries of other connections are
as they were. -/
structure Renews (idleSeconds : Nat) (conn : ConnId) (now : Int) (s next : IdleWatch) : Prop where
  entry : ∃ entry, next.Lives entry ∧ next.connOf entry = conn ∧
    (next.timerWheel.entries entry).lastTickTime = now ∧
    (s.Lives entry ∧ s.connOf entry = conn ∧ (s.timerWheel.entries entry).lastTickTime = now ∧
        (∀ deadline, s.Due deadline entry → next.Due deadline entry) ∨
      next.Due (s.ticks + idleSeconds) entry)
  others : ∀ other, next.Lives other → next.connOf other ≠ conn → s.Lives other ∧
    next.timerWheel.entries other = s.timerWheel.entries other ∧
    ∀ deadline, s.Due deadline other → next.Due deadline other
  kept : ∀ other, s.Lives other → s.connOf other ≠ conn →
    next.Lives other ∧ next.connOf other = s.connOf other

/-- The refresh is filtered. -/
theorem filter_renews (hlinked : s.Linked) (hpoints : s.context conn = .weakEntry entry)
    (hlives : s.Lives entry) (hfresh : (s.timerWheel.entries entry).lastTickTime = now)
    (hwheel : next.timerWheel = s.timerWheel) (hcontext : next.context = s.context)
    (hticks : next.ticks = s.ticks) : next.Linked ∧ Renews idleSeconds conn now s next := by
  have hconn : next.connOf = s.connOf := by
    ext other
    rw [connOf, hwheel, connOf]
  have hdue (deadline : Nat) (other : EntryId) (hdue : s.Due deadline other) :
      next.Due deadline other := by
    rw [Due, hwheel, hticks]
    exact hdue
  have hentries (other : EntryId) : next.Lives other ↔ s.Lives other := by
    rw [Lives, hwheel, Lives]
  have hentry := hlinked.points conn entry hpoints
  refine ⟨hlinked.of_same hconn hcontext fun other => (hentries other).mp, ⟨entry, ?_⟩, ?_, ?_⟩
  · refine ⟨(hentries entry).mpr hlives, by rw [hconn, hentry], by rw [hwheel, hfresh], ?_⟩
    exact Or.inl ⟨hlives, hentry, hfresh, fun deadline => hdue deadline entry⟩
  · exact fun other hother _ =>
      ⟨(hentries other).mp hother, by rw [hwheel], fun deadline => hdue deadline other⟩
  · exact fun other hother _ => ⟨(hentries other).mpr hother, by rw [hconn]⟩

/-- The entry in the context is inserted again. -/
theorem insert_renews (hs : s.Sound idleSeconds) (hlinked : s.Linked)
    (hpoints : s.context conn = .weakEntry entry) (hlives : s.Lives entry)
    (hinserts : Inserts idleSeconds entry s next)
    (hwritten : next.timerWheel.entries = Function.update s.timerWheel.entries entry
      { s.timerWheel.entries entry with lastTickTime := now })
    (hcontext : next.context = s.context) :
    next.Linked ∧ Renews idleSeconds conn now s next := by
  have hentries (other : EntryId) : next.Lives other ↔ s.Lives other := by
    rw [hinserts.lives hs.expired, or_iff_left_iff_imp]
    rintro rfl
    exact hlives
  have hconn : next.connOf = s.connOf := by
    ext other
    rw [connOf, hwritten, connOf]
    by_cases hother : other = entry
    · simp [hother]
    · simp [hother]
  refine ⟨hlinked.of_same hconn hcontext fun other => (hentries other).mp, ⟨entry, ?_⟩, ?_, ?_⟩
  · refine ⟨(hentries entry).mpr hlives, ?_, ?_, Or.inr ?_⟩
    · rw [hconn, hlinked.points conn entry hpoints]
    · rw [hwritten, Function.update_self]
    · exact (hinserts.due _ _).mpr (Or.inr ⟨rfl, rfl⟩)
  · intro other hother hne
    rw [hconn] at hne
    have hdistinct : other ≠ entry := by
      rintro rfl
      exact hne (hlinked.points conn other hpoints)
    refine ⟨(hentries other).mp hother, ?_, fun deadline hdue => ?_⟩
    · rw [hwritten, Function.update_of_ne hdistinct]
    · exact (hinserts.due _ _).mpr (Or.inl hdue)
  · exact fun other hother _ => ⟨(hentries other).mpr hother, by rw [hconn]⟩

/-- An entry is made. -/
theorem make_renews (hs : s.Sound idleSeconds) (hlinked : s.Linked)
    (hlock : s.timerWheel.lock (s.context conn) = none)
    (hinserts : Inserts idleSeconds s.timerWheel.made s next)
    (hwritten : next.timerWheel.entries =
      Function.update s.timerWheel.entries s.timerWheel.made ⟨conn, now⟩)
    (hcontext : next.context = Function.update s.context conn (.weakEntry s.timerWheel.made)) :
    next.Linked ∧ Renews idleSeconds conn now s next := by
  have hentries (other : EntryId) :
      next.Lives other ↔ s.Lives other ∨ other = s.timerWheel.made := hinserts.lives hs.expired
  have hold (other : EntryId) (hne : other ≠ s.timerWheel.made) :
      next.timerWheel.entries other = s.timerWheel.entries other := by
    rw [hwritten, Function.update_of_ne hne]
  have hnew : next.connOf s.timerWheel.made = conn := by
    rw [connOf, hwritten, Function.update_self]
  refine ⟨hlinked.make hs hlock (fun other => (hentries other).mp) (fun other hne => ?_) hnew
    hcontext, ⟨s.timerWheel.made, ?_⟩, fun other hother hne => ?_, fun other hother _ => ?_⟩
  · rw [connOf, hold other hne, connOf]
  · refine ⟨(hentries _).mpr (Or.inr rfl), hnew, ?_, Or.inr ?_⟩
    · rw [hwritten, Function.update_self]
    · exact (hinserts.due _ _).mpr (Or.inr ⟨rfl, rfl⟩)
  · have hdistinct : other ≠ s.timerWheel.made := by
      rintro rfl
      exact hne hnew
    refine ⟨((hentries other).mp hother).resolve_right hdistinct, hold other hdistinct, ?_⟩
    exact fun deadline hdue => (hinserts.due _ _).mpr (Or.inl hdue)
  · have hbelow := hs.made other hother
    exact ⟨(hentries other).mpr (Or.inl hother),
      by rw [connOf, hold other (Nat.ne_of_lt hbelow), connOf]⟩

theorem update_renews (hs : s.Sound idleSeconds) (hlinked : s.Linked)
    (hstep : step s (.updateConnection conn now) = .ok next) :
    next.Linked ∧ Renews idleSeconds conn now s next := by
  obtain ⟨-, hstep⟩ := Except.guard_eq_ok.mp hstep
  obtain ⟨⟨timerWheel, context⟩, hupdate, hstep⟩ := Except.bind_eq_ok.mp hstep
  obtain ⟨hwheel, hcontext, hticks⟩ : next.timerWheel = timerWheel ∧
      next.context = Function.update s.context conn context ∧ next.ticks = s.ticks := by
    obtain rfl := Except.ok.inj hstep
    exact ⟨rfl, rfl, rfl⟩
  have hsame (hkept : context = s.context conn) : next.context = s.context := by
    rw [hcontext, hkept, Function.update_eq_self]
  rcases TimerWheel.updateConnection_cases hupdate with ⟨entry, hlock, hfresh, rfl, rfl⟩ |
    ⟨entry, bucket, hlock, -, hlast, rfl, rfl⟩ | ⟨bucket, hlock, hlast, rfl, rfl⟩
  · obtain ⟨hpoints, hlives⟩ := TimerWheel.lock_eq_some.mp hlock
    exact filter_renews hlinked hpoints hlives hfresh hwheel (hsame rfl) hticks
  · obtain ⟨hpoints, hlives⟩ := TimerWheel.lock_eq_some.mp hlock
    have hinserts : Inserts idleSeconds entry s next := by
      refine Inserts.of_wheel hs hlast ?_ ?_ hticks <;> rw [hwheel]
    exact insert_renews hs hlinked hpoints hlives hinserts (by rw [hwheel]) (hsame rfl)
  · have hinserts : Inserts idleSeconds s.timerWheel.made s next := by
      refine Inserts.of_wheel hs hlast ?_ ?_ hticks <;> rw [hwheel]
    exact make_renews hs hlinked hlock hinserts (by rw [hwheel]) hcontext

end IdleWatch

/-! ## The invariant -/

namespace TimedWatch

variable {idleSeconds epoch period : Nat} {s next : TimedWatch} {conn : ConnId} {entry : EntryId}
  {action : Action}

/-- The entry has read the clock in the second of the last activity of its connection, and some
bucket with it leaves the wheel at most two seconds before its timeout is over. -/
structure Paced (idleSeconds epoch : Nat) (s : TimedWatch) (entry : EntryId) : Prop where
  read : (s.watch.timerWheel.entries entry).lastTickTime =
    wallClock epoch (s.lastActivity (s.watch.connOf entry))
  due : ∃ ahead, s.watch.Due (s.watch.ticks + ahead) entry ∧ (ahead = idleSeconds ∨
    wallClock epoch (s.lastActivity (s.watch.connOf entry)) * second + idleSeconds * second ≤
      s.lastTimerTime + epoch + ahead * second + second)

/-- What holds while the loop is punctual and user code sets no contexts. -/
structure Clocked (idleSeconds epoch period : Nat) (s : TimedWatch) : Prop where
  sound : s.watch.Sound idleSeconds
  bounded : s.watch.Bounded idleSeconds
  linked : s.watch.Linked
  last : s.lastTimerTime ≤ s.clock
  asked : s.clock ≤ s.asked + period
  recent : s.asked < s.lastTimerTime + second
  active : ∀ conn ticks, s.watch.updated conn = some ticks → s.lastActivity conn ≤ s.clock ∧
    ∃ since, ticks + since = s.watch.ticks ∧
      s.lastTimerTime ≤ s.lastActivity conn + since * (second + period)
  paced : ∀ entry, s.watch.Lives entry → s.Paced idleSeconds epoch entry
  shutdowns : ∀ call ∈ s.shutdowns, InWindow idleSeconds period call
  kept : ∀ conn, s.watch.updated conn ≠ none → s.watch.alive conn = true →
    (∃ entry, s.watch.Lives entry ∧ s.watch.connOf entry = conn) ∨
      ∃ call ∈ s.shutdowns, call.conn = conn ∧
        call.lastActivity = s.lastActivity conn

theorem create_clocked (idleSeconds epoch period : Nat) :
    (create idleSeconds).Clocked idleSeconds epoch period := by
  have hsound := IdleWatch.create_sound idleSeconds
  refine ⟨hsound, IdleWatch.create_bounded idleSeconds, IdleWatch.create_linked idleSeconds, le_rfl,
    Nat.zero_le _, ?_, fun conn ticks hupdated => ?_, fun entry hlives => ?_,
    fun call hmem => ?_, fun conn hupdated => ?_⟩
  · rw [create, Nat.zero_add]
    exact second_pos
  · cases hupdated
  · exact absurd (hsound.made entry hlives) (Nat.not_lt_zero _)
  · cases hmem
  · exact absurd rfl hupdated

/-- A watched connection has been active for less than the timeout and its tolerance. -/
theorem Clocked.lives (hs : s.Clocked idleSeconds epoch period) (hlives : s.watch.Lives entry) :
    s.lastTimerTime + second + period ≤
      s.lastActivity (s.watch.connOf entry) + idleSeconds * (second + period) := by
  obtain ⟨deadline, hdue⟩ := (IdleWatch.lives_iff_due hs.sound.expired).mp hlives
  obtain ⟨ticks, hticks, hbound⟩ := hs.bounded deadline entry hdue
  obtain ⟨-, since, hsince, hlast⟩ := hs.active _ ticks hticks
  have hahead := hdue.bounds.1
  have hturns : (since + 1) * (second + period) ≤ idleSeconds * (second + period) :=
    Nat.mul_le_mul_right _ (by omega)
  rw [Nat.add_mul, Nat.one_mul] at hturns
  omega

/-! ## Calls of `shutdown` -/

theorem mem_shutdownCalls (hs : s.Clocked idleSeconds epoch period) {call : Shutdown} :
    call ∈ s.shutdownCalls ↔ ∃ entry, s.watch.Lives entry ∧ ¬ s.watch.onTimerTick.Lives entry ∧
      s.watch.alive (s.watch.connOf entry) = true ∧ call =
        ⟨s.watch.connOf entry, s.lastActivity (s.watch.connOf entry), s.clock⟩ := by
  have htick : s.watch.step .onTimerTick = .ok s.watch.onTimerTick := rfl
  obtain ⟨calls, hcalls, -, hmem⟩ := IdleWatch.step_shutdowns hs.sound htick
  unfold shutdownCalls
  rw [hcalls, List.drop_left, List.mem_map]
  constructor
  · rintro ⟨entry, hentry, rfl⟩
    obtain ⟨hlives, hgone, halive⟩ := (hmem entry).mp hentry
    exact ⟨entry, hlives, hgone, halive, rfl⟩
  · rintro ⟨entry, hlives, hgone, halive, rfl⟩
    exact ⟨entry, (hmem entry).mpr ⟨hlives, hgone, halive⟩, rfl⟩

/-- What dies at a tick has no deadline but this tick. -/
theorem due_of_dies {watch : IdleWatch} {ahead : Nat}
    (hgone : ¬ watch.onTimerTick.Lives entry) (hdue : watch.Due (watch.ticks + ahead) entry) :
    ahead = 1 := by
  by_contra hother
  refine hgone ((IdleWatch.lives_iff_due rfl).mpr ⟨_, IdleWatch.tick_due.mpr ⟨hdue, ?_⟩⟩)
  omega

/-- A tick calls `shutdown` in the window. -/
theorem Clocked.inWindow (hs : s.Clocked idleSeconds epoch period)
    (htick : s.lastTimerTime + second ≤ s.clock) (hlives : s.watch.Lives entry)
    (hgone : ¬ s.watch.onTimerTick.Lives entry) :
    InWindow idleSeconds period
      ⟨s.watch.connOf entry, s.lastActivity (s.watch.connOf entry), s.clock⟩ := by
  have hlower := hs.paced entry hlives
  have hupper := hs.lives hlives
  obtain ⟨ticks, hticks, -⟩ := hs.bounded _ entry hlower.due.choose_spec.1
  obtain ⟨hactive, -⟩ := hs.active _ ticks hticks
  obtain ⟨ahead, hdue, hahead⟩ := hlower.due
  obtain rfl := due_of_dies hgone hdue
  obtain ⟨-, hwall⟩ := wallClock_bounds epoch (s.lastActivity (s.watch.connOf entry))
  have hasked := hs.asked
  have hrecent := hs.recent
  have hpos := second_pos
  refine ⟨?_, by dsimp only; omega⟩
  dsimp only
  rcases hahead with rfl | hahead <;> omega

/-- What outlives a tick has a paced deadline after it. -/
theorem Clocked.later (hs : s.Clocked idleSeconds epoch period)
    (hlives : s.watch.onTimerTick.Lives entry) :
    ∃ rest, s.watch.onTimerTick.Due (s.watch.ticks + 1 + rest) entry ∧ (rest + 1 = idleSeconds ∨
      wallClock epoch (s.lastActivity (s.watch.connOf entry)) * second + idleSeconds * second ≤
        s.lastTimerTime + epoch + (rest + 1) * second + second) := by
  obtain ⟨-, ahead, hdue, hahead⟩ := hs.paced entry (IdleWatch.tick_lives hs.sound.expired hlives)
  have hpositive := hdue.bounds.1
  by_cases hlast : ahead = 1
  · -- the paced deadline is this tick, and a later one keeps the entry alive
    obtain ⟨deadline, hlater⟩ := (IdleWatch.lives_iff_due rfl).mp hlives
    obtain ⟨hbefore, -⟩ := IdleWatch.tick_due.mp hlater
    have hafter : s.watch.ticks + 1 < deadline := hlater.bounds.1
    have hbound := hbefore.bounds.2
    rw [hs.sound.length] at hbound
    obtain ⟨rest, rfl⟩ := Nat.exists_eq_add_of_lt hafter
    have hmore : 1 * second ≤ (rest + 1 + 1) * second := Nat.mul_le_mul_right _ (by omega)
    refine ⟨rest + 1, hlater, Or.inr ?_⟩
    rcases hahead with rfl | hahead
    · omega
    · rw [hlast] at hahead
      omega
  · obtain ⟨rest, rfl⟩ : ∃ rest, ahead = rest + 1 := ⟨ahead - 1, by omega⟩
    have hshift : s.watch.ticks + (rest + 1) = s.watch.ticks + 1 + rest := by omega
    rw [hshift] at hdue
    exact ⟨rest, IdleWatch.tick_due.mpr ⟨hdue, by omega⟩, hahead⟩

/-- A tick leaves the other entries in their pace. -/
theorem Clocked.paced_tick (hs : s.Clocked idleSeconds epoch period)
    (htick : s.lastTimerTime + second ≤ s.clock) (hlives : s.watch.onTimerTick.Lives entry)
    (hwatch : next.watch = s.watch.onTimerTick) (hlast : next.lastTimerTime = s.clock)
    (hactivity : next.lastActivity = s.lastActivity) : next.Paced idleSeconds epoch entry := by
  obtain ⟨hread, -⟩ := hs.paced entry (IdleWatch.tick_lives hs.sound.expired hlives)
  obtain ⟨rest, hdue, hrest⟩ := hs.later hlives
  obtain ⟨ticks, hticks, -⟩ := hs.bounded _ entry (IdleWatch.tick_due.mp hdue).1
  obtain ⟨hactive, -⟩ := hs.active _ ticks hticks
  obtain ⟨hwall, -⟩ := wallClock_bounds epoch (s.lastActivity (s.watch.connOf entry))
  rw [Nat.add_mul, Nat.one_mul] at hrest
  refine ⟨?_, rest, ?_, Or.inr ?_⟩
  · rw [hwatch, hactivity]
    exact hread
  · rw [hwatch]
    exact hdue
  · have hconn : next.watch.connOf entry = s.watch.connOf entry := by rw [hwatch]; rfl
    rw [hlast, hactivity, hconn]
    rcases hrest with rfl | hrest
    · rw [Nat.add_mul, Nat.one_mul]
      omega
    · omega

/-! ## Steps -/

theorem askTimer_clocked (hs : s.Clocked idleSeconds epoch period) :
    s.askTimer.Clocked idleSeconds epoch period := by
  unfold askTimer
  have hlast := hs.last
  split
  next htick =>
    have htick : s.lastTimerTime + second ≤ s.clock := by omega
    refine ⟨IdleWatch.tick_sound hs.sound, IdleWatch.tick_bounded hs.bounded,
      hs.linked.tick hs.sound, le_rfl, Nat.le_add_right _ _, ?_, ?_, ?_, ?_, ?_⟩
    · exact Nat.lt_add_of_pos_right second_pos
    · intro conn ticks hticks
      obtain ⟨hactive, since, hsince, hpast⟩ := hs.active conn ticks hticks
      have hasked := hs.asked
      have hrecent := hs.recent
      have hcount : s.watch.onTimerTick.ticks = s.watch.ticks + 1 := rfl
      refine ⟨hactive, since + 1, by dsimp only; omega, ?_⟩
      dsimp only
      rw [Nat.add_mul, Nat.one_mul]
      omega
    · exact fun entry hlives => hs.paced_tick htick hlives rfl rfl rfl
    · intro call hmem
      rcases List.mem_append.mp hmem with hold | hnew
      · exact hs.shutdowns call hold
      · obtain ⟨entry, hlives, hgone, -, rfl⟩ := (mem_shutdownCalls hs).mp hnew
        exact hs.inWindow htick hlives hgone
    · intro conn hupdated halive
      rcases hs.kept conn hupdated halive with ⟨entry, hlives, rfl⟩ | ⟨call, hmem, hcalled⟩
      · by_cases hgone : s.watch.onTimerTick.Lives entry
        · exact Or.inl ⟨entry, hgone, rfl⟩
        · refine Or.inr ⟨_, List.mem_append_right _ ((mem_shutdownCalls hs).mpr
            ⟨entry, hlives, hgone, halive, rfl⟩), rfl, rfl⟩
      · exact Or.inr ⟨call, List.mem_append_left _ hmem, hcalled⟩
  next htick =>
    refine ⟨hs.sound, hs.bounded, hs.linked, hs.last, Nat.le_add_right _ _, ?_, hs.active,
      fun entry hlives => ?_, hs.shutdowns, hs.kept⟩
    · dsimp only
      omega
    · obtain ⟨hread, hdue⟩ := hs.paced entry hlives
      exact ⟨hread, hdue⟩

theorem step_call {action : IdleWatch.Action} (hstep : s.step epoch (.call action) = .ok next) :
    s.Reads epoch action ∧ ∃ watch, s.watch.step action = .ok watch ∧
      next = { s with watch, lastActivity := s.activityAfter action } := by
  obtain ⟨hreads, hstep⟩ := Except.guard_eq_ok.mp hstep
  obtain ⟨watch, hwatch, hstep⟩ := Except.bind_eq_ok.mp hstep
  exact ⟨hreads, watch, hwatch, (Except.ok.inj hstep).symm⟩

/-- After a call every entry is in the pace of its connection, whose last activity is this call if
it is the connection of the call. -/
theorem Clocked.paced_update {watch : IdleWatch} (hs : s.Clocked idleSeconds epoch period)
    (hlinked : watch.Linked)
    (hrenews : IdleWatch.Renews idleSeconds conn (wallClock epoch s.clock) s.watch watch)
    (hticks : watch.ticks = s.watch.ticks) (hlives : watch.Lives entry) :
    Paced idleSeconds epoch { s with
      watch, lastActivity := Function.update s.lastActivity conn s.clock } entry := by
  by_cases hconn : watch.connOf entry = conn
  · -- the only entry of the connection
    obtain ⟨renewed, hrenewed, hof, hread, hdue⟩ := hrenews.entry
    obtain rfl : entry = renewed :=
      hlinked.unique (by rw [← hof]; exact hlinked.named renewed hrenewed) hlives hconn
    constructor
    · dsimp only
      rw [hread, hconn, Function.update_self]
    · dsimp only
      rw [hconn, Function.update_self, hticks]
      rcases hdue with ⟨hold, hbefore, hfresh, hdue⟩ | hdue
      · obtain ⟨hsecond, ahead, hdeadline, hahead⟩ := hs.paced entry hold
        rw [hbefore] at hsecond hahead
        -- the filter has seen the same second
        have hwall := Nat.cast_injective (hsecond.symm.trans hfresh)
        rw [hwall] at hahead
        exact ⟨ahead, hdue _ hdeadline, hahead⟩
      · exact ⟨idleSeconds, hdue, Or.inl rfl⟩
  · obtain ⟨hold, hsame, hdue⟩ := hrenews.others entry hlives hconn
    have hof : watch.connOf entry = s.watch.connOf entry := by
      rw [IdleWatch.connOf, hsame, IdleWatch.connOf]
    obtain ⟨hread, ahead, hdeadline, hahead⟩ := hs.paced entry hold
    rw [hof] at hconn
    constructor
    · dsimp only
      rw [hsame, hof, Function.update_of_ne hconn, hread]
    · dsimp only
      rw [hof, Function.update_of_ne hconn, hticks]
      exact ⟨ahead, hdue _ hdeadline, hahead⟩

theorem updateConnection_clocked {now : Int} (hs : s.Clocked idleSeconds epoch period)
    (hstep : s.step epoch (.call (.updateConnection conn now)) = .ok next) :
    next.Clocked idleSeconds epoch period := by
  obtain ⟨hnow, watch, hupdate, rfl⟩ := step_call hstep
  obtain rfl : now = wallClock epoch s.clock := hnow
  rw [activityAfter]
  obtain ⟨hframe, -⟩ := IdleWatch.update_cases hs.sound hupdate
  obtain ⟨hlinked, hrenews⟩ := IdleWatch.update_renews hs.sound hs.linked hupdate
  obtain ⟨hsound, hbounded⟩ := IdleWatch.step_bounded _ _ _ ⟨hs.sound, hs.bounded⟩
    (hs.linked.usesOwnEntry _) hupdate
  refine ⟨hsound, hbounded, hlinked, hs.last, hs.asked, hs.recent, ?_,
    fun entry hlives => hs.paced_update hlinked hrenews hframe.ticks hlives, hs.shutdowns, ?_⟩
  · intro other ticks hticks
    dsimp only at hticks ⊢
    rw [hframe.updated] at hticks
    rw [hframe.ticks]
    by_cases hother : other = conn
    · rw [hother, Function.update_self, Option.some.injEq] at hticks
      rw [hother, Function.update_self]
      exact ⟨le_rfl, 0, hticks.symm, hs.last.trans (Nat.le_add_right _ _)⟩
    · rw [Function.update_of_ne hother] at hticks ⊢
      exact hs.active other ticks hticks
  · intro other hupdated halive
    dsimp only at hupdated halive ⊢
    rw [hframe.alive] at halive
    by_cases hother : other = conn
    · obtain ⟨renewed, hrenewed, hof, -⟩ := hrenews.entry
      exact Or.inl ⟨renewed, hrenewed, hof.trans hother.symm⟩
    · rw [hframe.updated, Function.update_of_ne hother] at hupdated
      rw [Function.update_of_ne hother]
      refine (hs.kept other hupdated halive).imp_left ?_
      rintro ⟨entry, hlives, rfl⟩
      obtain ⟨hkept, hof⟩ := hrenews.kept entry hlives hother
      exact ⟨entry, hkept, hof⟩

theorem destroyConnection_clocked (hs : s.Clocked idleSeconds epoch period)
    (hstep : s.step epoch (.call (.destroyConnection conn)) = .ok next) :
    next.Clocked idleSeconds epoch period := by
  obtain ⟨-, watch, hdestroy, rfl⟩ := step_call hstep
  have hsound := IdleWatch.step_sound _ _ _ hs.sound hdestroy
  obtain ⟨-, hdestroy⟩ := Except.guard_eq_ok.mp hdestroy
  obtain rfl := Except.ok.inj hdestroy
  refine ⟨hsound, hs.bounded, ⟨hs.linked.points, hs.linked.named⟩, hs.last, hs.asked, hs.recent,
    hs.active, fun entry hlives => ?_, hs.shutdowns, fun other hupdated halive => ?_⟩
  · obtain ⟨hread, hdue⟩ := hs.paced entry hlives
    exact ⟨hread, hdue⟩
  · by_cases hother : other = conn
    · simp [hother] at halive
    · dsimp only at halive
      rw [Function.update_of_ne hother] at halive
      exact hs.kept other hupdated halive

theorem step_clocked (s : TimedWatch) (action : Action) (next : TimedWatch)
    (hs : s.Clocked idleSeconds epoch period)
    (hcondition : s.Punctual period action ∧ action.setsContext = false)
    (hstep : s.step epoch action = .ok next) : next.Clocked idleSeconds epoch period := by
  cases action with
  | elapse time =>
      obtain rfl := Except.ok.inj hstep
      refine ⟨hs.sound, hs.bounded, hs.linked, hs.last.trans (Nat.le_add_right _ _), hcondition.1,
        hs.recent, fun conn ticks hticks => ?_, fun entry hlives => ?_, hs.shutdowns, hs.kept⟩
      · obtain ⟨hactive, hsince⟩ := hs.active conn ticks hticks
        exact ⟨hactive.trans (Nat.le_add_right _ _), hsince⟩
      · obtain ⟨hread, hdue⟩ := hs.paced entry hlives
        exact ⟨hread, hdue⟩
  | askTimer =>
      obtain rfl := Except.ok.inj hstep
      exact askTimer_clocked hs
  | call action =>
      cases action with
      | onTimerTick => exact (step_call hstep).1.elim
      | updateConnection conn now => exact updateConnection_clocked hs hstep
      | setContext conn context => cases hcondition.2
      | destroyConnection conn => exact destroyConnection_clocked hs hstep

/-! ## The timeout -/

/-- **The idle timeout.** If the loop asks for the time at least once a period, `shutdown` is not
called on a connection earlier than two seconds before it has been idle for the timeout, and not
after it has been idle for as many seconds and periods: at that time it has had a later activity,
or `shutdown` has been called for its last one. -/
theorem idle_window {schedule : List Action}
    (hrun : run (step epoch) (create idleSeconds) schedule = .ok s)
    (huser : ∀ action ∈ schedule, action.setsContext = false)
    (hpunctual : EveryStep (step epoch) (Punctual period) (create idleSeconds) schedule) :
    (∀ call ∈ s.shutdowns, InWindow idleSeconds period call) ∧
      ∀ conn, s.watch.updated conn ≠ none → s.watch.alive conn = true →
        s.clock < s.lastActivity conn + idleSeconds * (second + period) ∨
          ∃ call ∈ s.shutdowns, call.conn = conn ∧
            call.lastActivity = s.lastActivity conn := by
  have hs := run_invariant_of_everyStep step_clocked (create_clocked idleSeconds epoch period)
    (hpunctual.and_forall huser) hrun
  refine ⟨hs.shutdowns, fun conn hupdated halive => ?_⟩
  refine (hs.kept conn hupdated halive).imp_left ?_
  rintro ⟨entry, hlives, rfl⟩
  have hbound := hs.lives hlives
  have hasked := hs.asked
  have hrecent := hs.recent
  omega

/-- A connection with a timeout of two seconds. Its second message is filtered by the clock,
although the wheel has moved since the first one. -/
def filtered : List Action :=
  [.elapse 1500000000, .askTimer, .elapse 600000000, .call (.updateConnection 0 2),
    .elapse 400000000, .askTimer, .elapse 300000000, .call (.updateConnection 0 2),
    .elapse 700000000, .askTimer]

theorem idle_window_filtered : ∃ s, run (step 0) (create 2) filtered = .ok s ∧
    s.shutdowns = [⟨0, 2800000000, 3500000000⟩] ∧
    InWindow 2 1500000000 ⟨0, 2800000000, 3500000000⟩ := by
  have hpunctual : EveryStep (step 0) (Punctual 1500000000) (create 2) filtered := by
    decide +kernel
  have hends : ends (fun s => decide (s.shutdowns = [⟨0, 2800000000, 3500000000⟩]))
      (run (step 0) (create 2) filtered) = true := by
    decide +kernel
  obtain ⟨s, hrun, hcheck⟩ := exists_of_ends hends
  have hcalls : s.shutdowns = [⟨0, 2800000000, 3500000000⟩] := of_decide_eq_true hcheck
  obtain ⟨hwindow, -⟩ := idle_window hrun (by decide) hpunctual
  exact ⟨s, hrun, hcalls, hwindow _ (by rw [hcalls]; exact List.mem_singleton_self _)⟩

end TimedWatch

end Muduo
