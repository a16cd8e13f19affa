import Muduo.TcpConnection.Basic

/-! # The life of one connection

What the base loop and the loop of a connection do to it, with everything else
forgotten: the state and the registration, whether the server maps its name and
whether its loop has an event of it, and for each of the three functors that make
up its life how often it waits and how often it has run. Establishing, removing
and destroying are passed on through queues, and closing may happen any number
of times; the law says what every order of these moves has in common.
-/

namespace Muduo

structure Stage where
  state : StateE
  index : Index
  /-- `connections_` maps the name to the connection -/
  mapped : Bool
  /-- the loop has an event of the connection left to handle -/
  watched : Bool
  toEstablish : Nat
  toRemove : Nat
  toDestroy : Nat
  established : Nat
  removed : Nat
  destroyed : Nat

namespace Stage

/-- A newly accepted connection whose `connectEstablished` waits. -/
def accepted : Stage where
  state := .kConnecting
  index := .kNew
  mapped := true
  watched := false
  toEstablish := 1
  toRemove := 0
  toDestroy := 0
  established := 0
  removed := 0
  destroyed := 0

inductive Move (g : Stage) : Stage → Prop where
  | establish (hstate : g.state = .kConnecting) (hwaits : 0 < g.toEstablish) :
      Move g { g with
        state := .kConnected
        index := .kAdded
        toEstablish := g.toEstablish - 1
        established := g.established + 1 }
  /-- sending and half-closing -/
  | work (state : StateE) (index : Index) (hopen : g.state ≠ .kConnecting)
      (hstays : state ≠ .kConnecting)
      (hclosed : g.state = .kDisconnected → state = .kDisconnected ∧ index = g.index) :
      Move g { g with state, index }
  /-- a handler closes the connection -/
  | close (index : Index) (hwatched : g.watched = true) :
      Move g { g with state := .kDisconnected, index }
  /-- the removal is queued at the base loop -/
  | requestRemoval (hclosed : g.state = .kDisconnected) :
      Move g { g with toRemove := g.toRemove + 1 }
  /-- the loop of the connection is the base loop -/
  | removeDirectly (hclosed : g.state = .kDisconnected) :
      Move g { g with mapped := false, removed := g.removed + 1, toDestroy := g.toDestroy + 1 }
  | remove (hwaits : 0 < g.toRemove) :
      Move g { g with
        mapped := false
        toRemove := g.toRemove - 1
        removed := g.removed + 1
        toDestroy := g.toDestroy + 1 }
  | destroy (state : StateE) (hwaits : 0 < g.toDestroy) (hunwatched : g.watched = false)
      (hclosed : g.state = .kDisconnected → state = .kDisconnected) :
      Move g { g with
        state
        index := .kNew
        toDestroy := g.toDestroy - 1
        destroyed := g.destroyed + 1 }
  | watch (hregistered : g.index ≠ .kNew) : Move g { g with watched := true }
  | unwatch : Move g { g with watched := false }

/-- What every order of moves preserves. -/
structure Law (g : Stage) : Prop where
  once : g.established + g.toEstablish = 1
  connecting : g.state = .kConnecting ↔ g.established = 0
  fresh : g.established = 0 → g.index = .kNew ∧ g.watched = false
  closed : 0 < g.toRemove + g.removed → g.state = .kDisconnected
  mapped : g.mapped = true ↔ g.removed = 0
  removals : g.removed = g.destroyed + g.toDestroy
  gone : 0 < g.destroyed → g.index = .kNew ∧ g.watched = false

variable {g next : Stage}

theorem accepted_law : accepted.Law where
  once := rfl
  connecting := ⟨fun _ => rfl, fun _ => rfl⟩
  fresh := fun _ => ⟨rfl, rfl⟩
  closed := nofun
  mapped := ⟨fun _ => rfl, fun _ => rfl⟩
  removals := rfl
  gone := nofun

/-- A connection that has been removed is closed. -/
theorem Law.closed_of_destroyed (hg : g.Law) (hdestroyed : 0 < g.destroyed) :
    g.state = .kDisconnected := by
  have hremovals := hg.removals
  exact hg.closed (by omega)

theorem Law.established_of_closed (hg : g.Law) (hclosed : g.state = .kDisconnected) :
    g.established ≠ 0 := by
  intro hnone
  have hconnecting := hg.connecting.mpr hnone
  rw [hclosed] at hconnecting
  cases hconnecting

/-- Handlers only run between the establishment and the destruction. -/
theorem Law.established_of_watched (hg : g.Law) (hwatched : g.watched = true) :
    g.established = 1 ∧ g.destroyed = 0 := by
  have honce := hg.once
  constructor
  · by_contra hnone
    have hfresh := (hg.fresh (by omega)).2
    rw [hwatched] at hfresh
    cases hfresh
  · by_contra hdestroyed
    have hgone := (hg.gone (Nat.pos_of_ne_zero hdestroyed)).2
    rw [hwatched] at hgone
    cases hgone

theorem Law.of_registered (hg : g.Law) (hregistered : g.index ≠ .kNew) :
    g.established = 1 ∧ g.destroyed = 0 := by
  have honce := hg.once
  constructor
  · by_contra hnone
    exact hregistered (hg.fresh (by omega)).1
  · by_contra hdestroyed
    exact hregistered (hg.gone (Nat.pos_of_ne_zero hdestroyed)).1

/-- A connection that has not been destroyed is held by the map or by the functor
that will destroy it. -/
theorem Law.held (hg : g.Law) (hdestroyed : g.destroyed = 0) :
    g.mapped = true ∨ 0 < g.toDestroy := by
  by_cases hremoved : g.removed = 0
  · exact Or.inl (hg.mapped.mpr hremoved)
  · have hremovals := hg.removals
    exact Or.inr (by omega)

theorem Law.move (hg : g.Law) (hmove : g.Move next) : next.Law := by
  have honce := hg.once
  have hremovals := hg.removals
  have hclosed := hg.closed
  cases hmove with
  | establish hstate hwaits =>
      have hnone : g.established = 0 := hg.connecting.mp hstate
      -- what is still connecting has not been removed
      have hkept : g.toRemove + g.removed = 0 := by
        by_contra hremoved
        have hdisconnected := hclosed (Nat.pos_of_ne_zero hremoved)
        rw [hstate] at hdisconnected
        cases hdisconnected
      refine ⟨by dsimp only; omega, by simp, nofun, ?_, hg.mapped, hremovals, ?_⟩
      · dsimp only
        omega
      · dsimp only
        omega
  | work state index hopen hstays hsame =>
      refine ⟨honce, ?_, ?_, fun hremoved => (hsame (hclosed hremoved)).1, hg.mapped, hremovals,
        ?_⟩
      · exact ⟨fun hstate => absurd hstate hstays,
          fun hnone => absurd (hg.connecting.mpr hnone) hopen⟩
      · exact fun hnone => absurd (hg.connecting.mpr hnone) hopen
      · intro hdestroyed
        rw [(hsame (hg.closed_of_destroyed hdestroyed)).2]
        exact hg.gone hdestroyed
  | close index hwatched =>
      obtain ⟨hestablished, hnone⟩ := hg.established_of_watched hwatched
      refine ⟨honce, ?_, ?_, fun _ => rfl, hg.mapped, hremovals, ?_⟩
      · simp [hestablished]
      · simp [hestablished]
      · simp [hnone]
  | requestRemoval hstate =>
      exact ⟨honce, hg.connecting, hg.fresh, fun _ => hstate, hg.mapped, hremovals, hg.gone⟩
  | removeDirectly hstate =>
      refine ⟨honce, hg.connecting, hg.fresh, fun _ => hstate, by simp, ?_, hg.gone⟩
      dsimp only
      omega
  | remove hwaits =>
      refine ⟨honce, hg.connecting, hg.fresh, fun _ => hclosed (by omega), by simp, ?_, hg.gone⟩
      dsimp only
      omega
  | destroy state hwaits hunwatched hsame =>
      -- a destruction waits only for a removed connection, and that is closed
      have hstate : g.state = .kDisconnected := hclosed (by omega)
      have hestablished := hg.established_of_closed hstate
      refine ⟨honce, ?_, ?_, fun _ => hsame hstate, hg.mapped, ?_, fun _ => ⟨rfl, hunwatched⟩⟩
      · simp [hsame hstate, hestablished]
      · simp [hestablished]
      · dsimp only
        omega
  | watch hregistered =>
      obtain ⟨hestablished, hnone⟩ := hg.of_registered hregistered
      refine ⟨honce, hg.connecting, ?_, hclosed, hg.mapped, hremovals, ?_⟩
      · simp [hestablished]
      · simp [hnone]
  | unwatch =>
      exact ⟨honce, hg.connecting, fun hnone => ⟨(hg.fresh hnone).1, rfl⟩, hclosed, hg.mapped,
        hremovals, fun hdestroyed => ⟨(hg.gone hdestroyed).1, rfl⟩⟩

/-- The law holds along every sequence of moves. -/
theorem Law.moves (hg : g.Law) (hmoves : Relation.ReflTransGen Move g next) : next.Law := by
  induction hmoves with
  | refl => exact hg
  | tail _ hmove ih => exact ih.move hmove

end Stage

end Muduo
