import Muduo.TcpConnection.Basic

/-! # The timing wheel

`TimerWheel.h` and `TimerWheel.cc`. The wheel owns entries in buckets, one bucket
for each second; a connection keeps a weak pointer to its entry in its context.
An entry is destroyed when the last bucket that holds it is. Buckets are
destroyed entry by entry, in an order the language does not fix.
-/

namespace Muduo

abbrev EntryId := Nat

structure Entry where
  /-- a weak pointer -/
  conn : ConnId
  lastTickTime : Int
  deriving DecidableEq, Repr

/-- An `unordered_set` of entries. -/
abbrev Bucket := List EntryId

structure TimerWheel where
  idleSeconds : Nat
  /-- the deque of buckets, the front first -/
  wheel : List Bucket
  /-- what is left of the bucket under destruction -/
  expired : Bucket
  entries : EntryId → Entry
  /-- the number of entries made so far -/
  made : Nat

namespace TimerWheel

def create (idleSeconds : Nat) : TimerWheel where
  idleSeconds := idleSeconds
  wheel := List.replicate idleSeconds []
  expired := []
  entries := fun _ => ⟨0, 0⟩
  made := 0

/-- Some bucket holds the entry. -/
def owns (entry : EntryId) (w : TimerWheel) : Bool :=
  decide (entry ∈ w.expired) || w.wheel.any (decide <| entry ∈ ·)

/-- Advance the wheel. The bucket that leaves it is destroyed next. -/
def onTimerTick (w : TimerWheel) : TimerWheel :=
  let wheel := w.wheel ++ [[]]
  { w with wheel := wheel.tail, expired := wheel.headD [] }

/-- `wheel_.back().insert(entry)`. -/
def insertBack (entry : EntryId) (w : TimerWheel) : Except Stop TimerWheel :=
  match w.wheel.getLast? with
  | some bucket => .ok { w with wheel := w.wheel.dropLast ++ [bucket.insert entry] }
  | none => .error .undefined

/-- The entry of a connection, if its context has one that still exists. -/
def lock (context : Context) (w : TimerWheel) : Option EntryId :=
  match context with
  | .weakEntry entry => if w.owns entry then some entry else none
  | _ => none

/-- `updateConnection` on a connection with this context, with the new context. -/
def updateConnection (conn : ConnId) (now : Int) (context : Context) (w : TimerWheel) :
    Except Stop (TimerWheel × Context) :=
  match w.lock context with
  | some entry =>
      -- within one second the entry is already in the last bucket
      if (w.entries entry).lastTickTime = now then .ok (w, context)
      else do
        let reused : Entry := { w.entries entry with lastTickTime := now }
        let w := { w with entries := Function.update w.entries entry reused }
        return (← w.insertBack entry, context)
  | none => do
      let entry := w.made
      let w := { w with
        entries := Function.update w.entries entry ⟨conn, now⟩
        made := entry + 1 }
      return (← w.insertBack entry, .weakEntry entry)

/-- Take one entry out of the bucket under destruction. -/
def release (entry : EntryId) (w : TimerWheel) : TimerWheel :=
  { w with expired := w.expired.erase entry }

/-- `~TimerWheel` goes on to the next bucket. -/
def dropBucket (w : TimerWheel) : TimerWheel :=
  { w with wheel := w.wheel.tail, expired := w.wheel.headD [] }

/-! ## What the operations do -/

variable {w next : TimerWheel} {conn : ConnId} {now : Int} {context after : Context}

theorem owns_iff {entry : EntryId} :
    w.owns entry = true ↔ entry ∈ w.expired ∨ ∃ bucket ∈ w.wheel, entry ∈ bucket := by
  simp [owns]

theorem lock_eq_some {entry : EntryId} :
    w.lock context = some entry ↔ context = .weakEntry entry ∧ w.owns entry = true := by
  unfold lock
  cases context with
  | weakEntry other =>
      simp only [Option.ite_none_right_eq_some, Option.some.injEq, Context.weakEntry.injEq]
      constructor
      · rintro ⟨howns, rfl⟩
        exact ⟨rfl, howns⟩
      · rintro ⟨rfl, howns⟩
        exact ⟨howns, rfl⟩
  | empty | user => simp

theorem insertBack_ok {entry : EntryId} (hinsert : w.insertBack entry = .ok next) :
    ∃ bucket, w.wheel.getLast? = some bucket ∧
      next = { w with wheel := w.wheel.dropLast ++ [bucket.insert entry] } := by
  unfold insertBack at hinsert
  split at hinsert
  next bucket hbucket => exact ⟨bucket, hbucket, (Except.ok.inj hinsert).symm⟩
  next => cases hinsert

/-- `updateConnection` filters a refresh, inserts the entry it finds in the context,
or makes a new one. -/
theorem updateConnection_cases
    (hupdate : w.updateConnection conn now context = .ok (next, after)) :
    (∃ entry, w.lock context = some entry ∧ (w.entries entry).lastTickTime = now ∧
      next = w ∧ after = context) ∨
    (∃ entry bucket, w.lock context = some entry ∧ (w.entries entry).lastTickTime ≠ now ∧
      w.wheel.getLast? = some bucket ∧ next = { w with
        entries := Function.update w.entries entry { w.entries entry with lastTickTime := now }
        wheel := w.wheel.dropLast ++ [bucket.insert entry] } ∧ after = context) ∨
    (∃ bucket, w.lock context = none ∧ w.wheel.getLast? = some bucket ∧
      next = { w with
        entries := Function.update w.entries w.made ⟨conn, now⟩
        made := w.made + 1
        wheel := w.wheel.dropLast ++ [bucket.insert w.made] } ∧ after = .weakEntry w.made) := by
  unfold updateConnection at hupdate
  split at hupdate
  next entry hlock =>
    split at hupdate
    next hsame =>
      simp only [Except.ok.injEq, Prod.mk.injEq] at hupdate
      exact Or.inl ⟨entry, hlock, hsame, hupdate.1.symm, hupdate.2.symm⟩
    next hother =>
      obtain ⟨inserted, hinsert, hupdate⟩ := Except.bind_eq_ok.mp hupdate
      simp only [pure, Except.pure, Except.ok.injEq, Prod.mk.injEq] at hupdate
      obtain ⟨bucket, hlast, rfl⟩ := insertBack_ok hinsert
      exact Or.inr (Or.inl ⟨entry, bucket, hlock, hother, hlast, hupdate.1.symm,
        hupdate.2.symm⟩)
  next hlock =>
    obtain ⟨inserted, hinsert, hupdate⟩ := Except.bind_eq_ok.mp hupdate
    simp only [pure, Except.pure, Except.ok.injEq, Prod.mk.injEq] at hupdate
    obtain ⟨bucket, hlast, rfl⟩ := insertBack_ok hinsert
    exact Or.inr (Or.inr ⟨bucket, hlock, hlast, hupdate.1.symm, hupdate.2.symm⟩)

end TimerWheel

end Muduo
