import Muduo.Library.Wheel
import Muduo.TimerWheel.Basic

/-! # The connections a wheel watches

Runs of `onTimerTick` and `updateConnection`, each one step, over any number of
connections. In between, user code sets contexts and connections die. The wheel
is a timing wheel whose items are entries; a tick destroys the entries that no
bucket holds any more, and the destructor of an entry calls `shutdown` when its
connection still exists.
-/

namespace Muduo

namespace TimerWheel

/-- The bucket that has left the wheel is destroyed, and with it the entries that no
other bucket holds. -/
def destroyExpired (w : TimerWheel) : TimerWheel × List EntryId :=
  ({ w with expired := [] }, w.expired.filter fun entry => !w.wheel.any (decide <| entry ∈ ·))

end TimerWheel

/-- A weak pointer points to an entry that has been made. -/
def Context.Known (made : Nat) : Context → Prop
  | .weakEntry entry => entry < made
  | _ => True

instance (made : Nat) (context : Context) : Decidable (context.Known made) := by
  cases context <;> unfold Context.Known <;> infer_instance

structure IdleWatch where
  timerWheel : TimerWheel
  context : ConnId → Context
  /-- something holds a `shared_ptr` of the connection -/
  alive : ConnId → Bool
  /-- the number of calls of `onTimerTick` -/
  ticks : Nat
  /-- the ticks before the last `updateConnection` of a connection -/
  updated : ConnId → Option Nat
  /-- the value of the last `setContext` of the user -/
  assigned : ConnId → Option Context
  destroyed : List EntryId
  /-- the entries whose destructor has called `shutdown` -/
  shutdowns : List EntryId

namespace IdleWatch

def create (idleSeconds : Nat) : IdleWatch where
  timerWheel := TimerWheel.create idleSeconds
  context := fun _ => .empty
  alive := fun _ => true
  ticks := 0
  updated := fun _ => none
  assigned := fun _ => none
  destroyed := []
  shutdowns := []

/-- The connection an entry was made for. -/
def connOf (s : IdleWatch) (entry : EntryId) : ConnId := (s.timerWheel.entries entry).conn

inductive Action where
  | onTimerTick
  | updateConnection (conn : ConnId) (now : Int)
  /-- user code calls `setContext` -/
  | setContext (conn : ConnId) (context : Context)
  /-- the last `shared_ptr` of the connection goes -/
  | destroyConnection (conn : ConnId)
  deriving DecidableEq, Repr

def onTimerTick (s : IdleWatch) : IdleWatch :=
  let (timerWheel, dead) := s.timerWheel.onTimerTick.destroyExpired
  { s with
    timerWheel
    ticks := s.ticks + 1
    destroyed := s.destroyed ++ dead
    shutdowns := s.shutdowns ++ dead.filter fun entry => s.alive (s.connOf entry) }

def step (s : IdleWatch) : Action → Except Stop IdleWatch
  | .onTimerTick => .ok s.onTimerTick
  | .updateConnection conn now =>
      if s.alive conn then do
        let (timerWheel, context) ← s.timerWheel.updateConnection conn now (s.context conn)
        return { s with
          timerWheel
          context := Function.update s.context conn context
          updated := Function.update s.updated conn (some s.ticks) }
      else .error .disabled
  | .setContext conn context =>
      if s.alive conn ∧ context.Known s.timerWheel.made then
        .ok { s with
          context := Function.update s.context conn context
          assigned := Function.update s.assigned conn (some context) }
      else .error .disabled
  | .destroyConnection conn =>
      if s.alive conn then .ok { s with alive := Function.update s.alive conn false }
      else .error .disabled

/-- The entry exists. -/
def Lives (s : IdleWatch) (entry : EntryId) : Prop := s.timerWheel.owns entry = true

instance (s : IdleWatch) (entry : EntryId) : Decidable (s.Lives entry) :=
  inferInstanceAs (Decidable (_ = true))

end IdleWatch

end Muduo
