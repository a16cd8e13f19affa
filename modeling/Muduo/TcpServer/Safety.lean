import Muduo.TcpConnection.Safety
import Muduo.TcpServer.Contract

/-! # No undefined behavior in a running server

While the server runs, whatever the loops reach through a registered pointer, a list of active
channels or a queued functor is a connection that is alive, and the wheel has a last bucket
whenever a connection is put into it.
-/

open Transition

namespace Muduo

namespace TimerWheel

variable {w next : TimerWheel} {conn : ConnId} {now : Int} {context after : Context}

end TimerWheel

open TcpConnection

namespace System

variable {s middle next : System} {conn : ConnId} {loop : LoopId} {now : Int}

/-! ## The wheel -/

/-- The number of buckets stays. -/
structure SameWheel (s next : System) : Prop where
  length : next.server.timerWheel.wheel.length = s.server.timerWheel.wheel.length
  idleTimeout : next.server.idleTimeout = s.server.idleTimeout

theorem SameWheel.trans (hfirst : SameWheel s middle) (hsecond : SameWheel middle next) :
    SameWheel s next :=
  ⟨hsecond.length.trans hfirst.length, hsecond.idleTimeout.trans hfirst.idleTimeout⟩

/-- A functor finds its connection alive, and connecting if it is to establish it. -/
theorem Invariant.functor_ready (hs : s.Invariant) {functor : Functor} {rest : List Functor}
    (hfunctors : (s.loops loop).functors = functor :: rest) :
    s.Alive functor.target ∧ (∀ buf ∈ functor.messages, buf.length ≤ maxSize) ∧
      (functor = .connectEstablished functor.target →
        (s.conns functor.target).state = .kConnecting ∧
          (s.conns functor.target).backlog = []) := by
  obtain ⟨-, hfits, hmem⟩ := hs.waits hfunctors
  have hwaiting : functor ∈ (s.loops loop).functors ++ (s.loops loop).pendingFunctors := by
    rw [hfunctors]
    exact .head _
  have halive := hs.guarded.alive_of_mem hwaiting
  refine ⟨halive, hfits, fun hestablish => ?_⟩
  obtain ⟨conn, rfl⟩ : ∃ conn, functor = .connectEstablished conn := ⟨_, hestablish⟩
  -- what waits to be established has not been established
  have hwaits : 0 < (s.stage conn).toEstablish := List.count_pos_iff.mpr hmem
  have hlaw := hs.laws conn halive.1
  have honce := hlaw.once
  have hconnecting : (s.conns conn).state = .kConnecting := hlaw.connecting.mpr (by omega)
  exact ⟨hconnecting, (hs.records.rounds.connecting conn halive.1 hconnecting).1⟩

end System

end Muduo
