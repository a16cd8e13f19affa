import Muduo.TcpConnection.Effect
import Muduo.TcpConnection.Quiet

/-! # What a member function queues

Whatever the state of the connection and of the poller, a member function moves
the connection neither to another loop nor to another name, and queues nothing
but notifications, which hold a `shared_ptr`. Only `shutdown` queues a functor
with a raw `this`.
-/

namespace Muduo

theorem Functor.Notifies.target {ptr : ConnId} {functor : Functor}
    (hnotifies : functor.Notifies ptr) : functor.target = ptr := by
  cases functor with
  | writeCompleteCallback | highWaterMarkCallback => exact hnotifies
  | connectEstablished | connectDestroyed | sendInLoop | shutdownInLoop
  | removeConnectionInLoop => exact hnotifies.elim

/-- The loop and the name stay, and the added functors are notifications. -/
structure Frame.Keeps (ptr : ConnId) (f next : Frame) : Prop where
  loop : next.conn.loop = f.conn.loop
  name : next.conn.name = f.conn.name
  queued : ∃ queued, next.queued = f.queued ++ queued ∧
    ∀ functor ∈ queued, functor.Notifies ptr

namespace Frame

variable {ptr : ConnId} {f middle next : Frame}

theorem Keeps.of_same (hloop : next.conn.loop = f.conn.loop)
    (hname : next.conn.name = f.conn.name) (hqueued : next.queued = f.queued) :
    Keeps ptr f next :=
  ⟨hloop, hname, [], by rw [hqueued, List.append_nil], nofun⟩

theorem Keeps.refl (ptr : ConnId) (f : Frame) : Keeps ptr f f := .of_same rfl rfl rfl

theorem Keeps.trans (hfirst : Keeps ptr f middle) (hsecond : Keeps ptr middle next) :
    Keeps ptr f next := by
  obtain ⟨early, hearly, hfirstNotifies⟩ := hfirst.queued
  obtain ⟨late, hlate, hsecondNotifies⟩ := hsecond.queued
  refine ⟨hsecond.loop.trans hfirst.loop, hsecond.name.trans hfirst.name, early ++ late, ?_, ?_⟩
  · rw [hlate, hearly, List.append_assoc]
  · intro functor hmem
    exact (List.mem_append.mp hmem).elim (hfirstNotifies functor) (hsecondNotifies functor)

theorem Keeps.queueInLoop {functor : Functor} (hnotifies : functor.Notifies ptr) (f : Frame) :
    Keeps ptr f (f.queueInLoop functor) :=
  ⟨rfl, rfl, [functor], rfl, by simpa using hnotifies⟩

theorem Quiet.keeps (hquiet : f.Quiet ptr next) : Keeps ptr f next := by
  induction hquiet with
  | refl => exact .refl ptr f
  | tail _ hmove ih =>
      apply ih.trans
      cases hmove with
      | queueInLoop functor hnotifies => exact .queueInLoop hnotifies _
      | emit | channel | inputBuffer | outputBuffer => exact .of_same rfl rfl rfl

theorem setState_keeps (state : StateE) (f : Frame) : f.Keeps ptr (f.setState state) :=
  .of_same rfl rfl rfl

theorem GoesDown.keeps (hdown : f.GoesDown ptr next) : Keeps ptr f next :=
  (setState_keeps _ f).trans hdown.quiet.keeps

end Frame

open Muduo.Frame

namespace TcpConnection

variable {self : ConnId} {f next : Frame}

/-- Called on the loop thread, `send` and `shutdown` queue only notifications. -/
theorem send_keeps {buf : List UInt8} {result : WriteResult}
    (hsend : send self true buf result f = .ok next) : f.Keeps self next :=
  (send_quiet hsend).keeps

theorem shutdownInLoop_keeps (f : Frame) : f.Keeps self (shutdownInLoop f) :=
  (shutdownInLoop_quiet f).keeps

theorem shutdown_keeps (f : Frame) : f.Keeps self (shutdown self true f) := by
  unfold shutdown
  split
  · exact (setState_keeps _ f).trans (shutdownInLoop_keeps _)
  · exact .refl _ f

/-- Called on another thread, `shutdown` queues `shutdownInLoop` when the
connection is connected. -/
theorem shutdown_queues (self : ConnId) (f : Frame) :
    f.conn.state ≠ .kConnected ∧ shutdown self false f = f ∨
      f.conn.state = .kConnected ∧ shutdown self false f =
        (f.setState .kDisconnecting).queueInLoop (.shutdownInLoop self) := by
  unfold shutdown
  split
  next hconnected => exact Or.inr ⟨hconnected, rfl⟩
  next hother => exact Or.inl ⟨hother, rfl⟩

theorem connectEstablished_keeps (hestablish : connectEstablished self f = .ok next) :
    f.Keeps self next :=
  (setState_keeps _ f).trans (connectEstablished_quiet hestablish).keeps

theorem connectDestroyed_keeps (hdestroy : connectDestroyed self f = .ok next) :
    f.Keeps self next := by
  rcases connectDestroyed_quiet hdestroy with ⟨-, hdown⟩ | ⟨-, hquiet⟩
  · exact hdown.keeps
  · exact hquiet.keeps

theorem onCallback_keeps {callback : Callback} {calls : Syscalls}
    (hcallback : onCallback self callback calls f = .ok next) : f.Keeps self next :=
  (onCallback_quiet hcallback).elim Quiet.keeps GoesDown.keeps

theorem onFunctor_keeps {functor : Functor} {result : WriteResult}
    (hfunctor : onFunctor functor result f = .ok next) : f.Keeps functor.target next := by
  cases functor with
  | connectEstablished conn => exact connectEstablished_keeps hfunctor
  | connectDestroyed conn => exact connectDestroyed_keeps hfunctor
  | sendInLoop conn buf => exact (sendInLoop_quiet hfunctor).keeps
  | shutdownInLoop conn =>
      rw [onFunctor, Except.ok.injEq] at hfunctor
      exact hfunctor ▸ shutdownInLoop_keeps f
  | removeConnectionInLoop conn | writeCompleteCallback conn | highWaterMarkCallback conn len =>
      rw [onFunctor, Except.ok.injEq] at hfunctor
      subst hfunctor
      exact .of_same rfl rfl rfl

end TcpConnection

end Muduo
