import Muduo.TcpServer.Basic

/-! # What the pieces of a step do

One lemma for each operation of the loops and of the server lists the ways in which it can
return.
-/

open Transition

namespace Muduo

namespace System

variable {s next : System} {conn : ConnId} {loop : LoopId} {now : Int}

/-- With an idle timeout, the wheel is told of the connection. -/
theorem refresh_cases (hrefresh : s.refresh conn now = .ok next) :
    next = s ∨ ∃ timerWheel context,
      s.server.timerWheel.updateConnection conn now (s.conns conn).context =
        .ok (timerWheel, context) ∧
      next = (s.withWheel timerWheel).updateConn conn ({ · with context }) := by
  unfold refresh at hrefresh
  split at hrefresh
  next =>
    obtain ⟨⟨timerWheel, context⟩, hupdate, hrefresh⟩ := Except.bind_eq_ok.mp hrefresh
    exact Or.inr ⟨timerWheel, context, hupdate, (Except.ok.inj hrefresh).symm⟩
  next => exact Or.inl (Except.ok.inj hrefresh).symm

/-- The base loop removes the connection at once, another loop asks it to. -/
theorem removeConnection_cases (hremove : s.removeConnection loop conn = .ok next) :
    (loop = baseLoop ∧ next = s.removeConnectionInLoop conn) ∨
      (loop ≠ baseLoop ∧ next = s.queueInLoop baseLoop (.removeConnectionInLoop conn)) := by
  unfold removeConnection at hremove
  split at hremove
  next => cases hremove
  next =>
    split at hremove
    next hbase => exact Or.inl ⟨hbase, (Except.ok.inj hremove).symm⟩
    next hsub => exact Or.inr ⟨hsub, (Except.ok.inj hremove).symm⟩

theorem dispatch_cases {event : IoEvent} (hdispatch : s.dispatch loop conn now event = .ok next) :
    (event = .closeCallback ∧ s.removeConnection loop conn = .ok next) ∨
      (event = .messageCallback ∧ s.refresh conn now = .ok next) ∨ next = s := by
  cases event with
  | closeCallback => exact Or.inl ⟨rfl, hdispatch⟩
  | messageCallback =>
      simp only [dispatch] at hdispatch
      split at hdispatch
      next => cases hdispatch
      next => exact Or.inr (Or.inl ⟨rfl, hdispatch⟩)
  | _ => exact Or.inr (Or.inr (Except.ok.inj hdispatch).symm)

theorem fillActiveChannel_ok {event : Int × EventMask}
    (hfill : fillActiveChannel loop s event = .ok next) :
    ∃ mask conn, (s.loops loop).poller.kernel event.1 = some ⟨mask, conn⟩ ∧ s.Alive conn ∧
      next = (s.setRevents conn event.2).updateLoop loop (IoLoop.activate conn) := by
  unfold fillActiveChannel at hfill
  split at hfill
  next => cases hfill
  next mask conn hkernel =>
    obtain ⟨halive, hfill⟩ := Except.guard_eq_ok.mp hfill
    exact ⟨mask, conn, hkernel, halive, (Except.ok.inj hfill).symm⟩

theorem handleEvent_ok (hhandle : s.handleEvent loop = .ok next) :
    ∃ conn rest, (s.loops loop).activeChannels = conn :: rest ∧ s.Alive conn ∧
      next = s.updateLoop loop fun ioLoop => { ioLoop with
        activeChannels := rest
        handling := some (conn, (s.conns conn).channel.handleEventWithGuard)
        guard := if (s.conns conn).channel.tied then some conn else none } := by
  unfold handleEvent at hhandle
  split at hhandle
  next => cases hhandle
  next conn rest hactive =>
    obtain ⟨halive, hhandle⟩ := Except.guard_eq_ok.mp hhandle
    exact ⟨conn, rest, hactive, halive, (Except.ok.inj hhandle).symm⟩

theorem callback_ok {calls : TcpConnection.Syscalls}
    (hcallback : s.callback loop calls now = .ok next) :
    ∃ conn callback rest f, (s.loops loop).handling = some (conn, callback :: rest) ∧
      s.Alive conn ∧ TcpConnection.onCallback conn callback calls (s.frame conn) = .ok f ∧
      run (dispatch loop conn now) (s.finishCallback loop conn callback rest f) f.events =
        .ok next := by
  unfold System.callback at hcallback
  split at hcallback
  next conn callback rest hhandling =>
    obtain ⟨halive, hcallback⟩ := Except.guard_eq_ok.mp hcallback
    obtain ⟨f, hf, hcallback⟩ := Except.bind_eq_ok.mp hcallback
    exact ⟨conn, callback, rest, f, hhandling, halive, hf, hcallback⟩
  next => cases hcallback

theorem endHandling_ok (hstep : step s (.endHandling loop) = .ok next) :
    ∃ conn, (s.loops loop).handling = some (conn, []) ∧
      next = s.updateLoop loop ({ · with handling := none, guard := none }) := by
  simp only [step] at hstep
  split at hstep
  next conn hhandling =>
    obtain ⟨-, hstep⟩ := Except.guard_eq_ok.mp hstep
    exact ⟨conn, hhandling, (Except.ok.inj hstep).symm⟩
  next => cases hstep

theorem runFunctor_ok {result : WriteResult} (hrun : s.runFunctor loop result = .ok next) :
    ∃ functor rest, (s.loops loop).functors = functor :: rest ∧ s.Alive functor.target ∧
      (s.updateLoop loop (IoLoop.startFunctor functor rest)).execute loop functor result =
        .ok next := by
  unfold runFunctor at hrun
  split at hrun
  next => cases hrun
  next functor rest hfunctors =>
    obtain ⟨halive, hrun⟩ := Except.guard_eq_ok.mp hrun
    exact ⟨functor, rest, hfunctors, halive, hrun⟩

/-- The server removes a connection; any other functor is a member function of its
connection. -/
theorem execute_cases {functor : Functor} {result : WriteResult}
    (hexecute : s.execute loop functor result = .ok next) :
    (∃ conn, functor = .removeConnectionInLoop conn ∧ next = s.removeConnectionInLoop conn) ∨
      ((∀ conn, functor ≠ .removeConnectionInLoop conn) ∧ ∃ f,
        TcpConnection.onFunctor functor result (s.frame functor.target) = .ok f ∧
        (next = s.absorb functor.target f ∨ ∃ milestone,
          next = (s.absorb functor.target f).record loop functor.target milestone)) := by
  unfold execute at hexecute
  split at hexecute
  next conn =>
    split at hexecute
    next => cases hexecute
    next => exact Or.inl ⟨conn, rfl, (Except.ok.inj hexecute).symm⟩
  next hother =>
    obtain ⟨f, hf, hexecute⟩ := Except.bind_eq_ok.mp hexecute
    refine Or.inr ⟨fun conn heq => hother conn heq, f, hf, ?_⟩
    dsimp only at hexecute
    split at hexecute
    next milestone _ => exact Or.inr ⟨milestone, (Except.ok.inj hexecute).symm⟩
    next => exact Or.inl (Except.ok.inj hexecute).symm

end System

end Muduo
