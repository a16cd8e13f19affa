import Muduo.TcpConnection.Invariant

/-! # Failed reads

`readv` on a nonblocking socket may find nothing to read, and a signal may interrupt
it. The connection is healthy then. `handleRead` does not look at the saved `errno`:
every failure goes to `handleError`, and both of its branches close.
-/

open Transition

namespace Muduo

/-- The read fails for now, and the socket has no pending error. -/
structure TcpConnection.Syscalls.Transient (calls : Syscalls) : Prop where
  read : calls.read = .failed .ewouldblock ∨ calls.read = .failed .eintr
  healthy : calls.soError = .other 0

namespace Channel

/-- Without a hangup or an error, only data is read and written. -/
theorem handleEventWithGuard_eq {c : Channel} (hhup : c.revents.has EPOLLHUP = false)
    (herr : c.revents.has EPOLLERR = false) : c.handleEventWithGuard =
      (if c.revents.has (EPOLLIN ||| EPOLLPRI) then [.read] else []) ++
        (if c.revents.has EPOLLOUT then [.write] else []) := by
  simp [handleEventWithGuard, hhup, herr]

end Channel

namespace TcpConnection.System

variable {ptr : ConnId} {s next : System} {calls : Syscalls} {rest : List Callback}

/-- The handling of the event that `poll` has reported. -/
def handling (calls : Syscalls) (s : System) : List Action :=
  .handleEvent :: s.conn.channel.handleEventWithGuard.map fun _ => .callback calls

/-- The connection is what it was, and nobody has been told that it is down. -/
structure Undisturbed (s next : System) : Prop where
  state : next.conn.state = s.conn.state
  events : next.conn.channel.events = s.conn.channel.events
  index : next.conn.channel.index = s.conn.channel.index
  poller : next.poller = s.poller
  inputBuffer : next.conn.inputBuffer = s.conn.inputBuffer
  told : ∀ event ∈ next.events.drop s.events.length,
    (∀ state, event ≠ .connectionCallback state) ∧ event ≠ .closeCallback

/-- The write callback finds the channel not writing. -/
theorem callback_write (hs : s.Invariant ptr) (hhandlers : s.handlers = .write :: rest) :
    step ptr s (.callback calls) = .ok { s with handlers := rest } := by
  have hwrite : onCallback ptr .write calls s.frame = .ok s.frame := handleWrite_eq hs.sound _
  simp only [step, hhandlers, hwrite, bind, Except.bind, absorb_frame]
  rfl

/-- A failed read closes the connection, whatever the reason. -/
theorem callback_read_failed (hs : s.Invariant ptr) (hhandlers : s.handlers = .read :: rest)
    {errno : Errno} (hread : calls.read = .failed errno) :
    ∃ next, step ptr s (.callback calls) = .ok next ∧ next.handlers = rest ∧
      next.conn.state = .kDisconnected ∧
      next.events = s.events ++ [.connectionCallback .kDisconnected, .closeCallback] := by
  obtain ⟨closed, hclose, hcloses⟩ := handleClose_ok hs.sound
  have hcallback : onCallback ptr .read calls s.frame = .ok closed := by
    simp only [onCallback, handleRead, hread, handleError_eq, hclose]
  refine ⟨{ s.absorb closed with handlers := rest }, ?_, rfl, hcloses.state, ?_⟩
  · simp only [step, hhandlers, hcallback, bind, Except.bind]
    rfl
  · simp only [absorb, hcloses.events]
    rfl

/-- The callbacks after the read, on a connection that is closed. -/
theorem handlers_closed (hs : s.Invariant ptr) (hclosed : s.conn.state = .kDisconnected)
    (calls : Syscalls) (hhandlers : s.handlers = [] ∨ s.handlers = [.write]) :
    ∃ next, run (step ptr) s (s.handlers.map fun _ => .callback calls) = .ok next ∧
      next.conn.state = .kDisconnected := by
  rcases hhandlers with hhandlers | hhandlers <;> rw [hhandlers]
  · exact ⟨s, rfl, hclosed⟩
  · refine ⟨{ s with handlers := [] }, ?_, hclosed⟩
    exact run_cons_eq_ok.mpr ⟨_, callback_write hs hhandlers, rfl⟩

variable {loop : LoopId} {name : String} {sockfd : Int}
  {hasWriteCompleteCallback hasHighWaterMarkCallback : Bool} {schedule : List Action}

/-- Handling an event on an established connection whose read fails for now leaves the
connection alone if and only if the event does not make it read at all. -/
theorem undisturbed_iff (hrun : run (step ptr) (initial ptr loop name sockfd
      hasWriteCompleteCallback hasHighWaterMarkCallback) schedule = .ok s)
    (hestablished : s.conn.Established) (hactive : s.active = true)
    (hhup : s.conn.channel.revents.has EPOLLHUP = false)
    (herr : s.conn.channel.revents.has EPOLLERR = false) (hcalls : calls.Transient) :
    (∃ next, run (step ptr) s (s.handling calls) = .ok next ∧ s.Undisturbed next) ↔
      s.conn.channel.revents.has (EPOLLIN ||| EPOLLPRI) = false := by
  have hs : s.Invariant ptr := run_invariant step_invariant (initial_invariant ..) hrun
  have hguard := Channel.handleEventWithGuard_eq hhup herr
  let started : System :=
    { s with active := false, handlers := s.conn.channel.handleEventWithGuard }
  have hevent : step ptr s .handleEvent = .ok started := if_pos hactive
  have hstarted : started.Invariant ptr := step_invariant _ _ _ hs hevent
  have hcontinue (next : System) : run (step ptr) s (s.handling calls) = .ok next ↔
      run (step ptr) started (started.handlers.map fun _ => .callback calls) = .ok next := by
    unfold handling
    rw [run_cons, hevent]
    rfl
  simp only [hcontinue]
  cases hin : s.conn.channel.revents.has (EPOLLIN ||| EPOLLPRI) with
  | true =>
      -- the read callback comes first and closes
      obtain ⟨errno, hread⟩ : ∃ errno, calls.read = .failed errno := by
        rcases hcalls.read with hread | hread <;> exact ⟨_, hread⟩
      rw [hin, if_pos rfl, List.singleton_append] at hguard
      obtain ⟨closed, hclose, hrest, hclosed, -⟩ := callback_read_failed hstarted hguard hread
      have hinvariant := step_invariant _ _ _ hstarted hclose
      obtain ⟨final, hfinal, hstate⟩ := handlers_closed hinvariant hclosed calls (by
        rw [hrest]
        split
        · exact Or.inr rfl
        · exact Or.inl rfl)
      rw [hrest] at hfinal
      have hreach : run (step ptr) started (started.handlers.map fun _ => .callback calls) =
          .ok final := by
        rw [show started.handlers = _ from hguard]
        exact run_cons_eq_ok.mpr ⟨closed, hclose, hfinal⟩
      constructor
      · rintro ⟨next, hnext, hundisturbed⟩
        obtain rfl := Except.ok.inj (hreach.symm.trans hnext)
        have hstays := hundisturbed.state
        rw [hstate] at hstays
        rcases hestablished with hstill | hstill <;> rw [hstill] at hstays <;> cases hstays
      · intro hno
        cases hno
  | false =>
      refine ⟨fun _ => rfl, fun _ => ?_⟩
      rw [hin, if_neg (by decide), List.nil_append] at hguard
      have hdone : run (step ptr) started (started.handlers.map fun _ => .callback calls) =
          .ok { started with handlers := [] } := by
        by_cases hout : s.conn.channel.revents.has EPOLLOUT = true
        · rw [if_pos hout] at hguard
          rw [show started.handlers = _ from hguard]
          exact run_cons_eq_ok.mpr ⟨_, callback_write hstarted hguard, rfl⟩
        · rw [if_neg hout] at hguard
          rw [show started.handlers = _ from hguard]
          exact congrArg Except.ok (by rw [← show started.handlers = _ from hguard])
      refine ⟨_, hdone, rfl, rfl, rfl, rfl, rfl, ?_⟩
      simp [started]

/-- An established connection whose channel is active with this event. -/
def polled (revents : EventMask) : List Action := [.swap, .runFunctor (.accepted 0), .poll revents]

/-- Nothing is there to read. -/
def again : Syscalls := ⟨.failed .ewouldblock, .other 0, .accepted 0⟩

theorem undisturbed_iff_writable : ∃ s next,
    run (step 0) (initial 0 0 "c" 5 false false) (polled EPOLLOUT) = .ok s ∧
      run (step 0) s (s.handling again) = .ok next ∧ s.Undisturbed next := by
  have hends : ends (fun s => decide (s.conn.Established ∧ s.active = true ∧
      s.conn.channel.revents = EPOLLOUT)) (run (step 0) (initial 0 0 "c" 5 false false)
        (polled EPOLLOUT)) = true := by
    decide +kernel
  obtain ⟨s, hrun, hcheck⟩ := exists_of_ends hends
  obtain ⟨hestablished, hactive, hrevents⟩ := of_decide_eq_true hcheck
  have hagain : again.Transient := ⟨Or.inl rfl, rfl⟩
  obtain ⟨next, hnext, hundisturbed⟩ := (undisturbed_iff hrun hestablished hactive
    (by rw [hrevents]; decide) (by rw [hrevents]; decide) hagain).mpr (by rw [hrevents]; decide)
  exact ⟨s, next, hrun, hnext, hundisturbed⟩

/-- Urgent data makes the event, and `readv` finds nothing: the connection is closed. -/
theorem undisturbed_false : ¬ ∀ (schedule : List Action) (s next : System) (calls : Syscalls),
    run (step 0) (initial 0 0 "c" 5 false false) schedule = .ok s → s.conn.Established →
      s.active = true → s.conn.channel.revents.has EPOLLHUP = false →
      s.conn.channel.revents.has EPOLLERR = false → calls.Transient →
      run (step 0) s (s.handling calls) = .ok next → s.Undisturbed next := by
  intro hclaim
  have hends : ends (fun s => decide (s.conn.Established ∧ s.active = true ∧
      s.conn.channel.revents = EPOLLPRI ∧ ends (fun next => decide (next.conn.state ≠ s.conn.state))
        (run (step 0) s (s.handling again)) = true)) (run (step 0) (initial 0 0 "c" 5 false false)
        (polled EPOLLPRI)) = true := by
    decide +kernel
  obtain ⟨s, hrun, hcheck⟩ := exists_of_ends hends
  obtain ⟨hestablished, hactive, hrevents, hcloses⟩ := of_decide_eq_true hcheck
  obtain ⟨next, hnext, hdifferent⟩ := exists_of_ends hcloses
  have hundisturbed := hclaim _ s next again hrun hestablished hactive (by rw [hrevents]; decide)
    (by rw [hrevents]; decide) ⟨Or.inl rfl, rfl⟩ hnext
  exact of_decide_eq_true hdifferent hundisturbed.state

end TcpConnection.System

end Muduo
