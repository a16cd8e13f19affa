import Muduo.TcpConnection.Spec

/-! # Runs of one connection

The loop thread polls, handles the events of the connection and executes the
queued functors in swapped batches. In between, user code on the loop thread and
on other threads calls the public methods. A send by another thread tests the
state in one step and queues its functor in a later one. Poll results, system
call results and the order of all steps are arbitrary.
-/

namespace Muduo

/-- A queued functor and, for a message, the thread that sent it. -/
structure Task where
  functor : Functor
  sender : Option ThreadId
  deriving DecidableEq, Repr

namespace TcpConnection

structure System where
  conn : TcpConnection
  poller : EpollPoller ConnId
  /-- the message a thread is about to queue -/
  calling : ThreadId → Option (List UInt8)
  pendingFunctors : List Task
  /-- the rest of the swapped batch -/
  functors : List Task
  /-- the channel is in the list of active channels -/
  active : Bool
  /-- the callbacks left to invoke for the handled event -/
  handlers : List Callback
  /-- `connectDestroyed` has run -/
  destroyed : Bool
  /-- all calls out of the library so far -/
  events : List IoEvent
  /-- the messages other threads have sent, in the order of their calls -/
  called : List (ThreadId × List UInt8)
  /-- the executed calls of `sendInLoop` -/
  executed : List (Option ThreadId × List UInt8)

namespace System

/-- The newly accepted connection, with `connectEstablished` queued. -/
def initial (self loop : ConnId) (name : String) (sockfd : Int)
    (hasWriteCompleteCallback hasHighWaterMarkCallback : Bool) : System where
  conn := create loop name sockfd hasWriteCompleteCallback hasHighWaterMarkCallback
  poller := EpollPoller.create
  calling := fun _ => none
  pendingFunctors := [⟨.connectEstablished self, none⟩]
  functors := []
  active := false
  handlers := []
  destroyed := false
  events := []
  called := []
  executed := []

def frame (s : System) : Frame := ⟨s.conn, s.poller, [], []⟩

/-- Take over the results of a member function. -/
def absorb (s : System) (f : Frame) : System :=
  { s with
    conn := f.conn
    poller := f.poller
    pendingFunctors := s.pendingFunctors ++ f.queued.map (⟨·, none⟩)
    events := s.events ++ f.events }

/-- The loop is between two events. -/
def Idle (s : System) : Prop := s.active = false ∧ s.handlers = []

instance (s : System) : Decidable s.Idle := inferInstanceAs (Decidable (_ ∧ _))

def tasks (s : System) : List Task := s.functors ++ s.pendingFunctors

inductive Action where
  /-- another thread calls `send` and tests the state -/
  | send (thread : ThreadId) (buf : CppString)
  /-- it queues its message -/
  | queueSend (thread : ThreadId)
  | sendDirect (buf : CppString) (result : WriteResult)
  | shutdown
  | shutdownDirect
  | setHighWaterMarkCallback
  | setWriteCompleteCallback
  /-- user code takes bytes out of the input buffer -/
  | retrieve (len : Nat)
  | queueConnectDestroyed
  | connectDestroyedDirect
  | poll (revents : EventMask)
  | handleEvent
  | callback (calls : Syscalls)
  | swap
  | runFunctor (result : WriteResult)

/-- Execute one functor of the batch. -/
def execute (task : Task) (result : WriteResult) (s : System) : Except Stop System := do
  let f ← onFunctor task.functor result s.frame
  let s := s.absorb f
  match task.functor with
  | .sendInLoop _ buf => return { s with executed := s.executed ++ [(task.sender, buf)] }
  | .connectDestroyed _ => return { s with destroyed := true }
  | _ => return s

def step (self : ConnId) (s : System) : Action → Except Stop System
  | .send thread buf =>
      if s.calling thread = none then
        if s.conn.state = .kConnected then
          .ok { s with
            calling := Function.update s.calling thread (some buf.bytes)
            called := s.called ++ [(thread, buf.bytes)] }
        else .ok s
      else .error .disabled
  | .queueSend thread =>
      match s.calling thread with
      | some buf => .ok { s with
          calling := Function.update s.calling thread none
          pendingFunctors := s.pendingFunctors ++ [⟨.sendInLoop self buf, some thread⟩] }
      | none => .error .disabled
  | .sendDirect buf result => do
      let f ← TcpConnection.send self true buf.bytes result s.frame
      let executed := if s.conn.state = .kConnected then s.executed ++ [(none, buf.bytes)]
        else s.executed
      return { s.absorb f with executed }
  | .shutdown => .ok (s.absorb (TcpConnection.shutdown self false s.frame))
  | .shutdownDirect => .ok (s.absorb (TcpConnection.shutdown self true s.frame))
  | .setHighWaterMarkCallback => .ok { s with
      conn := { s.conn with hasHighWaterMarkCallback := true } }
  | .setWriteCompleteCallback => .ok { s with
      conn := { s.conn with hasWriteCompleteCallback := true } }
  | .retrieve len => .ok { s with
      conn := { s.conn with inputBuffer := s.conn.inputBuffer.retrieve len } }
  | .queueConnectDestroyed => .ok { s with
      pendingFunctors := s.pendingFunctors ++ [⟨.connectDestroyed self, none⟩] }
  | .connectDestroyedDirect =>
      if s.conn.state = .kConnecting then .error .disabled
      else do
        let f ← connectDestroyed self s.frame
        return { s.absorb f with destroyed := true }
  | .poll revents =>
      if s.Idle ∧ s.functors = [] ∧ (s.poller.kernel s.conn.channel.fd).isSome then
        .ok { s with
          conn := { s.conn with channel := { s.conn.channel with revents } }
          active := true }
      else .error .disabled
  | .handleEvent =>
      if s.active then .ok { s with
        active := false
        handlers := s.conn.channel.handleEventWithGuard }
      else .error .disabled
  | .callback calls =>
      match s.handlers with
      | [] => .error .disabled
      | callback :: rest => do
          let f ← onCallback self callback calls s.frame
          return { s.absorb f with handlers := rest }
  | .swap =>
      if s.Idle ∧ s.functors = [] then
        .ok { s with functors := s.pendingFunctors, pendingFunctors := [] }
      else .error .disabled
  | .runFunctor result =>
      match s.functors with
      | [] => .error .disabled
      | task :: rest =>
          if s.Idle then execute task result { s with functors := rest }
          else .error .disabled

/-! ## What single steps do -/

variable {self : ConnId} {s next : System}

theorem step_queueSend {thread : ThreadId} (hstep : step self s (.queueSend thread) = .ok next) :
    ∃ buf, s.calling thread = some buf ∧ next = { s with
      calling := Function.update s.calling thread none
      pendingFunctors := s.pendingFunctors ++ [⟨.sendInLoop self buf, some thread⟩] } := by
  simp only [step] at hstep
  split at hstep
  next buf hbuf => exact ⟨buf, hbuf, (Except.ok.inj hstep).symm⟩
  next => cases hstep

theorem step_sendDirect {buf : CppString} {result : WriteResult}
    (hstep : step self s (.sendDirect buf result) = .ok next) :
    ∃ f, TcpConnection.send self true buf.bytes result s.frame = .ok f ∧ next = { s.absorb f with
      executed := if s.conn.state = .kConnected then s.executed ++ [(none, buf.bytes)]
        else s.executed } := by
  obtain ⟨f, hsend, hstep⟩ := Except.bind_eq_ok.mp hstep
  exact ⟨f, hsend, (Except.ok.inj hstep).symm⟩

theorem step_connectDestroyedDirect (hstep : step self s .connectDestroyedDirect = .ok next) :
    s.conn.state ≠ .kConnecting ∧ ∃ f, connectDestroyed self s.frame = .ok f ∧
      next = { s.absorb f with destroyed := true } := by
  simp only [step] at hstep
  split at hstep
  next => cases hstep
  next hopen =>
    obtain ⟨f, hdestroy, hstep⟩ := Except.bind_eq_ok.mp hstep
    exact ⟨hopen, f, hdestroy, (Except.ok.inj hstep).symm⟩

theorem step_callback {calls : Syscalls} (hstep : step self s (.callback calls) = .ok next) :
    ∃ callback rest f, s.handlers = callback :: rest ∧
      onCallback self callback calls s.frame = .ok f ∧
      next = { s.absorb f with handlers := rest } := by
  simp only [step] at hstep
  split at hstep
  next => cases hstep
  next callback rest hhandlers =>
    obtain ⟨f, hcallback, hstep⟩ := Except.bind_eq_ok.mp hstep
    exact ⟨callback, rest, f, hhandlers, hcallback, (Except.ok.inj hstep).symm⟩

theorem step_runFunctor {result : WriteResult}
    (hstep : step self s (.runFunctor result) = .ok next) :
    ∃ task rest, s.functors = task :: rest ∧ s.Idle ∧
      execute task result { s with functors := rest } = .ok next := by
  simp only [step] at hstep
  split at hstep
  next => cases hstep
  next task rest hfunctors =>
    obtain ⟨hidle, hstep⟩ := Except.guard_eq_ok.mp hstep
    exact ⟨task, rest, hfunctors, hidle, hstep⟩

end System

end TcpConnection

end Muduo
