import Muduo.TcpConnection.Input
import Muduo.TcpServer.Basic

/-! # A server seen from outside

The system calls that the connections of a server make, the callbacks it invokes and the messages
handed to `send` are recorded for each connection. A call of `send` on another thread takes two
steps: it tests the state, and later queues its message.
-/

namespace Muduo

open TcpConnection

/-- What has been seen of one connection. -/
structure Trace where
  /-- the bytes of every read that delivered some -/
  received : List (List UInt8)
  /-- the bytes that user code has taken out of `inputBuffer_` -/
  retrieved : List UInt8
  /-- all calls out of the library -/
  events : List IoEvent
  /-- the messages other threads have sent, in the order of their calls -/
  called : List (ThreadId × List UInt8)
  /-- the threads whose messages wait in the loop, in the order of the queue -/
  senders : List ThreadId
  /-- the executed calls of `sendInLoop` -/
  executed : List (Option ThreadId × List UInt8)
  deriving DecidableEq, Repr

def Trace.empty : Trace := ⟨[], [], [], [], [], []⟩

/-- The calls that a member function has made. -/
def Frame.emitted : Except Stop Frame → List IoEvent
  | .ok f => f.events
  | .error _ => []

namespace System

/-- The calls out of the library that a step makes for a connection. -/
def outputs (s : System) (conn : ConnId) : Action → List IoEvent
  | .newConnection .. =>
      -- `connectEstablished` runs at once on the base loop
      if conn = s.accepted ∧ s.server.threadPool.getNextLoop.1 = baseLoop then
        [.connectionCallback .kConnected]
      else []
  | .callback loop calls _ =>
      match (s.loops loop).handling with
      | some (handled, callback :: _) =>
          if handled = conn then Frame.emitted (onCallback conn callback calls (s.frame conn))
          else []
      | _ => []
  | .runFunctor loop result =>
      match (s.loops loop).functors with
      | functor :: _ =>
          if functor.target = conn then Frame.emitted (onFunctor functor result (s.frame conn))
          else []
      | [] => []
  | .sendDirect target buf result =>
      if target = conn then Frame.emitted (send conn true buf.bytes result (s.frame conn)) else []
  | .shutdownDirect target =>
      if target = conn then (TcpConnection.shutdown conn true (s.frame conn)).events else []
  | .destroyEntry entry =>
      let timerWheel := s.server.timerWheel.release entry
      if timerWheel.owns entry = false ∧ (timerWheel.entries entry).conn = conn ∧ s.Alive conn then
        (TcpConnection.shutdown conn (decide (s.own conn = baseLoop)) (s.frame conn)).events
      else []
  | _ => []

/-- The bytes that a step reads from the socket of a connection. -/
def delivered (s : System) (conn : ConnId) : Action → List UInt8
  | .callback loop calls _ =>
      match (s.loops loop).handling with
      | some (handled, callback :: _) => if handled = conn then received callback calls else []
      | _ => []
  | _ => []

/-- The bytes that user code takes out of the input buffer of a connection. -/
def taken (s : System) (conn : ConnId) : Action → List UInt8
  | .user target (.retrieve len) =>
      if target = conn then (s.conns conn).inputBuffer.readable.take len else []
  | _ => []

/-- The waiting message of a connection that a step executes. -/
def message (s : System) (conn : ConnId) : Action → Option (List UInt8)
  | .runFunctor loop _ =>
      match (s.loops loop).functors with
      | .sendInLoop target buf :: _ => if target = conn then some buf else none
      | _ => none
  | _ => none

def Action.queuesSend : Action → Bool
  | .queueSend .. => true
  | _ => false

/-- The message that the thread of the loop sends on a connection. -/
def direct (s : System) (conn : ConnId) : Action → Option (List UInt8)
  | .sendDirect target buf _ =>
      if target = conn ∧ (s.conns conn).state = .kConnected then some buf.bytes else none
  | _ => none

end System

/-- What a step adds to the trace of a connection. -/
def Trace.after (s : System) (action : System.Action) (conn : ConnId) (trace : Trace) : Trace where
  received := trace.received ++
    if s.delivered conn action = [] then [] else [s.delivered conn action]
  retrieved := trace.retrieved ++ s.taken conn action
  events := trace.events ++ s.outputs conn action
  called := trace.called
  senders := if (s.message conn action).isSome then trace.senders.tail else trace.senders
  executed := trace.executed ++ ((s.message conn action).map (trace.senders.head?, ·)).toList ++
    ((s.direct conn action).map (none, ·)).toList

structure TracedServer where
  system : System
  /-- the message a thread is about to queue, and its connection -/
  calling : ThreadId → Option (ConnId × CppString)
  traces : ConnId → Trace

namespace TracedServer

def initial (listenAddr : InetAddress) (nameArg : String) (timeout numThreads : Nat) :
    TracedServer where
  system := System.initial listenAddr nameArg timeout numThreads
  calling := fun _ => none
  traces := fun _ => .empty

inductive Action where
  | server (action : System.Action)
  /-- another thread calls `send` and tests the state -/
  | send (thread : ThreadId) (conn : ConnId) (buf : CppString)
  /-- it queues its message -/
  | queueSend (thread : ThreadId)

def step (s : TracedServer) : Action → Except Stop TracedServer
  | .server action =>
      -- a message is queued for the thread that has sent it
      if action.queuesSend = false then do
        let system ← s.system.step action
        return { s with
          system
          traces := fun conn => (s.traces conn).after s.system action conn }
      else .error .disabled
  | .send thread conn buf =>
      if s.system.Alive conn ∧ s.calling thread = none then
        if (s.system.conns conn).state = .kConnected then
          let trace := s.traces conn
          .ok { s with
            calling := Function.update s.calling thread (some (conn, buf))
            traces := Function.update s.traces conn
              { trace with called := trace.called ++ [(thread, buf.bytes)] } }
        else .ok s
      else .error .disabled
  | .queueSend thread =>
      match s.calling thread with
      | some (conn, buf) => do
          let system ← s.system.step (.queueSend conn buf)
          let trace := s.traces conn
          return { s with
            system
            calling := Function.update s.calling thread none
            traces := Function.update s.traces conn
              { trace with senders := trace.senders ++ [thread] } }
      | none => .error .disabled

end TracedServer

end Muduo
