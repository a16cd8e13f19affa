import Muduo.TcpConnection.Effect
import Muduo.TcpServer.Naming
import Muduo.TimerWheel.Basic

/-! # The server, its loops and its connections

`TcpServer.cc`, `EventLoopThreadPool.cc`, and of `EventLoop.cc` the order in which
a loop polls, handles events and runs batches of functors. Connections are
numbered as they are accepted. Whether one still exists is not stored: it does as
long as something holds a `shared_ptr` of it. The base loop has number 0, the
sub-loops follow.
-/

namespace Muduo

def baseLoop : LoopId := 0

/-- The connection a queued functor holds a `shared_ptr` of. -/
def Functor.captured : Functor → Option ConnId
  | .shutdownInLoop _ => none
  | functor => some functor.target

/-! ## Loops -/

structure IoLoop where
  poller : EpollPoller ConnId
  pendingFunctors : List Functor
  /-- the functors of the swapped batch that have run; they are destroyed with it -/
  executed : List Functor
  /-- the rest of the batch -/
  functors : List Functor
  activeChannels : List ConnId
  /-- the connection whose event is handled, and the callbacks left to invoke -/
  handling : Option (ConnId × List Callback)
  /-- the `shared_ptr` that `Channel::handleEvent` locks -/
  guard : Option ConnId

namespace IoLoop

def create : IoLoop where
  poller := EpollPoller.create
  pendingFunctors := []
  executed := []
  functors := []
  activeChannels := []
  handling := none
  guard := none

def queued (loop : IoLoop) : List Functor :=
  loop.executed ++ loop.functors ++ loop.pendingFunctors

/-- The connections this loop holds a `shared_ptr` of. -/
def held (loop : IoLoop) : List ConnId :=
  loop.guard.toList ++ loop.queued.filterMap Functor.captured

/-- No batch is being run. -/
def Batchless (loop : IoLoop) : Prop := loop.executed = [] ∧ loop.functors = []

instance (loop : IoLoop) : Decidable loop.Batchless := inferInstanceAs (Decidable (_ ∧ _))

/-- The loop is between two rounds of events. -/
def Idle (loop : IoLoop) : Prop :=
  loop.activeChannels = [] ∧ loop.handling = none ∧ loop.Batchless

instance (loop : IoLoop) : Decidable loop.Idle := inferInstanceAs (Decidable (_ ∧ _ ∧ _))

def activate (conn : ConnId) (loop : IoLoop) : IoLoop :=
  { loop with activeChannels := loop.activeChannels ++ [conn] }

/-- `doPendingFunctors` swaps the queue out. -/
def swapFunctors (loop : IoLoop) : IoLoop :=
  { loop with functors := loop.pendingFunctors, pendingFunctors := [] }

def startFunctor (functor : Functor) (rest : List Functor) (loop : IoLoop) : IoLoop :=
  { loop with executed := loop.executed ++ [functor], functors := rest }

/-- `doPendingFunctors` returns. -/
def destroyBatch (loop : IoLoop) : IoLoop := { loop with executed := [] }

end IoLoop

/-- The started pool: sub-loop `i` has number `i + 1`. -/
structure EventLoopThreadPool where
  numThreads : Nat
  next : Nat
  deriving DecidableEq, Repr

/-- The loop of the next connection, in turn. -/
def EventLoopThreadPool.getNextLoop (pool : EventLoopThreadPool) :
    LoopId × EventLoopThreadPool :=
  if pool.numThreads = 0 then (baseLoop, pool)
  else
    let next := pool.next + 1
    (pool.next + 1, { pool with next := if next ≥ pool.numThreads then 0 else next })

/-! ## The server -/

structure TcpServer where
  ipPort : String
  name : String
  threadPool : EventLoopThreadPool
  nextConnId : BitVec 32
  connections : String → Option ConnId
  timerWheel : TimerWheel
  idleTimeout : Nat

/-- The started server. -/
def TcpServer.create (listenAddr : InetAddress) (nameArg : String) (timeout numThreads : Nat) :
    TcpServer where
  ipPort := listenAddr.toIpPort
  name := nameArg
  threadPool := ⟨numThreads, 0⟩
  nextConnId := 1
  connections := fun _ => none
  timerWheel := TimerWheel.create timeout
  idleTimeout := timeout

/-- How far the destruction of the server has come. -/
inductive Lifetime where
  | running
  /-- in the body of `~TcpServer` -/
  | destructor
  /-- in the destructor of `timerWheel_` -/
  | wheelDestructor
  | destroyed
  deriving DecidableEq, Repr

inductive Caller where
  | user
  /-- the destructor of an entry of the wheel -/
  | entry
  deriving DecidableEq, Repr

/-- A call of `shutdown` that has found the connection connected. The caller holds a
`shared_ptr`. -/
structure ShutdownCall where
  conn : ConnId
  caller : Caller
  /-- the state has been set to `kDisconnecting` -/
  stored : Bool
  deriving DecidableEq, Repr

/-- What the log records about a connection. -/
inductive Milestone where
  | established
  | handled (callback : Callback)
  | removed
  | destroyed
  deriving DecidableEq, Repr

structure Record where
  /-- the loop whose thread executed it -/
  loop : LoopId
  conn : ConnId
  milestone : Milestone
  deriving DecidableEq, Repr

def Functor.milestone : Functor → Option Milestone
  | .connectEstablished _ => some .established
  | .connectDestroyed _ => some .destroyed
  | _ => none

structure System where
  server : TcpServer
  lifetime : Lifetime
  /-- the number of accepted connections -/
  accepted : Nat
  conns : ConnId → TcpConnection
  loops : LoopId → IoLoop
  /-- the `shared_ptr`s in user code -/
  references : List ConnId
  calls : List ShutdownCall
  log : List Record

namespace System

/-- A connection that has not been constructed. -/
def unborn : TcpConnection := TcpConnection.create baseLoop "" 0 false false

def initial (listenAddr : InetAddress) (nameArg : String) (timeout numThreads : Nat) :
    System where
  server := TcpServer.create listenAddr nameArg timeout numThreads
  lifetime := .running
  accepted := 0
  conns := fun _ => unborn
  loops := fun _ => IoLoop.create
  references := []
  calls := []
  log := []

/-! ## What keeps a connection alive -/

def own (s : System) (conn : ConnId) : LoopId := (s.conns conn).loop

/-- `connections_` maps the name of the connection to it. -/
def Mapped (s : System) (conn : ConnId) : Prop :=
  s.server.connections (s.conns conn).name = some conn

instance (s : System) (conn : ConnId) : Decidable (s.Mapped conn) :=
  inferInstanceAs (Decidable (_ = _))

def loopIds (s : System) : List LoopId := List.range (s.server.threadPool.numThreads + 1)

/-- Something holds a `shared_ptr` of the connection. -/
def Alive (s : System) (conn : ConnId) : Prop :=
  conn < s.accepted ∧ (s.Mapped conn ∨ conn ∈ s.references ∨
    (∃ call ∈ s.calls, call.conn = conn) ∨ ∃ loop ∈ s.loopIds, conn ∈ (s.loops loop).held)

instance (s : System) (conn : ConnId) : Decidable (s.Alive conn) :=
  inferInstanceAs (Decidable (_ ∧ (_ ∨ _ ∨ _ ∨ _)))

/-- The thread of the base loop is inside a destructor. -/
def BaseBusy (s : System) : Prop :=
  s.lifetime = .destructor ∨ s.lifetime = .wheelDestructor ∨ s.server.timerWheel.expired ≠ [] ∨
    ∃ call ∈ s.calls, call.caller = .entry

instance (s : System) : Decidable s.BaseBusy := inferInstanceAs (Decidable (_ ∨ _ ∨ _ ∨ _))

/-- The thread of this loop can go on with the loop. -/
def Runs (s : System) (loop : LoopId) : Prop :=
  loop ∈ s.loopIds ∧ (loop = baseLoop → ¬ s.BaseBusy)

instance (s : System) (loop : LoopId) : Decidable (s.Runs loop) :=
  inferInstanceAs (Decidable (_ ∧ (_ → _)))

/-! ## Pieces of steps -/

def updateLoop (loop : LoopId) (change : IoLoop → IoLoop) (s : System) : System :=
  { s with loops := Function.update s.loops loop (change (s.loops loop)) }

def queueInLoop (loop : LoopId) (functor : Functor) (s : System) : System :=
  s.updateLoop loop fun ioLoop =>
    { ioLoop with pendingFunctors := ioLoop.pendingFunctors ++ [functor] }

def updateConn (conn : ConnId) (change : TcpConnection → TcpConnection) (s : System) : System :=
  { s with conns := Function.update s.conns conn (change (s.conns conn)) }

def setRevents (conn : ConnId) (revents : EventMask) (s : System) : System :=
  s.updateConn conn fun c => { c with channel := { c.channel with revents } }

def record (loop : LoopId) (conn : ConnId) (milestone : Milestone) (s : System) : System :=
  { s with log := s.log ++ [⟨loop, conn, milestone⟩] }

/-- What a member function of the connection works on. -/
def frame (s : System) (conn : ConnId) : Frame :=
  ⟨s.conns conn, (s.loops (s.own conn)).poller, [], []⟩

/-- Take over the results of a member function. -/
def absorb (conn : ConnId) (f : Frame) (s : System) : System :=
  (s.updateConn conn fun _ => f.conn).updateLoop (s.own conn) fun ioLoop =>
    { ioLoop with
      poller := f.poller
      pendingFunctors := ioLoop.pendingFunctors ++ f.queued }

def withWheel (timerWheel : TimerWheel) (s : System) : System :=
  { s with server := { s.server with timerWheel } }

def unmap (conn : ConnId) (s : System) : System :=
  { s with server := { s.server with
      connections := Function.update s.server.connections (s.conns conn).name none } }

def updateConnection (conn : ConnId) (now : Int) (s : System) : Except Stop System := do
  let (timerWheel, context) ←
    s.server.timerWheel.updateConnection conn now (s.conns conn).context
  return (s.withWheel timerWheel).updateConn conn ({ · with context })

/-- The wheel is only used with an idle timeout. -/
def refresh (conn : ConnId) (now : Int) (s : System) : Except Stop System :=
  if 0 < s.server.idleTimeout then s.updateConnection conn now else .ok s

def removeConnectionInLoop (conn : ConnId) (s : System) : System :=
  ((s.unmap conn).queueInLoop (s.own conn) (.connectDestroyed conn)).record baseLoop conn .removed

/-- `removeConnection`, called on the thread of a loop. -/
def removeConnection (loop : LoopId) (conn : ConnId) (s : System) : Except Stop System :=
  if s.lifetime = .destroyed then .error .undefined
  else if loop = baseLoop then .ok (s.removeConnectionInLoop conn)
  else .ok (s.queueInLoop baseLoop (.removeConnectionInLoop conn))

/-- The callbacks that `newConnection` sets on a connection. They use the server. -/
def dispatch (loop : LoopId) (conn : ConnId) (now : Int) (s : System) :
    IoEvent → Except Stop System
  | .closeCallback => s.removeConnection loop conn
  | .messageCallback =>
      if s.lifetime = .wheelDestructor ∨ s.lifetime = .destroyed then .error .undefined
      else s.refresh conn now
  | _ => .ok s

def connectEstablished (loop : LoopId) (conn : ConnId) (s : System) : Except Stop System := do
  let f ← TcpConnection.connectEstablished conn (s.frame conn)
  return (s.absorb conn f).record loop conn .established

def connectDestroyed (loop : LoopId) (conn : ConnId) (s : System) : Except Stop System := do
  let f ← TcpConnection.connectDestroyed conn (s.frame conn)
  return (s.absorb conn f).record loop conn .destroyed

/-- The connection is constructed and entered into `connections_`. -/
def construct (sockfd : Int) (hasWriteCompleteCallback : Bool) (s : System) : System :=
  let (ioLoop, threadPool) := s.server.threadPool.getNextLoop
  let name := connName s.server.name s.server.ipPort s.server.nextConnId
  { s with
    server := { s.server with
      threadPool
      nextConnId := s.server.nextConnId + 1
      connections := Function.update s.server.connections name (some s.accepted) }
    accepted := s.accepted + 1
    conns := Function.update s.conns s.accepted
      (TcpConnection.create ioLoop name sockfd hasWriteCompleteCallback false) }

def newConnection (sockfd : Int) (hasWriteCompleteCallback : Bool) (now : Int) (s : System) :
    Except Stop System := do
  let conn := s.accepted
  let s ← (s.construct sockfd hasWriteCompleteCallback).refresh conn now
  -- `runInLoop` on the base loop: a connection of a sub-loop is established there
  if s.own conn = baseLoop then s.connectEstablished baseLoop conn
  else return s.queueInLoop (s.own conn) (.connectEstablished conn)

/-- One event that `epoll_wait` reports: the channel is reached through the
registered pointer. -/
def fillActiveChannel (loop : LoopId) (s : System) (event : Int × EventMask) :
    Except Stop System :=
  match (s.loops loop).poller.kernel event.1 with
  | none => .error .disabled
  | some ⟨_, conn⟩ =>
      if s.Alive conn then
        .ok ((s.setRevents conn event.2).updateLoop loop (IoLoop.activate conn))
      else .error .undefined

/-- `Channel::handleEvent` on the first active channel. -/
def handleEvent (loop : LoopId) (s : System) : Except Stop System :=
  match (s.loops loop).activeChannels with
  | [] => .error .disabled
  | conn :: rest =>
      if s.Alive conn then
        .ok (s.updateLoop loop fun ioLoop => { ioLoop with
          activeChannels := rest
          handling := some (conn, (s.conns conn).channel.handleEventWithGuard)
          guard := if (s.conns conn).channel.tied then some conn else none })
      else .error .undefined

/-- A callback has run; it called no other library code than its member function. -/
def finishCallback (loop : LoopId) (conn : ConnId) (callback : Callback) (rest : List Callback)
    (f : Frame) (s : System) : System :=
  ((s.absorb conn f).record loop conn (.handled callback)).updateLoop loop
    ({ · with handling := some (conn, rest) })

/-- The next callback of the handled event. -/
def callback (loop : LoopId) (calls : TcpConnection.Syscalls) (now : Int) (s : System) :
    Except Stop System :=
  match (s.loops loop).handling with
  | some (conn, callback :: rest) =>
      if s.Alive conn then do
        let f ← TcpConnection.onCallback conn callback calls (s.frame conn)
        let s := s.finishCallback loop conn callback rest f
        Transition.run (dispatch loop conn now) s f.events
      else .error .undefined
  | _ => .error .disabled

/-- Execute a functor on the thread of a loop. -/
def execute (loop : LoopId) (functor : Functor) (result : WriteResult) (s : System) :
    Except Stop System :=
  match functor with
  | .removeConnectionInLoop conn =>
      if s.lifetime = .destroyed then .error .undefined
      else .ok (s.removeConnectionInLoop conn)
  | _ => do
      let f ← TcpConnection.onFunctor functor result (s.frame functor.target)
      let s := s.absorb functor.target f
      match functor.milestone with
      | some milestone => return s.record loop functor.target milestone
      | none => return s

def runFunctor (loop : LoopId) (result : WriteResult) (s : System) : Except Stop System :=
  match (s.loops loop).functors with
  | [] => .error .disabled
  | functor :: rest =>
      if s.Alive functor.target then
        (s.updateLoop loop (IoLoop.startFunctor functor rest)).execute loop functor result
      else .error .undefined

/-- `shutdown`, called on the thread of the loop or on another one. -/
def shutdown (conn : ConnId) (inLoopThread : Bool) (s : System) : System :=
  s.absorb conn (TcpConnection.shutdown conn inLoopThread (s.frame conn))

/-- `~Entry`, on the thread of the base loop. -/
def destroyEntry (conn : ConnId) (s : System) : System :=
  if s.Alive conn then s.shutdown conn (decide (s.own conn = baseLoop)) else s

/-- What user code may set on a connection or take out of it. -/
inductive UserOp where
  | setContext (context : Context)
  | setHighWaterMarkCallback
  | setWriteCompleteCallback
  | retrieve (len : Nat)
  deriving DecidableEq, Repr

def UserOp.apply (op : UserOp) (c : TcpConnection) : TcpConnection :=
  match op with
  | .setContext context => { c with context }
  | .setHighWaterMarkCallback => { c with hasHighWaterMarkCallback := true }
  | .setWriteCompleteCallback => { c with hasWriteCompleteCallback := true }
  | .retrieve len => { c with inputBuffer := c.inputBuffer.retrieve len }

/-! ## Steps -/

inductive Action where
  | newConnection (sockfd : Int) (hasWriteCompleteCallback : Bool) (now : Int)
  | poll (loop : LoopId) (events : List (Int × EventMask))
  | handleEvent (loop : LoopId)
  | callback (loop : LoopId) (calls : TcpConnection.Syscalls) (now : Int)
  | endHandling (loop : LoopId)
  | swap (loop : LoopId)
  | runFunctor (loop : LoopId) (result : WriteResult)
  /-- the batch is destroyed -/
  | endFunctors (loop : LoopId)
  | onTimerTick
  /-- an entry leaves the bucket under destruction, and dies if no other holds it -/
  | destroyEntry (entry : EntryId)
  /-- user code copies a `shared_ptr`, or destroys a copy -/
  | keep (conn : ConnId)
  | drop (conn : ConnId)
  /-- another thread has found the connection connected, and queues its message -/
  | queueSend (conn : ConnId) (buf : CppString)
  | sendDirect (conn : ConnId) (buf : CppString) (result : WriteResult)
  /-- user code calls `shutdown` on another thread, in one step -/
  | shutdown (conn : ConnId)
  | shutdownDirect (conn : ConnId)
  | user (conn : ConnId) (op : UserOp)
  /-- a call of `shutdown` tests the state -/
  | testShutdown (conn : ConnId)
  | testEntryShutdown (entry : EntryId)
  /-- it stores the new state -/
  | storeShutdown (call : ShutdownCall)
  /-- it passes `shutdownInLoop` to the loop -/
  | queueShutdown (call : ShutdownCall)
  | destructor
  /-- the body of `~TcpServer` for one element of `connections_` -/
  | destroyConnection (conn : ConnId)
  | wheelDestructor
  | dropBucket
  | endDestructor

def step (s : System) : Action → Except Stop System
  | .newConnection sockfd hasWriteCompleteCallback now =>
      -- the kernel hands out descriptors that are not open
      if s.lifetime = .running ∧ s.Runs baseLoop ∧ (s.loops baseLoop).handling = none ∧
          (s.loops baseLoop).Batchless ∧
          ∀ conn ∈ List.range s.accepted, s.Alive conn → (s.conns conn).channel.fd ≠ sockfd then
        s.newConnection sockfd hasWriteCompleteCallback now
      else .error .disabled
  | .poll loop events =>
      -- `epoll_wait` reports a descriptor once
      if s.Runs loop ∧ (s.loops loop).Idle ∧ (events.map Prod.fst).Nodup then
        Transition.run (fillActiveChannel loop) s events
      else .error .disabled
  | .handleEvent loop =>
      if s.Runs loop ∧ (s.loops loop).handling = none ∧ (s.loops loop).Batchless then
        s.handleEvent loop
      else .error .disabled
  | .callback loop calls now =>
      if s.Runs loop then s.callback loop calls now else .error .disabled
  | .endHandling loop =>
      match (s.loops loop).handling with
      | some (_, []) =>
          if s.Runs loop then
            .ok (s.updateLoop loop ({ · with handling := none, guard := none }))
          else .error .disabled
      | _ => .error .disabled
  | .swap loop =>
      if s.Runs loop ∧ (s.loops loop).Idle then
        .ok (s.updateLoop loop IoLoop.swapFunctors)
      else .error .disabled
  | .runFunctor loop result =>
      if s.Runs loop then s.runFunctor loop result else .error .disabled
  | .endFunctors loop =>
      if s.Runs loop ∧ (s.loops loop).functors = [] then
        .ok (s.updateLoop loop IoLoop.destroyBatch)
      else .error .disabled
  | .onTimerTick =>
      if s.Runs baseLoop ∧ (s.loops baseLoop).Idle ∧ 0 < s.server.idleTimeout then
        if s.lifetime = .destroyed then .error .undefined
        else .ok (s.withWheel s.server.timerWheel.onTimerTick)
      else .error .disabled
  | .destroyEntry entry =>
      if entry ∈ s.server.timerWheel.expired ∧ ∀ call ∈ s.calls, call.caller ≠ .entry then
        let timerWheel := s.server.timerWheel.release entry
        -- an entry in another bucket stays
        if timerWheel.owns entry then .ok (s.withWheel timerWheel)
        else .ok ((s.withWheel timerWheel).destroyEntry (timerWheel.entries entry).conn)
      else .error .disabled
  | .keep conn =>
      if s.Alive conn then .ok { s with references := s.references ++ [conn] }
      else .error .disabled
  | .drop conn =>
      if conn ∈ s.references then .ok { s with references := s.references.erase conn }
      else .error .disabled
  | .queueSend conn buf =>
      if s.Alive conn ∧ (s.conns conn).state ≠ .kConnecting then
        .ok (s.queueInLoop (s.own conn) (.sendInLoop conn buf.bytes))
      else .error .disabled
  | .sendDirect conn buf result =>
      if s.Alive conn ∧ s.Runs (s.own conn) then do
        let f ← TcpConnection.send conn true buf.bytes result (s.frame conn)
        return s.absorb conn f
      else .error .disabled
  | .shutdown conn =>
      if s.Alive conn then .ok (s.shutdown conn false) else .error .disabled
  | .shutdownDirect conn =>
      if s.Alive conn ∧ s.Runs (s.own conn) then .ok (s.shutdown conn true)
      else .error .disabled
  | .user conn op =>
      if s.Alive conn then .ok (s.updateConn conn op.apply) else .error .disabled
  | .testShutdown conn =>
      if s.Alive conn ∧ (s.conns conn).state = .kConnected then
        .ok { s with calls := s.calls ++ [⟨conn, .user, false⟩] }
      else .error .disabled
  | .testEntryShutdown entry =>
      let timerWheel := s.server.timerWheel.release entry
      let conn := (timerWheel.entries entry).conn
      if entry ∈ s.server.timerWheel.expired ∧ (∀ call ∈ s.calls, call.caller ≠ .entry) ∧
          timerWheel.owns entry = false ∧ s.Alive conn ∧
          (s.conns conn).state = .kConnected then
        .ok { s.withWheel timerWheel with calls := s.calls ++ [⟨conn, .entry, false⟩] }
      else .error .disabled
  | .storeShutdown call =>
      if call ∈ s.calls ∧ call.stored = false then
        let s := s.updateConn call.conn ({ · with state := .kDisconnecting })
        .ok { s with calls := s.calls.erase call ++ [{ call with stored := true }] }
      else .error .disabled
  | .queueShutdown call =>
      if call ∈ s.calls ∧ call.stored = true then
        -- an entry dies on the thread of the base loop, where `runInLoop` does not queue
        let next := if call.caller = .entry ∧ s.own call.conn = baseLoop then
            s.absorb call.conn (TcpConnection.shutdownInLoop (s.frame call.conn))
          else s.queueInLoop (s.own call.conn) (.shutdownInLoop call.conn)
        .ok { next with calls := s.calls.erase call }
      else .error .disabled
  | .destructor =>
      if s.lifetime = .running ∧ s.Runs baseLoop then .ok { s with lifetime := .destructor }
      else .error .disabled
  | .destroyConnection conn =>
      if s.lifetime = .destructor ∧ conn < s.accepted ∧ s.Mapped conn then
        -- `item.second` is reset first; `conn` holds the connection until the call returns
        if s.own conn = baseLoop then (s.unmap conn).connectDestroyed baseLoop conn
        else .ok ((s.unmap conn).queueInLoop (s.own conn) (.connectDestroyed conn))
      else .error .disabled
  | .wheelDestructor =>
      if s.lifetime = .destructor ∧ ∀ conn ∈ List.range s.accepted, ¬ s.Mapped conn then
        .ok { s with lifetime := .wheelDestructor }
      else .error .disabled
  | .dropBucket =>
      if s.lifetime = .wheelDestructor ∧ s.server.timerWheel.expired = [] ∧
          (∀ call ∈ s.calls, call.caller ≠ .entry) ∧ s.server.timerWheel.wheel ≠ [] then
        .ok (s.withWheel s.server.timerWheel.dropBucket)
      else .error .disabled
  | .endDestructor =>
      if s.lifetime = .wheelDestructor ∧ s.server.timerWheel.expired = [] ∧
          (∀ call ∈ s.calls, call.caller ≠ .entry) ∧ s.server.timerWheel.wheel = [] then
        .ok { s with lifetime := .destroyed }
      else .error .disabled

end System

end Muduo
