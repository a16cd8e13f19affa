import Muduo.Buffer.Basic
import Muduo.Poller.Basic

/-! # One TCP connection

`TcpConnection` of `TcpConnection.h` and `TcpConnection.cc`. A member function
runs on a frame: the connection, the poller of its loop, the functors it has
handed to `loop_->queueInLoop`, and the calls it has made out of the library. The
results of system calls are arguments. A functor names its connection by
identity; `shutdownInLoop` is bound to a raw `this`, all others hold a
`shared_ptr`.
-/

namespace Muduo

abbrev ConnId := Nat

abbrev LoopId := Nat

inductive StateE where
  | kDisconnected
  | kConnecting
  | kConnected
  | kDisconnecting
  deriving DecidableEq, Repr

/-- The functors that library code binds to a connection. -/
inductive Functor where
  | connectEstablished (conn : ConnId)
  | connectDestroyed (conn : ConnId)
  | sendInLoop (self : ConnId) (buf : List UInt8)
  | shutdownInLoop (this : ConnId)
  | removeConnectionInLoop (conn : ConnId)
  | writeCompleteCallback (conn : ConnId)
  | highWaterMarkCallback (conn : ConnId) (len : Nat)
  deriving DecidableEq, Repr

/-- Calls out of the library: system calls on the socket and user callbacks. A
half-close records how many readable bytes `outputBuffer_` holds at that moment,
and a connection callback the state it is invoked in. -/
inductive IoEvent where
  | write (offered : List UInt8) (result : WriteResult)
  | shutdownWrite (unsent : Nat)
  | connectionCallback (state : StateE)
  | messageCallback
  | closeCallback
  | writeCompleteCallback
  | highWaterMarkCallback (len : Nat)
  deriving DecidableEq, Repr

/-- The contents of the `std::any` context of a connection. -/
inductive Context where
  | empty
  | weakEntry (entry : Nat)
  | user (value : Nat)
  deriving DecidableEq, Repr

/-- The buffer a connection starts with. -/
def Buffer.initial : Buffer where
  buffer := List.replicate (kCheapPrepend + kInitialSize) 0
  readerIndex := kCheapPrepend
  writerIndex := kCheapPrepend

structure TcpConnection where
  loop : LoopId
  name : String
  state : StateE
  channel : Channel
  /-- whether the user has set the callback -/
  hasWriteCompleteCallback : Bool
  hasHighWaterMarkCallback : Bool
  context : Context
  highWaterMark : Nat
  inputBuffer : Buffer
  outputBuffer : Buffer
  deriving DecidableEq, Repr

/-- What a member function works on. -/
structure Frame where
  conn : TcpConnection
  poller : EpollPoller ConnId
  queued : List Functor
  events : List IoEvent

namespace Frame

def setState (state : StateE) (f : Frame) : Frame :=
  { f with conn := { f.conn with state } }

def queueInLoop (functor : Functor) (f : Frame) : Frame :=
  { f with queued := f.queued ++ [functor] }

def emit (event : IoEvent) (f : Frame) : Frame :=
  { f with events := f.events ++ [event] }

/-- Apply a channel operation to the channel of the connection. -/
def onChannel (op : EpollPoller ConnId → ConnId → Channel →
    Except Stop (EpollPoller ConnId × Channel)) (self : ConnId) (f : Frame) :
    Except Stop Frame := do
  let (poller, channel) ← op f.poller self f.conn.channel
  return { f with poller, conn := { f.conn with channel } }

/-- The system call `write`: the kernel accepts at most what it is offered. -/
def write (offered : List UInt8) (result : WriteResult) (f : Frame) : Except Stop Frame :=
  match result with
  | .accepted count =>
      if count ≤ offered.length then .ok (f.emit (.write offered result))
      else .error .disabled
  | .failed _ => .ok (f.emit (.write offered result))

end Frame

namespace TcpConnection

/-- `64*1024*1024`. -/
def defaultHighWaterMark : Nat := 64 * 1024 * 1024

/-- The constructor; `hasWriteCompleteCallback` and `hasHighWaterMarkCallback`
stand for the callbacks set before the connection is established. -/
def create (loop : LoopId) (name : String) (sockfd : Int)
    (hasWriteCompleteCallback hasHighWaterMarkCallback : Bool) : TcpConnection where
  loop := loop
  name := name
  state := .kConnecting
  channel := Channel.create sockfd
  hasWriteCompleteCallback := hasWriteCompleteCallback
  hasHighWaterMarkCallback := hasHighWaterMarkCallback
  context := .empty
  highWaterMark := defaultHighWaterMark
  inputBuffer := Buffer.initial
  outputBuffer := Buffer.initial

/-! ## Sending -/

/-- `errno` values after which nothing more is buffered. -/
def isFault (errno : Errno) : Bool := errno = .epipe || errno = .econnreset

/-- The direct write of `sendInLoop`, with the number of written bytes and
`faultError`. It is only made when nothing is waiting to be sent. -/
def sendInLoopWrite (self : ConnId) (data : List UInt8) (result : WriteResult) (f : Frame) :
    Except Stop (Frame × Nat × Bool) :=
  if !f.conn.channel.isWriting && f.conn.outputBuffer.readableBytes = 0 then do
    let f ← f.write data result
    match result with
    | .accepted nwrote =>
        -- everything is sent, so `EPOLLOUT` is not needed
        if data.length - nwrote = 0 ∧ f.conn.hasWriteCompleteCallback then
          return (f.queueInLoop (.writeCompleteCallback self), nwrote, false)
        else return (f, nwrote, false)
    | .failed errno => return (f, 0, errno != .ewouldblock && isFault errno)
  else .ok (f, 0, false)

/-- The buffered tail of `sendInLoop`. -/
def sendInLoopBuffer (self : ConnId) (rest : List UInt8) (f : Frame) : Except Stop Frame := do
  let oldlen := f.conn.outputBuffer.readableBytes
  let f := if oldlen + rest.length ≥ f.conn.highWaterMark ∧ oldlen < f.conn.highWaterMark ∧
      f.conn.hasHighWaterMarkCallback then
    f.queueInLoop (.highWaterMarkCallback self (oldlen + rest.length)) else f
  let outputBuffer ← f.conn.outputBuffer.append rest
  let f := { f with conn := { f.conn with outputBuffer } }
  -- `isWriting` is also false while reading and writing are enabled
  if !f.conn.channel.isWriting then f.onChannel Channel.enableWriting self else return f

def sendInLoop (self : ConnId) (data : List UInt8) (result : WriteResult) (f : Frame) :
    Except Stop Frame :=
  if f.conn.state = .kDisconnected then .ok f
  else do
    let (f, nwrote, faultError) ← sendInLoopWrite self data result f
    if !faultError && data.length - nwrote > 0 then
      sendInLoopBuffer self (data.drop nwrote) f
    else return f

/-- `send`, called on the loop thread or on another one. -/
def send (self : ConnId) (inLoopThread : Bool) (buf : List UInt8) (result : WriteResult)
    (f : Frame) : Except Stop Frame :=
  if f.conn.state = .kConnected then
    if inLoopThread then sendInLoop self buf result f
    else .ok (f.queueInLoop (.sendInLoop self buf))
  else .ok f

/-! ## Closing -/

def shutdownInLoop (f : Frame) : Frame :=
  -- the test stands for an empty output buffer
  if !f.conn.channel.isWriting then
    f.emit (.shutdownWrite f.conn.outputBuffer.readableBytes)
  else f

def shutdown (self : ConnId) (inLoopThread : Bool) (f : Frame) : Frame :=
  if f.conn.state = .kConnected then
    let f := f.setState .kDisconnecting
    if inLoopThread then shutdownInLoop f
    else f.queueInLoop (.shutdownInLoop self)
  else f

def connectEstablished (self : ConnId) (f : Frame) : Except Stop Frame := do
  let f := f.setState .kConnected
  let f := { f with conn := { f.conn with channel := { f.conn.channel with tied := true } } }
  let f ← f.onChannel Channel.enableReading self
  return f.emit (.connectionCallback f.conn.state)

def connectDestroyed (self : ConnId) (f : Frame) : Except Stop Frame := do
  let f ← if f.conn.state = .kConnected then do
      let f ← (f.setState .kDisconnected).onChannel Channel.disableAll self
      pure (f.emit (.connectionCallback f.conn.state))
    else pure f
  -- a half-closed channel is still registered here
  f.onChannel Channel.remove self

/-! ## Handlers -/

def handleClose (self : ConnId) (f : Frame) : Except Stop Frame := do
  let f ← (f.setState .kDisconnected).onChannel Channel.disableAll self
  let f := f.emit (.connectionCallback f.conn.state)
  return f.emit .closeCallback

/-- `handleError`: `soError` is the pending socket error, or the `errno` of a
failed `getsockopt`. Both branches close. -/
def handleError (self : ConnId) (soError : Errno) (f : Frame) : Except Stop Frame :=
  if soError = .econnreset ∨ soError = .epipe then handleClose self f
  else handleClose self f

/-- `handleRead`: `readv` never fills more than its `iovec` entries. -/
def handleRead (self : ConnId) (result : ReadResult) (soError : Errno) (f : Frame) :
    Except Stop Frame :=
  match result with
  | .received bytes =>
      if bytes.length ≤ f.conn.inputBuffer.iovecLength then do
        let inputBuffer ← f.conn.inputBuffer.readFd result
        let f := { f with conn := { f.conn with inputBuffer } }
        -- nothing to read: the peer has closed
        if 0 < bytes.length then return f.emit .messageCallback else handleClose self f
      else .error .disabled
  | .failed _ => handleError self soError f

def handleWrite (self : ConnId) (result : WriteResult) (f : Frame) : Except Stop Frame :=
  if f.conn.channel.isWriting then do
    let offered ← f.conn.outputBuffer.peek
    let f ← f.write offered result
    match result with
    | .accepted n =>
        if 0 < n then do
          let f := { f with conn := { f.conn with outputBuffer := f.conn.outputBuffer.retrieve n } }
          if f.conn.outputBuffer.readableBytes = 0 then do
            let f ← f.onChannel Channel.disableWriting self
            let f := if f.conn.hasWriteCompleteCallback then
              f.queueInLoop (.writeCompleteCallback self) else f
            return if f.conn.state = .kDisconnecting then shutdownInLoop f else f
          else return f
        else return f
    | .failed _ => return f
  -- the connection is taken to be down
  else .ok f

/-- The results of the system calls one callback may make. -/
structure Syscalls where
  read : ReadResult
  soError : Errno
  write : WriteResult
  deriving DecidableEq, Repr

/-- The member function bound to a callback of the channel. -/
def onCallback (self : ConnId) (callback : Callback) (calls : Syscalls) (f : Frame) :
    Except Stop Frame :=
  match callback with
  | .close => handleClose self f
  | .error => handleError self calls.soError f
  | .read => handleRead self calls.read calls.soError f
  | .write => handleWrite self calls.write f

/-- The execution of a functor on its connection. -/
def onFunctor (functor : Functor) (result : WriteResult) (f : Frame) : Except Stop Frame :=
  match functor with
  | .connectEstablished conn => connectEstablished conn f
  | .connectDestroyed conn => connectDestroyed conn f
  | .sendInLoop self buf => sendInLoop self buf result f
  | .shutdownInLoop _ => .ok (shutdownInLoop f)
  | .removeConnectionInLoop _ => .ok f
  | .writeCompleteCallback _ => .ok (f.emit .writeCompleteCallback)
  | .highWaterMarkCallback _ len => .ok (f.emit (.highWaterMarkCallback len))

end TcpConnection

end Muduo
