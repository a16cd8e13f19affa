import Muduo.Platform

/-! # Channels and the epoll poller

`Channel` of `Channel.h` and `Channel.cc`, and `EpollPoller` of `EpollPoller.cc`
with the map `channels_` it inherits from `Poller`. The kernel side of an epoll
descriptor is a partial map from open file descriptors to an interest mask and a
data pointer. A channel is reached through its pointer; pointers are values of
an arbitrary type.
-/

namespace Muduo

abbrev EventMask := BitVec 32

def EPOLLIN : EventMask := 0x001#32

def EPOLLPRI : EventMask := 0x002#32

def EPOLLOUT : EventMask := 0x004#32

def EPOLLERR : EventMask := 0x008#32

def EPOLLHUP : EventMask := 0x010#32

/-- The bit test `mask & bits` of a condition. -/
def EventMask.has (mask bits : EventMask) : Bool := mask &&& bits != 0

/-- The values of a channel's `index_`. -/
inductive Index where
  | kNew
  | kAdded
  | kDeleted
  deriving DecidableEq, Repr

structure Channel where
  fd : Int
  events : EventMask
  revents : EventMask
  index : Index
  tied : Bool
  deriving DecidableEq, Repr

/-- The callbacks a channel invokes. -/
inductive Callback where
  | close
  | error
  | read
  | write
  deriving DecidableEq, Repr

namespace Channel

def kNoneEvent : EventMask := 0

def kReadEvent : EventMask := EPOLLIN ||| EPOLLPRI

def kWriteEvent : EventMask := EPOLLOUT

def create (fd : Int) : Channel where
  fd := fd
  events := 0
  revents := 0
  index := .kNew
  tied := false

def isNoneEvent (c : Channel) : Bool := c.events = kNoneEvent

def isReading (c : Channel) : Bool := c.events = kReadEvent

def isWriting (c : Channel) : Bool := c.events = kWriteEvent

/-- `handleEventWithGuard`: the callbacks invoked for the received events, in
order, on a channel whose four callbacks are set. -/
def handleEventWithGuard (c : Channel) : List Callback :=
  (if c.revents.has EPOLLHUP && !c.revents.has EPOLLIN then [.close] else []) ++
  (if c.revents.has EPOLLERR then [.error] else []) ++
  (if c.revents.has (EPOLLIN ||| EPOLLPRI) then [.read] else []) ++
  (if c.revents.has EPOLLOUT then [.write] else [])

end Channel

/-! ## The kernel -/

inductive CtlOp where
  | add
  | mod
  | del
  deriving DecidableEq, Repr

structure EpollEvent (Ptr : Type) where
  events : EventMask
  ptr : Ptr
  deriving DecidableEq, Repr

/-- The interest list of one epoll descriptor. -/
abbrev InterestList (Ptr : Type) := Int → Option (EpollEvent Ptr)

/-- `epoll_ctl` on an open descriptor: adding fails when it is registered, and
modifying or deleting fails when it is not. -/
def epollCtl {Ptr : Type} (kernel : InterestList Ptr) (op : CtlOp) (fd : Int)
    (event : EpollEvent Ptr) : Option (InterestList Ptr) :=
  match op, kernel fd with
  | .add, none => some (Function.update kernel fd (some event))
  | .mod, some _ => some (Function.update kernel fd (some event))
  | .del, some _ => some (Function.update kernel fd none)
  | _, _ => none

/-! ## The poller -/

structure EpollPoller (Ptr : Type) where
  /-- the map `channels_` -/
  channels : Int → Option Ptr
  /-- the kernel side of `epollfd_` -/
  kernel : InterestList Ptr
  /-- the failed calls of `epoll_ctl`, each of which is logged -/
  failures : List (CtlOp × Int)

namespace EpollPoller

variable {Ptr : Type}

def create : EpollPoller Ptr := ⟨fun _ => none, fun _ => none, []⟩

/-- A failed deletion is logged as an error, any other failure is fatal. -/
def update (p : EpollPoller Ptr) (op : CtlOp) (self : Ptr) (c : Channel) :
    Except Stop (EpollPoller Ptr) :=
  match epollCtl p.kernel op c.fd ⟨c.events, self⟩ with
  | some kernel => .ok { p with kernel }
  | none =>
      if op = .del then .ok { p with failures := p.failures ++ [(op, c.fd)] }
      else .error .exited

def updateChannel (p : EpollPoller Ptr) (self : Ptr) (c : Channel) :
    Except Stop (EpollPoller Ptr × Channel) :=
  match c.index with
  | .kNew => do
      let p := { p with channels := Function.update p.channels c.fd (some self) }
      let c := { c with index := .kAdded }
      return (← p.update .add self c, c)
  | .kDeleted => do
      let c := { c with index := .kAdded }
      return (← p.update .add self c, c)
  | .kAdded =>
      if c.isNoneEvent then do
        return (← p.update .del self c, { c with index := .kDeleted })
      else do
        return (← p.update .mod self c, c)

def removeChannle (p : EpollPoller Ptr) (self : Ptr) (c : Channel) :
    Except Stop (EpollPoller Ptr × Channel) := do
  let p := { p with channels := Function.update p.channels c.fd none }
  let p ← if c.index = .kAdded then p.update .del self c else .ok p
  return (p, { c with index := .kNew })

def hasChannel [DecidableEq Ptr] (p : EpollPoller Ptr) (self : Ptr) (c : Channel) : Bool :=
  p.channels c.fd = some self

end EpollPoller

namespace Channel

variable {Ptr : Type}

/-- Set the interest mask and pass the channel to the poller of its loop. -/
def setEvents (events : EventMask) (p : EpollPoller Ptr) (self : Ptr) (c : Channel) :
    Except Stop (EpollPoller Ptr × Channel) :=
  p.updateChannel self { c with events }

def enableReading (p : EpollPoller Ptr) (self : Ptr) (c : Channel) :=
  setEvents (c.events ||| kReadEvent) p self c

def disableReading (p : EpollPoller Ptr) (self : Ptr) (c : Channel) :=
  setEvents (c.events &&& ~~~kReadEvent) p self c

def enableWriting (p : EpollPoller Ptr) (self : Ptr) (c : Channel) :=
  setEvents (c.events ||| kWriteEvent) p self c

def disableWriting (p : EpollPoller Ptr) (self : Ptr) (c : Channel) :=
  setEvents (c.events &&& ~~~kWriteEvent) p self c

def disableAll (p : EpollPoller Ptr) (self : Ptr) (c : Channel) :=
  setEvents kNoneEvent p self c

def remove (p : EpollPoller Ptr) (self : Ptr) (c : Channel) :=
  p.removeChannle self c

end Channel

end Muduo
