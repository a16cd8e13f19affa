import Muduo.TcpConnection.Basic

/-! # What a member function looks at

A member function of a connection looks neither at its context nor at the records that the poller
keeps of other descriptors. On frames that differ in nothing else it does the same.
-/

namespace Muduo

open Except

variable {Ptr : Type} {p q : EpollPoller Ptr} {c : Channel} {self : Ptr}

/-! ## Pollers -/

/-- The pollers have the same records of a descriptor. -/
structure EpollPoller.Agrees (fd : Int) (p q : EpollPoller Ptr) : Prop where
  channels : q.channels fd = p.channels fd
  kernel : q.kernel fd = p.kernel fd

/-- A channel operation leaves agreeing pollers, equal channels and the descriptor. -/
def Channel.SameUpdate (fd : Int) (first second : EpollPoller Ptr × Channel) : Prop :=
  first.1.Agrees fd second.1 ∧ second.2 = first.2 ∧ first.2.fd = fd

namespace EpollPoller

theorem update_matches (hagrees : p.Agrees c.fd q) (op : CtlOp) (self : Ptr) :
    Matches (Agrees c.fd) (p.update op self c) (q.update op self c) := by
  obtain ⟨hchannels, hkernel⟩ := hagrees
  unfold update epollCtl
  rw [hkernel]
  cases op with
  | add =>
      cases p.kernel c.fd with
      | none => exact .ok ⟨hchannels, by simp⟩
      | some entry => exact .error _ _
  | mod =>
      cases p.kernel c.fd with
      | none => exact .error _ _
      | some entry => exact .ok ⟨hchannels, by simp⟩
  | del =>
      cases hentry : p.kernel c.fd with
      | none => exact .ok ⟨hchannels, hkernel⟩
      | some entry => exact .ok ⟨hchannels, by simp⟩

theorem updateChannel_matches (hagrees : p.Agrees c.fd q) (self : Ptr) :
    Matches (Channel.SameUpdate c.fd) (p.updateChannel self c) (q.updateChannel self c) := by
  obtain ⟨hchannels, hkernel⟩ := hagrees
  unfold updateChannel
  cases c.index with
  | kNew =>
      have hnew : Agrees c.fd { p with channels := Function.update p.channels c.fd (some self) }
          { q with channels := Function.update q.channels c.fd (some self) } :=
        ⟨by simp, hkernel⟩
      exact (update_matches (c := { c with index := .kAdded }) hnew .add self).bind
        fun _ _ hafter => .ok ⟨hafter, rfl, rfl⟩
  | kDeleted =>
      exact (update_matches (c := { c with index := .kAdded }) ⟨hchannels, hkernel⟩ .add self).bind
        fun _ _ hafter => .ok ⟨hafter, rfl, rfl⟩
  | kAdded =>
      refine .ite (fun _ => ?_) fun _ => ?_
      · exact (update_matches ⟨hchannels, hkernel⟩ .del self).bind
          fun _ _ hafter => .ok ⟨hafter, rfl, rfl⟩
      · exact (update_matches ⟨hchannels, hkernel⟩ .mod self).bind
          fun _ _ hafter => .ok ⟨hafter, rfl, rfl⟩

theorem removeChannle_matches (hagrees : p.Agrees c.fd q) (self : Ptr) :
    Matches (Channel.SameUpdate c.fd) (p.removeChannle self c) (q.removeChannle self c) := by
  have hremoved : Agrees c.fd { p with channels := Function.update p.channels c.fd none }
      { q with channels := Function.update q.channels c.fd none } :=
    ⟨by simp, hagrees.kernel⟩
  unfold removeChannle
  refine .ite (fun _ => ?_) fun _ => .ok ⟨hremoved, rfl, rfl⟩
  exact (update_matches hremoved .del self).bind fun _ _ hafter => .ok ⟨hafter, rfl, rfl⟩

end EpollPoller

theorem Channel.setEvents_matches (hagrees : p.Agrees c.fd q) (events : EventMask) (self : Ptr) :
    Matches (SameUpdate c.fd) (setEvents events p self c) (setEvents events q self c) := by
  have hsame : p.Agrees ({ c with events } : Channel).fd q := hagrees
  exact EpollPoller.updateChannel_matches hsame self

/-! ## Frames -/

/-- The connection with another context. -/
def TcpConnection.withContext (context : Context) (c : TcpConnection) : TcpConnection :=
  { c with context }

/-- The frames differ at most in the context of the connection and in what their pollers record of
other descriptors. -/
inductive Frame.Alike (f : Frame) : Frame → Prop
  | intro (context : Context) (poller : EpollPoller ConnId)
      (hagrees : f.poller.Agrees f.conn.channel.fd poller) :
      Alike f ⟨{ f.conn with context }, poller, f.queued, f.events⟩

namespace Frame

variable {f g : Frame} {ptr : ConnId}

theorem Alike.queueInLoop (halike : f.Alike g) (functor : Functor) :
    (f.queueInLoop functor).Alike (g.queueInLoop functor) := by
  obtain ⟨context, poller, hagrees⟩ := halike
  exact ⟨context, poller, hagrees⟩

theorem Alike.emit (halike : f.Alike g) (event : IoEvent) :
    (f.emit event).Alike (g.emit event) := by
  obtain ⟨context, poller, hagrees⟩ := halike
  exact ⟨context, poller, hagrees⟩

theorem Alike.setState (halike : f.Alike g) (state : StateE) :
    (f.setState state).Alike (g.setState state) := by
  obtain ⟨context, poller, hagrees⟩ := halike
  exact ⟨context, poller, hagrees⟩

theorem Alike.state (halike : f.Alike g) : g.conn.state = f.conn.state := by
  obtain ⟨context, poller, hagrees⟩ := halike
  rfl

theorem Alike.agrees (halike : f.Alike g) : f.poller.Agrees f.conn.channel.fd g.poller := by
  obtain ⟨context, poller, hagrees⟩ := halike
  exact hagrees

theorem Alike.queued (halike : f.Alike g) : g.queued = f.queued := by
  obtain ⟨context, poller, hagrees⟩ := halike
  rfl

theorem Alike.events (halike : f.Alike g) : g.events = f.events := by
  obtain ⟨context, poller, hagrees⟩ := halike
  rfl

theorem Alike.notifies (halike : f.Alike g) :
    g.conn.hasWriteCompleteCallback = f.conn.hasWriteCompleteCallback := by
  obtain ⟨context, poller, hagrees⟩ := halike
  rfl

/-- Both go on with the same of two frames. -/
theorem alike_ite {condition other : Prop} [Decidable condition] [Decidable other]
    {elseFirst elseSecond : Frame} (hcondition : condition ↔ other) (hthen : f.Alike g)
    (helse : elseFirst.Alike elseSecond) :
    (if condition then f else elseFirst).Alike (if other then g else elseSecond) := by
  by_cases hholds : condition
  · rw [if_pos hholds, if_pos (hcondition.mp hholds)]
    exact hthen
  · rw [if_neg hholds, if_neg (mt hcondition.mpr hholds)]
    exact helse

/-- An operation on the channel of the connection. -/
theorem Alike.onChannel (halike : f.Alike g)
    {op : EpollPoller ConnId → ConnId → Channel → Except Stop (EpollPoller ConnId × Channel)}
    (hop : ∀ p q : EpollPoller ConnId, p.Agrees f.conn.channel.fd q →
      Matches (Channel.SameUpdate f.conn.channel.fd) (op p ptr f.conn.channel)
        (op q ptr f.conn.channel)) :
    Matches Alike (f.onChannel op ptr) (g.onChannel op ptr) := by
  obtain ⟨context, poller, hagrees⟩ := halike
  refine (hop _ _ hagrees).bind ?_
  rintro ⟨first, channel⟩ ⟨second, other⟩ ⟨hafter, rfl, hfd⟩
  rw [← hfd] at hafter
  exact .ok ⟨context, second, hafter⟩

theorem Alike.enableReading (halike : f.Alike g) :
    Matches Alike (f.onChannel Channel.enableReading ptr)
      (g.onChannel Channel.enableReading ptr) :=
  halike.onChannel fun _ _ hagrees => Channel.setEvents_matches hagrees _ ptr

theorem Alike.enableWriting (halike : f.Alike g) :
    Matches Alike (f.onChannel Channel.enableWriting ptr)
      (g.onChannel Channel.enableWriting ptr) :=
  halike.onChannel fun _ _ hagrees => Channel.setEvents_matches hagrees _ ptr

theorem Alike.disableWriting (halike : f.Alike g) :
    Matches Alike (f.onChannel Channel.disableWriting ptr)
      (g.onChannel Channel.disableWriting ptr) :=
  halike.onChannel fun _ _ hagrees => Channel.setEvents_matches hagrees _ ptr

theorem Alike.disableAll (halike : f.Alike g) :
    Matches Alike (f.onChannel Channel.disableAll ptr) (g.onChannel Channel.disableAll ptr) :=
  halike.onChannel fun _ _ hagrees => Channel.setEvents_matches hagrees _ ptr

theorem Alike.remove (halike : f.Alike g) :
    Matches Alike (f.onChannel Channel.remove ptr) (g.onChannel Channel.remove ptr) :=
  halike.onChannel fun _ _ hagrees => EpollPoller.removeChannle_matches hagrees ptr

theorem Alike.write (halike : f.Alike g) (offered : List UInt8) (result : WriteResult) :
    Matches Alike (f.write offered result) (g.write offered result) := by
  unfold Frame.write
  cases result with
  | accepted count => exact .ite (fun _ => .ok (halike.emit _)) fun _ => .error _ _
  | failed errno => exact .ok (halike.emit _)

end Frame

namespace TcpConnection

variable {f g : Frame} {ptr : ConnId}

/-! ## Member functions -/

theorem sendInLoopWrite_matches (halike : f.Alike g) (data : List UInt8) (result : WriteResult) :
    Matches (fun first second => first.1.Alike second.1 ∧ second.2 = first.2)
      (sendInLoopWrite ptr data result f) (sendInLoopWrite ptr data result g) := by
  have hconn : g.conn.channel = f.conn.channel ∧ g.conn.outputBuffer = f.conn.outputBuffer := by
    obtain ⟨context, poller, hagrees⟩ := halike
    exact ⟨rfl, rfl⟩
  unfold sendInLoopWrite
  rw [hconn.1, hconn.2]
  refine .ite (fun _ => ?_) fun _ => .ok ⟨halike, rfl⟩
  refine (halike.write data result).bind fun first second hwritten => ?_
  cases result with
  | failed errno => exact .ok ⟨hwritten, rfl⟩
  | accepted nwrote =>
      dsimp only
      rw [hwritten.notifies]
      exact .ite (fun _ => .ok ⟨hwritten.queueInLoop _, rfl⟩) fun _ => .ok ⟨hwritten, rfl⟩

theorem sendInLoopBuffer_matches (halike : f.Alike g) (rest : List UInt8) :
    Matches Frame.Alike (sendInLoopBuffer ptr rest f) (sendInLoopBuffer ptr rest g) := by
  obtain ⟨context, poller, hagrees⟩ := halike
  unfold sendInLoopBuffer
  dsimp only
  -- the mark changes the queue, and the queues are equal
  split
  all_goals
    refine .bind_self fun outputBuffer => ?_
    refine .ite (fun _ => ?_) fun _ => .ok ⟨context, poller, hagrees⟩
    exact Frame.Alike.enableWriting ⟨context, poller, hagrees⟩

theorem sendInLoop_matches (halike : f.Alike g) (data : List UInt8) (result : WriteResult) :
    Matches Frame.Alike (sendInLoop ptr data result f) (sendInLoop ptr data result g) := by
  unfold sendInLoop
  rw [halike.state]
  refine .ite (fun _ => .ok halike) fun _ => ?_
  refine (sendInLoopWrite_matches halike data result).bind ?_
  rintro ⟨first, nwrote, faultError⟩ ⟨second, others⟩ ⟨hwritten, rfl⟩
  exact .ite (fun _ => sendInLoopBuffer_matches hwritten _) fun _ => .ok hwritten

theorem send_matches (halike : f.Alike g) (inLoopThread : Bool) (buf : List UInt8)
    (result : WriteResult) :
    Matches Frame.Alike (send ptr inLoopThread buf result f)
      (send ptr inLoopThread buf result g) := by
  unfold send
  rw [halike.state]
  refine .ite (fun _ => ?_) fun _ => .ok halike
  exact .ite (fun _ => sendInLoop_matches halike buf result) fun _ => .ok (halike.queueInLoop _)

theorem shutdownInLoop_alike (halike : f.Alike g) :
    (shutdownInLoop f).Alike (shutdownInLoop g) := by
  obtain ⟨context, poller, hagrees⟩ := halike
  unfold shutdownInLoop
  dsimp only
  split
  · exact ⟨context, poller, hagrees⟩
  · exact ⟨context, poller, hagrees⟩

theorem shutdown_alike (halike : f.Alike g) (ptr : ConnId) (inLoopThread : Bool) :
    (shutdown ptr inLoopThread f).Alike (shutdown ptr inLoopThread g) := by
  unfold shutdown
  rw [halike.state]
  split
  next =>
    cases inLoopThread with
    | true => exact shutdownInLoop_alike (halike.setState .kDisconnecting)
    | false => exact (halike.setState .kDisconnecting).queueInLoop _
  next => exact halike

theorem connectEstablished_matches (halike : f.Alike g) :
    Matches Frame.Alike (connectEstablished ptr f) (connectEstablished ptr g) := by
  obtain ⟨context, poller, hagrees⟩ := halike
  unfold connectEstablished
  refine Matches.bind (Frame.Alike.enableReading ⟨context, poller, hagrees⟩)
    fun first second hafter => ?_
  obtain ⟨context, poller, hagrees⟩ := hafter
  exact .ok ⟨context, poller, hagrees⟩

theorem connectDestroyed_matches (halike : f.Alike g) :
    Matches Frame.Alike (connectDestroyed ptr f) (connectDestroyed ptr g) := by
  unfold connectDestroyed
  rw [halike.state]
  refine .ite (fun _ => ?_) fun _ => halike.remove
  refine (halike.setState .kDisconnected).disableAll.bind fun first second hafter => ?_
  obtain ⟨context, poller, hagrees⟩ := hafter
  exact Frame.Alike.remove ⟨context, poller, hagrees⟩

theorem handleClose_matches (halike : f.Alike g) :
    Matches Frame.Alike (handleClose ptr f) (handleClose ptr g) := by
  refine (halike.setState .kDisconnected).disableAll.bind fun first second hafter => ?_
  obtain ⟨context, poller, hagrees⟩ := hafter
  exact .ok ⟨context, poller, hagrees⟩

theorem handleError_matches (halike : f.Alike g) (soError : Errno) :
    Matches Frame.Alike (handleError ptr soError f) (handleError ptr soError g) :=
  .ite (fun _ => handleClose_matches halike) fun _ => handleClose_matches halike

theorem handleRead_matches (halike : f.Alike g) (result : ReadResult) (soError : Errno) :
    Matches Frame.Alike (handleRead ptr result soError f) (handleRead ptr result soError g) := by
  cases result with
  | failed savedErrno => exact handleError_matches halike soError
  | received bytes =>
      obtain ⟨context, poller, hagrees⟩ := halike
      refine .ite (fun _ => ?_) fun _ => .error _ _
      refine .bind_self fun inputBuffer => ?_
      refine .ite (fun _ => .ok ⟨context, poller, hagrees⟩) fun _ => ?_
      exact handleClose_matches ⟨context, poller, hagrees⟩

theorem handleWrite_matches (halike : f.Alike g) (result : WriteResult) :
    Matches Frame.Alike (handleWrite ptr result f) (handleWrite ptr result g) := by
  have hconn : g.conn.channel = f.conn.channel ∧ g.conn.outputBuffer = f.conn.outputBuffer := by
    obtain ⟨context, poller, hagrees⟩ := halike
    exact ⟨rfl, rfl⟩
  unfold handleWrite
  rw [hconn.1, hconn.2]
  refine .ite (fun _ => ?_) fun _ => .ok halike
  refine .bind_self fun offered => ?_
  refine (halike.write offered result).bind fun first second hwritten => ?_
  cases result with
  | failed errno => exact .ok hwritten
  | accepted n =>
      refine .ite (fun _ => ?_) fun _ => .ok hwritten
      obtain ⟨context, poller, hagrees⟩ := hwritten
      refine .ite (fun _ => ?_) fun _ => .ok ⟨context, poller, hagrees⟩
      refine Matches.bind (Frame.Alike.disableWriting ⟨context, poller, hagrees⟩)
        fun drained other hdrained => ?_
      have hcallback : drained.conn.hasWriteCompleteCallback = true ↔
          other.conn.hasWriteCompleteCallback = true := by rw [hdrained.notifies]
      have hnotified := Frame.alike_ite hcallback
        (hdrained.queueInLoop (.writeCompleteCallback ptr)) hdrained
      exact .ok (Frame.alike_ite (by rw [hnotified.state]) (shutdownInLoop_alike hnotified)
        hnotified)

/-- The callbacks of the channel. -/
theorem onCallback_matches (halike : f.Alike g) (callback : Callback) (calls : Syscalls) :
    Matches Frame.Alike (onCallback ptr callback calls f) (onCallback ptr callback calls g) := by
  cases callback with
  | close => exact handleClose_matches halike
  | error => exact handleError_matches halike calls.soError
  | read => exact handleRead_matches halike calls.read calls.soError
  | write => exact handleWrite_matches halike calls.write

/-- The functors of the connection. -/
theorem onFunctor_matches (halike : f.Alike g) (functor : Functor) (result : WriteResult) :
    Matches Frame.Alike (onFunctor functor result f) (onFunctor functor result g) := by
  cases functor with
  | connectEstablished conn => exact connectEstablished_matches halike
  | connectDestroyed conn => exact connectDestroyed_matches halike
  | sendInLoop conn buf => exact sendInLoop_matches halike buf result
  | shutdownInLoop conn => exact .ok (shutdownInLoop_alike halike)
  | removeConnectionInLoop conn => exact .ok halike
  | writeCompleteCallback conn => exact .ok (halike.emit _)
  | highWaterMarkCallback conn len => exact .ok (halike.emit _)

end TcpConnection

end Muduo
