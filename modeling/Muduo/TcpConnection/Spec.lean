import Muduo.Buffer.Spec
import Muduo.Poller.Bookkeeping
import Muduo.TcpConnection.Basic

/-! # What each member function does

The interest mask of a connection is determined by its state and its backlog.
Reading stays enabled from `connectEstablished` until the connection closes, so
the mask never equals `EPOLLOUT` alone and `isWriting` is false throughout. The
laws below describe every member function under this invariant.
-/

namespace Muduo

namespace TcpConnection

/-- The bytes waiting in `outputBuffer_`. -/
def backlog (c : TcpConnection) : List UInt8 := c.outputBuffer.readable

/-- Between `connectEstablished` and the close. -/
def Established (c : TcpConnection) : Prop := c.state = .kConnected ∨ c.state = .kDisconnecting

instance (c : TcpConnection) : Decidable c.Established :=
  inferInstanceAs (Decidable (_ ∨ _))

/-- The interest mask of a connection in a given state with a given backlog. -/
def interest (state : StateE) (backlog : List UInt8) : EventMask :=
  match state with
  | .kConnected | .kDisconnecting =>
      if backlog = [] then Channel.kReadEvent else Channel.kReadEvent ||| Channel.kWriteEvent
  | .kConnecting | .kDisconnected => Channel.kNoneEvent

theorem interest_ne_write (state : StateE) (backlog : List UInt8) :
    interest state backlog ≠ Channel.kWriteEvent := by
  unfold interest
  cases state <;> simp only
  · decide
  · decide
  all_goals
    split <;> decide

theorem interest_established {c : TcpConnection} (hstate : c.Established) (backlog : List UInt8) :
    interest c.state backlog =
      if backlog = [] then Channel.kReadEvent
      else Channel.kReadEvent ||| Channel.kWriteEvent := by
  rcases hstate with hstate | hstate <;> rw [hstate] <;> rfl

/-- Enabling writing on an established connection gives the mask of a backlog. -/
theorem interest_enableWriting {c : TcpConnection} (hstate : c.Established)
    {before after : List UInt8} (hafter : after ≠ []) :
    interest c.state before ||| Channel.kWriteEvent = interest c.state after := by
  rw [interest_established hstate, interest_established hstate, if_neg hafter]
  split <;> decide

theorem enableWriting_ne_none (events : EventMask) :
    events ||| Channel.kWriteEvent ≠ Channel.kNoneEvent := by
  intro hnone
  have hzero := BitVec.or_eq_zero_iff.mp hnone
  exact absurd hzero.2 (by decide)

end TcpConnection

/-- The functors a send may queue: notifications of user callbacks. -/
def Functor.Notifies (ptr : ConnId) : Functor → Prop
  | .writeCompleteCallback conn | .highWaterMarkCallback conn _ => conn = ptr
  | _ => False

open TcpConnection

namespace Frame

/-- The invariant of a connection and the poller of its loop. -/
structure Sound (ptr : ConnId) (f : Frame) : Prop where
  input : f.conn.inputBuffer.Valid
  output : f.conn.outputBuffer.Valid
  tracks : f.poller.Tracks ptr f.conn.channel
  mask : f.conn.channel.events = interest f.conn.state f.conn.backlog

theorem Sound.not_isWriting {self : ConnId} {f : Frame} (hf : f.Sound self) :
    f.conn.channel.isWriting = false := by
  rw [Channel.isWriting, hf.mask]
  exact decide_eq_false (interest_ne_write _ _)

theorem Sound.readableBytes_eq_zero {self : ConnId} {f : Frame} (hf : f.Sound self) :
    f.conn.outputBuffer.readableBytes = 0 ↔ f.conn.backlog = [] := by
  rw [← hf.output.readable_length, List.length_eq_zero_iff, TcpConnection.backlog]

/-- What no member function changes: the loop, the name and the descriptor of the
connection, the records of other descriptors, and what has already been queued
and called. -/
structure Extends (f next : Frame) : Prop where
  loop : next.conn.loop = f.conn.loop
  name : next.conn.name = f.conn.name
  context : next.conn.context = f.conn.context
  fd : next.conn.channel.fd = f.conn.channel.fd
  revents : next.conn.channel.revents = f.conn.channel.revents
  poller : f.poller.SameExcept next.poller f.conn.channel.fd
  queued : f.queued <+: next.queued
  events : f.events <+: next.events

theorem Extends.refl (f : Frame) : f.Extends f :=
  ⟨rfl, rfl, rfl, rfl, rfl, ⟨fun _ _ => rfl, fun _ _ => rfl, rfl⟩, List.prefix_refl _,
    List.prefix_refl _⟩

theorem Extends.trans {f middle next : Frame} (hfirst : f.Extends middle)
    (hsecond : middle.Extends next) : f.Extends next where
  loop := hsecond.loop.trans hfirst.loop
  name := hsecond.name.trans hfirst.name
  context := hsecond.context.trans hfirst.context
  fd := hsecond.fd.trans hfirst.fd
  revents := hsecond.revents.trans hfirst.revents
  poller := by
    have hpoller := hsecond.poller
    rw [hfirst.fd] at hpoller
    exact ⟨fun other hother =>
        (hpoller.channels other hother).trans (hfirst.poller.channels other hother),
      fun other hother => (hpoller.kernel other hother).trans (hfirst.poller.kernel other hother),
      hpoller.failures.trans hfirst.poller.failures⟩
  queued := hfirst.queued.trans hsecond.queued
  events := hfirst.events.trans hsecond.events

theorem extends_queueInLoop (functor : Functor) (f : Frame) :
    f.Extends (f.queueInLoop functor) :=
  { Extends.refl f with queued := List.prefix_append _ _ }

theorem extends_emit (event : IoEvent) (f : Frame) : f.Extends (f.emit event) :=
  { Extends.refl f with events := List.prefix_append _ _ }

/-- A mask change on a tracked channel returns and moves all records. -/
theorem onChannel_setEvents (self : ConnId) (f : Frame)
    (op : EpollPoller ConnId → ConnId → Channel → Except Stop (EpollPoller ConnId × Channel))
    {events : EventMask} (htracks : f.poller.Tracks self f.conn.channel)
    (hop : op f.poller self f.conn.channel =
      Channel.setEvents events f.poller self f.conn.channel) :
    ∃ next, f.onChannel op self = .ok next ∧
      next.poller.Tracks self next.conn.channel ∧
      next.conn = { f.conn with channel := { f.conn.channel with
        events := events, index := f.conn.channel.index.updated events } } ∧
      next.queued = f.queued ∧ next.events = f.events ∧ f.Extends next := by
  obtain ⟨poller, hset, hafter, hothers⟩ := Channel.setEvents_ok htracks events
  let channel := { f.conn.channel with events, index := f.conn.channel.index.updated events }
  refine ⟨{ f with poller, conn := { f.conn with channel } }, ?_, hafter, rfl, rfl, rfl, ?_⟩
  · rw [onChannel, hop, hset]
    rfl
  exact ⟨rfl, rfl, rfl, rfl, rfl, hothers, List.prefix_refl _, List.prefix_refl _⟩

end Frame

namespace TcpConnection

variable {self : ConnId} {f next : Frame}

/-! ## Sending -/

/-- How one `sendInLoop` on an established connection treats its message: written
directly when nothing is waiting, with the rest buffered unless the peer is gone,
and buffered behind the backlog otherwise. -/
inductive SendCase (data : List UInt8) : List UInt8 → List IoEvent → List UInt8 → Prop where
  | accepted (count : Nat) (hcount : count ≤ data.length) :
      SendCase data [] [.write data (.accepted count)] (data.drop count)
  | dropped (errno : Errno) (hfault : isFault errno = true) :
      SendCase data [] [.write data (.failed errno)] []
  | kept (errno : Errno) (hfault : isFault errno = false) :
      SendCase data [] [.write data (.failed errno)] data
  | buffered (backlog : List UInt8) (hbacklog : backlog ≠ []) :
      SendCase data backlog [] (backlog ++ data)

theorem sendInLoopBuffer_ok (hf : f.Sound self) (hstate : f.conn.Established)
    {rest : List UInt8} (hrest : rest ≠ []) (hfits : rest.length ≤ maxSize)
    (hsend : sendInLoopBuffer self rest f = .ok next) :
    next.Sound self ∧ next.conn.state = f.conn.state ∧
      next.conn.backlog = f.conn.backlog ++ rest ∧ next.events = f.events ∧
      (∃ queued, next.queued = f.queued ++ queued ∧
        ∀ functor ∈ queued, functor.Notifies self) ∧
      (f.conn.channel.index = .kAdded → next.conn.channel.index = .kAdded) ∧
      f.Extends next := by
  -- the high water mark only queues a notification
  obtain ⟨marked, hmarked, hconn, hpoller, hevents, hqueued, hextends⟩ :
      ∃ marked, marked = (if f.conn.outputBuffer.readableBytes + rest.length ≥
            f.conn.highWaterMark ∧ f.conn.outputBuffer.readableBytes < f.conn.highWaterMark ∧
            f.conn.hasHighWaterMarkCallback then
          f.queueInLoop (.highWaterMarkCallback self
            (f.conn.outputBuffer.readableBytes + rest.length)) else f) ∧
        marked.conn = f.conn ∧ marked.poller = f.poller ∧ marked.events = f.events ∧
        (∃ queued, marked.queued = f.queued ++ queued ∧
          ∀ functor ∈ queued, functor.Notifies self) ∧ f.Extends marked := by
    refine ⟨_, rfl, ?_⟩
    split
    · exact ⟨rfl, rfl, rfl, ⟨_, rfl, by simp [Functor.Notifies]⟩,
        f.extends_queueInLoop _⟩
    · exact ⟨rfl, rfl, rfl, ⟨[], by simp⟩, Frame.Extends.refl f⟩
  unfold sendInLoopBuffer at hsend
  simp only [← hmarked, hconn] at hsend
  obtain ⟨outputBuffer, happend, hsend⟩ := Except.bind_eq_ok.mp hsend
  rcases hf.output.append_string hfits with ⟨other, hother, hvalid, hreadable⟩ | ⟨hthrown, -⟩
  · rw [hother, Except.ok.injEq] at happend
    subst other
    rw [hf.not_isWriting] at hsend
    simp only [Bool.not_false, ↓reduceIte] at hsend
    obtain ⟨written, hwritten, htracks, hwconn, hwqueued, hwevents, hwextends⟩ :=
      Frame.onChannel_setEvents self { marked with conn := { f.conn with outputBuffer } }
        Channel.enableWriting (by rw [hpoller]; exact hf.tracks) rfl
    rw [hwritten, Except.ok.injEq] at hsend
    subst hsend
    have hbacklog : outputBuffer.readable ≠ [] := by
      rw [hreadable]
      exact List.append_ne_nil_of_right_ne_nil _ hrest
    refine ⟨⟨?_, ?_, htracks, ?_⟩, by rw [hwconn], ?_, hwevents.trans hevents, ?_, ?_, ?_⟩
    · rw [hwconn]
      exact hf.input
    · rw [hwconn]
      exact hvalid
    · rw [hwconn]
      simp only [backlog, hf.mask]
      exact interest_enableWriting hstate hbacklog
    · rw [hwconn]
      exact hreadable
    · rw [hwqueued]
      exact hqueued
    · intro hindex
      rw [hwconn]
      simp only [hindex]
      exact if_neg (enableWriting_ne_none _)
    · refine hextends.trans (Frame.Extends.trans ?_ hwextends)
      exact ⟨by rw [hconn], by rw [hconn], by rw [hconn], by rw [hconn], by rw [hconn],
        ⟨fun _ _ => rfl, fun _ _ => rfl, rfl⟩, List.prefix_refl _, List.prefix_refl _⟩
  · rw [hthrown] at happend
    cases happend

/-- What one `sendInLoop` of an established connection does. -/
structure Sends (ptr : ConnId) (data : List UInt8) (f next : Frame) : Prop where
  sound : next.Sound ptr
  state : next.conn.state = f.conn.state
  notifications : ∃ queued, next.queued = f.queued ++ queued ∧
    ∀ functor ∈ queued, functor.Notifies ptr
  message : ∃ events, next.events = f.events ++ events ∧
    SendCase data f.conn.backlog events next.conn.backlog
  index : f.conn.channel.index = .kAdded → next.conn.channel.index = .kAdded
  keeps : f.Extends next

/-- The direct write: skipped when bytes are waiting, otherwise some bytes are
written or the call fails. -/
inductive DirectWrite (data : List UInt8) : List UInt8 → List IoEvent → Nat → Bool → Prop where
  | accepted (count : Nat) (hcount : count ≤ data.length) :
      DirectWrite data [] [.write data (.accepted count)] count false
  | failed (errno : Errno) :
      DirectWrite data [] [.write data (.failed errno)] 0 (isFault errno)
  | skipped (backlog : List UInt8) (hbacklog : backlog ≠ []) :
      DirectWrite data backlog [] 0 false

theorem sendInLoopWrite_ok (hf : f.Sound self) {data : List UInt8} {result : WriteResult}
    {nwrote : Nat} {faultError : Bool}
    (hwrite : sendInLoopWrite self data result f = .ok (next, nwrote, faultError)) :
    next.conn = f.conn ∧ next.poller = f.poller ∧
      (∃ queued, next.queued = f.queued ++ queued ∧ ∀ functor ∈ queued, functor.Notifies self) ∧
      (∃ events, next.events = f.events ++ events ∧
        DirectWrite data f.conn.backlog events nwrote faultError) ∧
      f.Extends next := by
  unfold sendInLoopWrite at hwrite
  rw [hf.not_isWriting] at hwrite
  -- so the backlog alone decides whether to write
  by_cases hempty : f.conn.backlog = []
  · simp only [Bool.not_false, hf.readableBytes_eq_zero.mpr hempty, decide_true, Bool.and_true,
      ↓reduceIte] at hwrite
    obtain ⟨wrote, hwrote, hwrite⟩ := Except.bind_eq_ok.mp hwrite
    rw [hempty]
    cases result with
    | accepted count =>
        simp only [Frame.write] at hwrote
        obtain ⟨hcount, hwrote⟩ := Except.guard_eq_ok.mp hwrote
        obtain rfl := Except.ok.inj hwrote
        dsimp only at hwrite
        split at hwrite
        all_goals
          simp only [pure, Except.pure, Except.ok.injEq, Prod.mk.injEq] at hwrite
          obtain ⟨rfl, rfl, rfl⟩ := hwrite
        · exact ⟨rfl, rfl, ⟨_, rfl, by simp [Functor.Notifies]⟩,
            ⟨_, rfl, .accepted _ hcount⟩,
            (f.extends_emit _).trans (Frame.extends_queueInLoop _ _)⟩
        · exact ⟨rfl, rfl, ⟨[], by simp [Frame.emit]⟩, ⟨_, rfl, .accepted _ hcount⟩,
            f.extends_emit _⟩
    | failed errno =>
        simp only [Frame.write, Except.ok.injEq] at hwrote
        subst hwrote
        have hfault : (errno != .ewouldblock && isFault errno) = isFault errno := by
          cases errno <;> rfl
        simp only [hfault, pure, Except.pure, Except.ok.injEq, Prod.mk.injEq] at hwrite
        obtain ⟨rfl, rfl, rfl⟩ := hwrite
        exact ⟨rfl, rfl, ⟨[], by simp [Frame.emit]⟩, ⟨_, rfl, .failed errno⟩, f.extends_emit _⟩
  · have hwaiting : f.conn.outputBuffer.readableBytes ≠ 0 :=
      fun hzero => hempty (hf.readableBytes_eq_zero.mp hzero)
    simp only [hwaiting, decide_false, Bool.and_false, Bool.false_eq_true, ↓reduceIte,
      Except.ok.injEq, Prod.mk.injEq] at hwrite
    obtain ⟨rfl, rfl, rfl⟩ := hwrite
    exact ⟨rfl, rfl, ⟨[], by simp⟩, ⟨[], by simp, .skipped _ hempty⟩, Frame.Extends.refl _⟩

/-- What is left over after the direct write goes to the buffer. -/
theorem sendInLoop_rest (hf : f.Sound self) (hstate : f.conn.Established)
    {rest : List UInt8} (hfits : rest.length ≤ maxSize)
    (hsend : (if 0 < rest.length then sendInLoopBuffer self rest f else .ok f) = .ok next) :
    next.Sound self ∧ next.conn.state = f.conn.state ∧
      next.conn.backlog = f.conn.backlog ++ rest ∧ next.events = f.events ∧
      (∃ queued, next.queued = f.queued ++ queued ∧ ∀ functor ∈ queued, functor.Notifies self) ∧
      (f.conn.channel.index = .kAdded → next.conn.channel.index = .kAdded) ∧
      f.Extends next := by
  split at hsend
  next hpos => exact sendInLoopBuffer_ok hf hstate (List.length_pos_iff.mp hpos) hfits hsend
  next hzero =>
    rw [Except.ok.injEq] at hsend
    subst hsend
    have hnil : rest = [] := List.length_eq_zero_iff.mp (by omega)
    exact ⟨hf, rfl, by rw [hnil, List.append_nil], rfl, ⟨[], by simp⟩, id, Frame.Extends.refl _⟩

/-- The direct write and the buffered rest together treat the message as one of
the four cases. -/
theorem DirectWrite.sendCase {data backlog after : List UInt8} {events : List IoEvent}
    {nwrote : Nat} {faultError : Bool}
    (hdirect : DirectWrite data backlog events nwrote faultError)
    (hfault : faultError = true → after = backlog)
    (hrest : faultError = false → after = backlog ++ data.drop nwrote) :
    SendCase data backlog events after := by
  cases hdirect with
  | accepted count hcount =>
      rw [hrest rfl]
      exact .accepted nwrote hcount
  | failed errno =>
      cases herrno : isFault errno with
      | true =>
          rw [hfault herrno]
          exact .dropped errno herrno
      | false =>
          rw [hrest herrno]
          exact .kept errno herrno
  | skipped _ hbacklog =>
      rw [hrest rfl]
      exact .buffered backlog hbacklog

theorem sendInLoop_ok (hf : f.Sound self) (hstate : f.conn.Established)
    {data : List UInt8} (hfits : data.length ≤ maxSize) {result : WriteResult}
    (hsend : sendInLoop self data result f = .ok next) : Sends self data f next := by
  have hopen : f.conn.state ≠ .kDisconnected := by
    rcases hstate with hstate | hstate <;> simp [hstate]
  unfold sendInLoop at hsend
  rw [if_neg hopen] at hsend
  obtain ⟨⟨middle, nwrote, faultError⟩, hwrite, hsend⟩ := Except.bind_eq_ok.mp hsend
  obtain ⟨hconn, hpoller, ⟨early, hearly, hnotify⟩, ⟨events, hevents, hdirect⟩, hkeeps⟩ :=
    sendInLoopWrite_ok hf hwrite
  have hsound : middle.Sound self := by
    constructor <;> rw [hconn]
    · exact hf.input
    · exact hf.output
    · rw [hpoller]
      exact hf.tracks
    · exact hf.mask
  cases faultError with
  | true =>
      simp only [Bool.not_true, Bool.false_and, Bool.false_eq_true, ↓reduceIte, pure, Except.pure,
        Except.ok.injEq] at hsend
      subst hsend
      exact ⟨hsound, by rw [hconn], ⟨early, hearly, hnotify⟩,
        ⟨events, hevents, hdirect.sendCase (fun _ => by rw [hconn]) nofun⟩,
        by rw [hconn]; exact id, hkeeps⟩
  | false =>
      simp only [Bool.not_false, Bool.true_and, gt_iff_lt, decide_eq_true_eq] at hsend
      rw [← List.length_drop] at hsend
      obtain ⟨hnext, hsame, hbacklog, hlast, ⟨late, hlate, hlatenotify⟩, hindex, hrest⟩ :=
        sendInLoop_rest hsound (by rw [hconn]; exact hstate)
          (by rw [List.length_drop]; omega) hsend
      refine ⟨hnext, by rw [hsame, hconn], ⟨early ++ late, ?_, ?_⟩,
        ⟨events, hlast.trans hevents, hdirect.sendCase nofun fun _ => ?_⟩,
        by rw [← hconn]; exact hindex, hkeeps.trans hrest⟩
      · rw [hlate, hearly, List.append_assoc]
      · intro functor hmem
        exact (List.mem_append.mp hmem).elim (hnotify functor) (hlatenotify functor)
      · rw [hbacklog, hconn]

/-! ## Closing -/

/-- `isWriting` is false, so the half-close is performed whatever is waiting. -/
theorem shutdownInLoop_eq (hf : f.Sound self) :
    shutdownInLoop f = f.emit (.shutdownWrite f.conn.backlog.length) := by
  unfold shutdownInLoop
  rw [hf.not_isWriting, backlog, hf.output.readable_length]
  rfl

/-- The connection is closed: the state is final, the mask is empty, and the user
and the server are told, in this order. -/
structure Closes (ptr : ConnId) (f next : Frame) : Prop where
  sound : next.Sound ptr
  state : next.conn.state = .kDisconnected
  backlog : next.conn.backlog = f.conn.backlog
  index : next.conn.channel.index = f.conn.channel.index.updated Channel.kNoneEvent
  queued : next.queued = f.queued
  events : next.events = f.events ++ [.connectionCallback .kDisconnected, .closeCallback]
  keeps : f.Extends next

/-- Leaving the established states and clearing the mask. -/
theorem disableAll_ok (hf : f.Sound self) :
    ∃ middle, (f.setState .kDisconnected).onChannel Channel.disableAll self = .ok middle ∧
      middle.Sound self ∧ middle.conn.state = .kDisconnected ∧
      middle.conn.backlog = f.conn.backlog ∧
      middle.conn.channel.index = f.conn.channel.index.updated Channel.kNoneEvent ∧
      middle.queued = f.queued ∧ middle.events = f.events ∧ f.Extends middle := by
  obtain ⟨middle, hset, htracks, hconn, hqueued, hevents, hkeeps⟩ :=
    Frame.onChannel_setEvents self (f.setState .kDisconnected) Channel.disableAll hf.tracks rfl
  have hstart : f.Extends (f.setState .kDisconnected) := { Frame.Extends.refl f with }
  refine ⟨middle, hset, ⟨?_, ?_, htracks, ?_⟩, by rw [hconn]; rfl, by rw [hconn]; rfl,
    by rw [hconn]; rfl, hqueued, hevents, hstart.trans hkeeps⟩
  · rw [hconn]
    exact hf.input
  · rw [hconn]
    exact hf.output
  · rw [hconn]
    rfl

theorem handleClose_ok (hf : f.Sound self) :
    ∃ next, handleClose self f = .ok next ∧ Closes self f next := by
  obtain ⟨middle, hset, hsound, hstate, hbacklog, hindex, hqueued, hevents, hkeeps⟩ :=
    disableAll_ok hf
  refine ⟨_, by rw [handleClose, hset]; rfl, ?_⟩
  refine ⟨⟨hsound.input, hsound.output, hsound.tracks, hsound.mask⟩, hstate, hbacklog, hindex,
    hqueued, ?_, hkeeps.trans ((middle.extends_emit _).trans (Frame.extends_emit _ _))⟩
  simp only [Frame.emit, hevents, hstate, List.append_assoc, List.cons_append, List.nil_append]

theorem handleError_eq (soError : Errno) (f : Frame) :
    handleError self soError f = handleClose self f := by
  unfold handleError
  split <;> rfl

theorem connectEstablished_ok (hf : f.Sound self) (hstate : f.conn.state = .kConnecting)
    (hempty : f.conn.backlog = []) :
    ∃ next, connectEstablished self f = .ok next ∧ next.Sound self ∧
      next.conn.state = .kConnected ∧ next.conn.backlog = [] ∧
      next.conn.channel.index = .kAdded ∧ next.queued = f.queued ∧
      next.events = f.events ++ [.connectionCallback .kConnected] ∧ f.Extends next := by
  let tied : Frame := { f.setState .kConnected with
    conn := { (f.setState .kConnected).conn with
      channel := { f.conn.channel with tied := true } } }
  obtain ⟨middle, hset, htracks, hconn, hqueued, hevents, hkeeps⟩ :=
    Frame.onChannel_setEvents self tied Channel.enableReading hf.tracks rfl
  have hstart : f.Extends tied := { Frame.Extends.refl f with }
  have hmask : f.conn.channel.events = 0 := by
    rw [hf.mask, hstate]
    rfl
  have hmiddle : middle.conn.state = .kConnected := by
    rw [hconn]
    rfl
  refine ⟨middle.emit (.connectionCallback middle.conn.state),
    by rw [connectEstablished]; exact (congrArg (· >>= _) hset).trans rfl,
    ⟨?_, ?_, htracks, ?_⟩, hmiddle, ?_, ?_, hqueued, ?_,
    hstart.trans (hkeeps.trans (middle.extends_emit _))⟩
  · rw [Frame.emit, hconn]
    exact hf.input
  · rw [Frame.emit, hconn]
    exact hf.output
  · rw [Frame.emit, hconn]
    simp only [tied, Frame.setState, backlog] at hempty ⊢
    rw [hmask, hempty]
    rfl
  · rw [Frame.emit, hconn]
    exact hempty
  · rw [Frame.emit, hconn]
    simp only [tied, hmask]
    cases f.conn.channel.index <;> rfl
  · rw [Frame.emit, hmiddle, hevents]
    rfl

/-- Removing the channel leaves the connection and the calls made so far. -/
theorem remove_ok (hf : f.Sound self) :
    ∃ next, f.onChannel Channel.remove self = .ok next ∧ next.Sound self ∧
      next.conn = { f.conn with channel := { f.conn.channel with index := .kNew } } ∧
      next.queued = f.queued ∧ next.events = f.events ∧ f.Extends next := by
  obtain ⟨poller, hremove, htracks, hothers⟩ := EpollPoller.removeChannle_ok hf.tracks
  let channel := { f.conn.channel with index := Index.kNew }
  refine ⟨{ f with poller, conn := { f.conn with channel } }, ?_,
    ⟨hf.input, hf.output, htracks, hf.mask⟩, rfl, rfl, rfl,
    ⟨rfl, rfl, rfl, rfl, rfl, hothers, List.prefix_refl _, List.prefix_refl _⟩⟩
  rw [Frame.onChannel, Channel.remove, hremove]
  rfl

/-- `connectDestroyed` tells the user only when the state is still `kConnected`;
it always removes the channel. -/
theorem connectDestroyed_ok (hf : f.Sound self) :
    ∃ next, connectDestroyed self f = .ok next ∧ next.Sound self ∧
      next.conn.state =
        (if f.conn.state = .kConnected then .kDisconnected else f.conn.state) ∧
      next.conn.backlog = f.conn.backlog ∧ next.conn.channel.index = .kNew ∧
      next.queued = f.queued ∧
      next.events = f.events ++ (if f.conn.state = .kConnected then
        [.connectionCallback .kDisconnected] else []) ∧
      f.Extends next := by
  unfold connectDestroyed
  -- only a connected channel is cleared first; the removal covers the other states
  by_cases hconnected : f.conn.state = .kConnected
  · obtain ⟨cleared, hset, hsound, hstate, hbacklog, -, hqueued, hevents, hkeeps⟩ :=
      disableAll_ok hf
    obtain ⟨next, hremove, hnext, hconn, hsame, hcalls, hextends⟩ :=
      remove_ok (f := cleared.emit (.connectionCallback cleared.conn.state))
        ⟨hsound.input, hsound.output, hsound.tracks, hsound.mask⟩
    simp only [hconnected, ↓reduceIte]
    refine ⟨next, ?_, hnext, ?_, ?_, by rw [hconn], hsame.trans hqueued, ?_,
      hkeeps.trans ((cleared.extends_emit _).trans hextends)⟩
    · rw [hset]
      exact hremove
    · rw [hconn]
      exact hstate
    · rw [hconn]
      exact hbacklog
    · rw [hcalls, Frame.emit, hevents, hstate]
  · obtain ⟨next, hremove, hnext, hconn, hsame, hcalls, hextends⟩ := remove_ok hf
    simp only [hconnected, ↓reduceIte, List.append_nil]
    exact ⟨next, hremove, hnext, by rw [hconn], by rw [hconn]; rfl, by rw [hconn], hsame, hcalls,
      hextends⟩

/-! ## Events -/

/-- `isWriting` is false, so `handleWrite` only logs. -/
theorem handleWrite_eq (hf : f.Sound self) (result : WriteResult) :
    handleWrite self result f = .ok f := by
  unfold handleWrite
  rw [hf.not_isWriting]
  rfl

/-- Received bytes are passed to the user. -/
structure Delivers (ptr : ConnId) (f next : Frame) : Prop where
  sound : next.Sound ptr
  state : next.conn.state = f.conn.state
  backlog : next.conn.backlog = f.conn.backlog
  channel : next.conn.channel = f.conn.channel
  poller : next.poller = f.poller
  queued : next.queued = f.queued
  events : next.events = f.events ++ [.messageCallback]
  keeps : f.Extends next

/-- A read delivers a message or closes the connection. -/
theorem handleRead_ok (hf : f.Sound self) {result : ReadResult} {soError : Errno}
    (hread : handleRead self result soError f = .ok next) :
    Delivers self f next ∨ Closes self f next := by
  cases result with
  | failed savedErrno =>
      simp only [handleRead, handleError_eq] at hread
      obtain ⟨closed, hclose, hcloses⟩ := handleClose_ok hf
      rw [hclose, Except.ok.injEq] at hread
      exact Or.inr (hread ▸ hcloses)
  | received bytes =>
      simp only [handleRead] at hread
      obtain ⟨hlen, hread⟩ := Except.guard_eq_ok.mp hread
      obtain ⟨inputBuffer, hbuffer, hread⟩ := Except.bind_eq_ok.mp hread
      have hinput : inputBuffer.Valid := by
        rcases hf.input.readFd_reserves hlen with ⟨other, hother, hvalid, -⟩ | ⟨hthrown, -⟩
        · rw [hother, Except.ok.injEq] at hbuffer
          exact hbuffer ▸ hvalid
        · rw [hthrown] at hbuffer
          cases hbuffer
      let read : Frame := { f with conn := { f.conn with inputBuffer } }
      have hsound : read.Sound self := ⟨hinput, hf.output, hf.tracks, hf.mask⟩
      have hkeeps : f.Extends read := { Frame.Extends.refl f with }
      split at hread
      next =>
        simp only [pure, Except.pure, Except.ok.injEq] at hread
        subst hread
        exact Or.inl ⟨⟨hinput, hf.output, hf.tracks, hf.mask⟩, rfl, rfl, rfl, rfl, rfl, rfl,
          hkeeps.trans (read.extends_emit _)⟩
      next =>
        obtain ⟨closed, hclose, hcloses⟩ := handleClose_ok hsound
        have heq : closed = next := by
          rw [hclose, Except.ok.injEq] at hread
          exact hread
        subst heq
        exact Or.inr { hcloses with keeps := hkeeps.trans hcloses.keeps }

end TcpConnection

end Muduo
