import Muduo.TcpConnection.Output
import Muduo.TcpConnection.Queues
import Muduo.TcpConnection.Safety

/-! # Notifications

`sendInLoop` queues the write complete callback when its write takes the whole message, and the
high water mark callback when it brings the backlog from below the mark to the mark or above.
No other member function queues either of them. Each queued callback is made once, in the order
of the queue.
-/

open Transition

namespace Muduo

namespace IoEvent

/-- A write that takes everything it is offered. -/
def isComplete : IoEvent → Bool
  | .write offered (.accepted count) => count == offered.length
  | _ => false

def isWrite : IoEvent → Bool
  | .write _ _ => true
  | _ => false

/-- The length that a call of the high water mark callback reports. -/
def reported : IoEvent → Option Nat
  | .highWaterMarkCallback len => some len
  | _ => none

/-- A call of one of the two callbacks. -/
def isNotice : IoEvent → Bool
  | .writeCompleteCallback | .highWaterMarkCallback _ => true
  | _ => false

end IoEvent

/-- The call that a functor makes. -/
def Functor.notice : Functor → Option IoEvent
  | .writeCompleteCallback _ => some .writeCompleteCallback
  | .highWaterMarkCallback _ len => some (.highWaterMarkCallback len)
  | _ => none

namespace TcpConnection

/-- What a send owes its user after these events, with this backlog left. -/
def due (c : TcpConnection) (events : List IoEvent) (left : Nat) : List IoEvent :=
  (if c.hasWriteCompleteCallback then
    List.replicate (events.countP IoEvent.isComplete) .writeCompleteCallback else []) ++
  (if c.hasHighWaterMarkCallback ∧ c.backlog.length < c.highWaterMark ∧ c.highWaterMark ≤ left then
    [.highWaterMarkCallback left] else [])

theorem due_of_same {c : TcpConnection} {events : List IoEvent} {left : Nat}
    (hevents : events.countP IoEvent.isComplete = 0) (hleft : left ≤ c.backlog.length) :
    c.due events left = [] := by
  have hbelow : ¬ (c.hasHighWaterMarkCallback ∧ c.backlog.length < c.highWaterMark ∧
      c.highWaterMark ≤ left) := by
    rintro ⟨-, hlt, hle⟩
    omega
  rw [due, hevents, if_neg hbelow]
  simp

/-- What a member function queues, and that it makes none of the calls itself. -/
structure Notes (f next : Frame) : Prop where
  queued : ∃ queued events, next.queued = f.queued ++ queued ∧ next.events = f.events ++ events ∧
    events.filter IoEvent.isNotice = [] ∧
    queued.filterMap Functor.notice = f.conn.due events next.conn.backlog.length

variable {self : ConnId} {f next : Frame}

/-- A member function that sends nothing. -/
theorem Notes.of_same {events : List IoEvent} {queued : List Functor}
    (hqueued : next.queued = f.queued ++ queued) (hnone : queued.filterMap Functor.notice = [])
    (hevents : next.events = f.events ++ events) (hnotices : events.filter IoEvent.isNotice = [])
    (hwrites : events.countP IoEvent.isComplete = 0)
    (hbacklog : next.conn.backlog = f.conn.backlog) : Notes f next := by
  refine ⟨queued, events, hqueued, hevents, hnotices, ?_⟩
  rw [hnone, hbacklog, due_of_same hwrites le_rfl]

/-! ## Sends -/

/-- The direct write announces a complete write. -/
theorem sendInLoopWrite_notes {data : List UInt8} {result : WriteResult}
    {nwrote : Nat} {faultError : Bool}
    (hwrite : sendInLoopWrite self data result f = .ok (next, nwrote, faultError)) :
    ∃ queued events, next.queued = f.queued ++ queued ∧ next.events = f.events ++ events ∧
      events.filter IoEvent.isNotice = [] ∧
      queued.filterMap Functor.notice = if f.conn.hasWriteCompleteCallback then
        List.replicate (events.countP IoEvent.isComplete) .writeCompleteCallback else [] := by
  unfold sendInLoopWrite at hwrite
  split at hwrite
  next =>
    obtain ⟨wrote, hwrote, hwrite⟩ := Except.bind_eq_ok.mp hwrite
    cases result with
    | failed errno =>
        obtain rfl := Except.ok.inj hwrote
        obtain ⟨rfl, -⟩ := Prod.mk.inj (Except.ok.inj hwrite)
        exact ⟨[], _, (List.append_nil _).symm, rfl, rfl, by simp [IoEvent.isComplete]⟩
    | accepted count =>
        obtain ⟨hcount, hwrote⟩ := Except.guard_eq_ok.mp hwrote
        obtain rfl := Except.ok.inj hwrote
        have hcomplete : (IoEvent.write data (.accepted count)).isComplete = true ↔
            data.length - count = 0 := by
          rw [IoEvent.isComplete, beq_iff_eq]
          omega
        dsimp only at hwrite
        split at hwrite
        next hall =>
          simp only [pure, Except.pure, Except.ok.injEq, Prod.mk.injEq] at hwrite
          obtain ⟨rfl, rfl, rfl⟩ := hwrite
          refine ⟨_, _, rfl, rfl, rfl, ?_⟩
          have hflag : f.conn.hasWriteCompleteCallback = true := hall.2
          simp [hcomplete.mpr hall.1, hflag, Functor.notice]
        next hpart =>
          simp only [pure, Except.pure, Except.ok.injEq, Prod.mk.injEq] at hwrite
          obtain ⟨rfl, rfl, rfl⟩ := hwrite
          refine ⟨[], _, (List.append_nil _).symm, rfl, rfl, ?_⟩
          cases hflag : f.conn.hasWriteCompleteCallback with
          | false => rfl
          | true =>
              have hnot : (IoEvent.write data (.accepted count)).isComplete = false := by
                rw [Bool.eq_false_iff, ne_eq, hcomplete]
                exact fun hall => hpart ⟨hall, hflag⟩
              simp [hnot]
  next =>
    obtain ⟨rfl, -⟩ := Prod.mk.inj (Except.ok.inj hwrite)
    exact ⟨[], [], by simp, by simp, rfl, by simp⟩

/-- Buffering announces the crossing of the mark. -/
theorem sendInLoopBuffer_notes (hf : f.Sound self) (hstate : f.conn.Established)
    {rest : List UInt8} (hrest : rest ≠ []) (hfits : rest.length ≤ maxSize)
    (hsend : sendInLoopBuffer self rest f = .ok next) :
    ∃ queued, next.queued = f.queued ++ queued ∧ next.events = f.events ∧
      queued.filterMap Functor.notice = if f.conn.hasHighWaterMarkCallback ∧
          f.conn.backlog.length < f.conn.highWaterMark ∧
          f.conn.highWaterMark ≤ next.conn.backlog.length then
        [.highWaterMarkCallback next.conn.backlog.length] else [] := by
  obtain ⟨-, -, hbacklog, hevents, -⟩ := sendInLoopBuffer_ok hf hstate hrest hfits hsend
  have hold : f.conn.outputBuffer.readableBytes = f.conn.backlog.length :=
    hf.output.readable_length.symm
  have hnew : next.conn.backlog.length = f.conn.backlog.length + rest.length := by
    rw [hbacklog, List.length_append]
  unfold sendInLoopBuffer at hsend
  obtain ⟨marked, hmarked, queued, hqueued, hnotice⟩ :
      ∃ marked, marked = (if f.conn.outputBuffer.readableBytes + rest.length ≥
            f.conn.highWaterMark ∧ f.conn.outputBuffer.readableBytes < f.conn.highWaterMark ∧
            f.conn.hasHighWaterMarkCallback then
          f.queueInLoop (.highWaterMarkCallback self
            (f.conn.outputBuffer.readableBytes + rest.length)) else f) ∧
        ∃ queued, marked.queued = f.queued ++ queued ∧
          queued.filterMap Functor.notice = if f.conn.hasHighWaterMarkCallback ∧
              f.conn.backlog.length < f.conn.highWaterMark ∧
              f.conn.highWaterMark ≤ next.conn.backlog.length then
            [.highWaterMarkCallback next.conn.backlog.length] else [] := by
    refine ⟨_, rfl, ?_⟩
    rw [hold, hnew]
    split
    next hcross =>
      rw [if_pos ⟨hcross.2.2, hcross.2.1, hcross.1⟩]
      exact ⟨_, rfl, rfl⟩
    next hcross =>
      rw [if_neg fun h => hcross ⟨h.2.2, h.2.1, h.1⟩]
      exact ⟨[], (List.append_nil _).symm, rfl⟩
  simp only [← hmarked] at hsend
  obtain ⟨outputBuffer, -, hsend⟩ := Except.bind_eq_ok.mp hsend
  refine ⟨queued, ?_, hevents, hnotice⟩
  rw [← hqueued]
  split at hsend
  next =>
    obtain ⟨⟨poller, channel⟩, -, hsend⟩ := Except.bind_eq_ok.mp hsend
    obtain rfl := Except.ok.inj hsend
    rfl
  next =>
    obtain rfl := Except.ok.inj hsend
    rfl

theorem sendInLoop_notes (hf : f.Sound self) (hopen : f.conn.state ≠ .kConnecting)
    {data : List UInt8} (hfits : data.length ≤ maxSize) {result : WriteResult}
    (hsend : sendInLoop self data result f = .ok next) : Notes f next := by
  unfold sendInLoop at hsend
  split at hsend
  next =>
    obtain rfl := Except.ok.inj hsend
    exact .of_same (List.append_nil _).symm rfl (List.append_nil _).symm rfl rfl rfl
  next hclosed =>
    obtain ⟨⟨middle, nwrote, faultError⟩, hwrite, hsend⟩ := Except.bind_eq_ok.mp hsend
    obtain ⟨hconn, hpoller, -⟩ := sendInLoopWrite_ok hf hwrite
    obtain ⟨early, events, hearly, hevents, hnotices, hcomplete⟩ := sendInLoopWrite_notes hwrite
    have hsound : middle.Sound self := by
      refine ⟨?_, ?_, ?_, ?_⟩ <;> rw [hconn]
      · exact hf.input
      · exact hf.output
      · rw [hpoller]
        exact hf.tracks
      · exact hf.mask
    have hstate : middle.conn.Established := by
      rw [hconn]
      unfold Established
      cases hcase : f.conn.state <;> simp_all
    dsimp only at hsend
    split at hsend
    next hrest =>
      obtain ⟨late, hlate, hsame, hmark⟩ := sendInLoopBuffer_notes hsound hstate
        (List.length_pos_iff.mp (by rw [List.length_drop]; simp at hrest; omega))
        (by rw [List.length_drop]; omega) hsend
      refine ⟨early ++ late, events, ?_, hsame.trans hevents, hnotices, ?_⟩
      · rw [hlate, hearly, List.append_assoc]
      · rw [List.filterMap_append, hcomplete, hmark, hconn]
        rfl
    next =>
      obtain rfl := Except.ok.inj hsend
      refine ⟨early, events, hearly, hevents, hnotices, ?_⟩
      have hbelow : ¬ (f.conn.hasHighWaterMarkCallback ∧
          f.conn.backlog.length < f.conn.highWaterMark ∧
          f.conn.highWaterMark ≤ middle.conn.backlog.length) := by
        rw [hconn]
        rintro ⟨-, hlt, hle⟩
        omega
      rw [hcomplete, due, if_neg hbelow, List.append_nil]

/-! ## Other member functions -/

theorem send_notes (hf : f.Sound self) {buf : CppString} {result : WriteResult}
    (hsend : send self true buf.bytes result f = .ok next) : Notes f next := by
  unfold send at hsend
  split at hsend
  next hconnected => exact sendInLoop_notes hf (by rw [hconnected]; decide) buf.fits hsend
  next =>
    obtain rfl := Except.ok.inj hsend
    exact .of_same (List.append_nil _).symm rfl (List.append_nil _).symm rfl rfl rfl

theorem shutdownInLoop_notes (hf : f.Sound self) : Notes f (shutdownInLoop f) := by
  rw [shutdownInLoop_eq hf]
  exact .of_same (List.append_nil _).symm rfl rfl rfl rfl rfl

theorem shutdown_notes (hf : f.Sound self) (inLoopThread : Bool) :
    Notes f (shutdown self inLoopThread f) := by
  unfold shutdown
  split
  next hconnected =>
    cases inLoopThread with
    | true =>
        have hsound : (f.setState .kDisconnecting).Sound self := by
          refine ⟨hf.input, hf.output, hf.tracks, ?_⟩
          have hmask := hf.mask
          rw [hconnected] at hmask
          exact hmask
        simp only [↓reduceIte]
        rw [shutdownInLoop_eq hsound]
        exact .of_same (List.append_nil _).symm rfl rfl rfl rfl rfl
    | false => exact .of_same rfl rfl (List.append_nil _).symm rfl rfl rfl
  next => exact .of_same (List.append_nil _).symm rfl (List.append_nil _).symm rfl rfl rfl

theorem onCallback_notes (hf : f.Sound self) {callback : Callback} {calls : Syscalls}
    (hcallback : onCallback self callback calls f = .ok next) : Notes f next := by
  rcases onCallback_cases hf hcallback with ⟨-, rfl⟩ | ⟨-, hcloses⟩ | ⟨-, hdelivers⟩
  · exact .of_same (List.append_nil _).symm rfl (List.append_nil _).symm rfl rfl rfl
  · exact .of_same (hcloses.queued.trans (List.append_nil _).symm) rfl hcloses.events rfl rfl
      hcloses.backlog
  · exact .of_same (hdelivers.queued.trans (List.append_nil _).symm) rfl hdelivers.events rfl rfl
      hdelivers.backlog

theorem connectEstablished_notes (hf : f.Sound self) (hstate : f.conn.state = .kConnecting)
    (hempty : f.conn.backlog = []) (hestablish : connectEstablished self f = .ok next) :
    Notes f next := by
  obtain ⟨other, hother, -, -, hbacklog, -, hqueued, hevents, -⟩ :=
    connectEstablished_ok hf hstate hempty
  obtain rfl := Except.ok.inj (hother.symm.trans hestablish)
  exact .of_same (hqueued.trans (List.append_nil _).symm) rfl hevents rfl rfl
    (hbacklog.trans hempty.symm)

theorem connectDestroyed_notes (hf : f.Sound self)
    (hdestroy : connectDestroyed self f = .ok next) : Notes f next := by
  obtain ⟨other, hother, -, -, hbacklog, -, hqueued, hevents, -⟩ := connectDestroyed_ok hf
  obtain rfl := Except.ok.inj (hother.symm.trans hdestroy)
  refine .of_same (hqueued.trans (List.append_nil _).symm) rfl hevents ?_ ?_ hbacklog
  · split <;> rfl
  · split <;> rfl

/-- A functor makes its own call, or it is a member function. -/
theorem onFunctor_notes (hf : f.Sound self) {functor : Functor} {result : WriteResult}
    (hadmissible : functor.Admissible self)
    (hestablish : functor = .connectEstablished self ↔ f.conn.state = .kConnecting)
    (hempty : f.conn.state = .kConnecting → f.conn.backlog = [])
    (hfunctor : onFunctor functor result f = .ok next) :
    functor.notice = none ∧ Notes f next ∨
      ∃ event, functor.notice = some event ∧ event.isNotice = true ∧ next = f.emit event := by
  cases functor with
  | connectEstablished conn =>
      obtain rfl : conn = self := hadmissible.1
      have hstate := hestablish.mp rfl
      exact Or.inl ⟨rfl, connectEstablished_notes hf hstate (hempty hstate) hfunctor⟩
  | connectDestroyed conn =>
      obtain rfl : conn = self := hadmissible.1
      exact Or.inl ⟨rfl, connectDestroyed_notes hf hfunctor⟩
  | sendInLoop conn buf =>
      obtain rfl : conn = self := hadmissible.1
      refine Or.inl ⟨rfl, sendInLoop_notes hf (fun hconnecting => ?_)
        (hadmissible.2 buf (List.mem_singleton_self _)) hfunctor⟩
      cases hestablish.mpr hconnecting
  | shutdownInLoop this =>
      obtain rfl := Except.ok.inj hfunctor
      exact Or.inl ⟨rfl, shutdownInLoop_notes hf⟩
  | removeConnectionInLoop conn =>
      obtain rfl := Except.ok.inj hfunctor
      exact Or.inl ⟨rfl, .of_same (List.append_nil _).symm rfl (List.append_nil _).symm rfl rfl rfl⟩
  | writeCompleteCallback conn | highWaterMarkCallback conn len =>
      obtain rfl := Except.ok.inj hfunctor
      exact Or.inr ⟨_, rfl, rfl, rfl⟩

/-! ## Steps -/

namespace System

variable {ptr : ConnId} {s next : System} {action : Action}

/-- The calls made and those queued, in order. -/
def notices (s : System) : List IoEvent :=
  s.events.filter IoEvent.isNotice ++ s.tasks.filterMap (·.functor.notice)

/-- A step owes what its writes and its backlog say, and makes only calls that were queued. -/
structure Owes (s next : System) : Prop where
  notices : ∃ events, next.events = s.events ++ events ∧
    next.notices = s.notices ++ s.conn.due events next.conn.backlog.length

theorem Owes.of_same (htasks : next.tasks.filterMap (·.functor.notice) =
      s.tasks.filterMap (·.functor.notice)) (hevents : next.events = s.events)
    (hbacklog : next.conn.backlog = s.conn.backlog) : s.Owes next := by
  refine ⟨[], by rw [hevents, List.append_nil], ?_⟩
  rw [hbacklog, due_of_same rfl le_rfl, System.notices, htasks, hevents, List.append_nil]
  rfl

theorem Owes.absorb {f : Frame} {old : List Task} (hnotes : Notes s.frame f)
    (hconn : next.conn = f.conn)
    (hold : old.filterMap (·.functor.notice) = s.tasks.filterMap (·.functor.notice))
    (htasks : next.tasks = old ++ f.queued.map (⟨·, none⟩))
    (hevents : next.events = s.events ++ f.events) : s.Owes next := by
  obtain ⟨queued, events, hqueued, hcalls, hnone, hdue⟩ := hnotes.queued
  rw [frame, List.nil_append] at hqueued hcalls
  refine ⟨events, by rw [hevents, hcalls], ?_⟩
  have hnew : (f.queued.map (Task.mk · none)).filterMap (·.functor.notice) =
      s.conn.due events next.conn.backlog.length := by
    rw [List.filterMap_map, hqueued, hconn]
    exact hdue
  rw [System.notices, hevents, hcalls, List.filter_append, hnone, htasks, List.filterMap_append,
    hnew, hold, List.append_nil, ← List.append_assoc]
  rfl

theorem step_owes (hs : s.Invariant ptr) (hstep : step ptr s action = .ok next) : s.Owes next := by
  cases action with
  | send thread buf =>
      obtain ⟨-, hstep⟩ := Except.guard_eq_ok.mp hstep
      split at hstep <;> obtain rfl := Except.ok.inj hstep <;> exact .of_same rfl rfl rfl
  | queueSend thread =>
      obtain ⟨buf, -, rfl⟩ := step_queueSend hstep
      refine .of_same ?_ rfl rfl
      rw [tasks, ← List.append_assoc, List.filterMap_append]
      exact List.append_nil _
  | sendDirect buf result =>
      obtain ⟨f, hsend, rfl⟩ := step_sendDirect hstep
      exact .absorb (send_notes hs.sound hsend) rfl rfl (tasks_absorb s f) rfl
  | shutdown =>
      obtain rfl := Except.ok.inj hstep
      exact .absorb (shutdown_notes hs.sound false) rfl rfl (tasks_absorb s _) rfl
  | shutdownDirect =>
      obtain rfl := Except.ok.inj hstep
      exact .absorb (shutdown_notes hs.sound true) rfl rfl (tasks_absorb s _) rfl
  | setHighWaterMarkCallback | setWriteCompleteCallback | retrieve =>
      obtain rfl := Except.ok.inj hstep
      exact .of_same rfl rfl rfl
  | queueConnectDestroyed =>
      obtain rfl := Except.ok.inj hstep
      refine .of_same ?_ rfl rfl
      rw [tasks, ← List.append_assoc, List.filterMap_append]
      exact List.append_nil _
  | connectDestroyedDirect =>
      obtain ⟨-, f, hdestroy, rfl⟩ := step_connectDestroyedDirect hstep
      exact .absorb (connectDestroyed_notes hs.sound hdestroy) rfl rfl (tasks_absorb s f) rfl
  | poll | handleEvent =>
      obtain ⟨-, hstep⟩ := Except.guard_eq_ok.mp hstep
      obtain rfl := Except.ok.inj hstep
      exact .of_same rfl rfl rfl
  | swap =>
      obtain ⟨hidle, hstep⟩ := Except.guard_eq_ok.mp hstep
      obtain rfl := Except.ok.inj hstep
      refine .of_same ?_ rfl rfl
      rw [tasks, tasks, hidle.2, List.append_nil, List.nil_append]
  | callback calls =>
      obtain ⟨callback, rest, f, -, hcallback, rfl⟩ := step_callback hstep
      exact .absorb (onCallback_notes hs.sound hcallback) rfl rfl (tasks_absorb s f) rfl
  | runFunctor result =>
      obtain ⟨task, rest, hfunctors, -, hexecute⟩ := step_runFunctor hstep
      obtain ⟨f, hfunctor, hconn, -, -, htasks, hevents, -⟩ := execute_eq hexecute
      have hhead : s.tasks = task :: (rest ++ s.pendingFunctors) := by
        rw [tasks, hfunctors, List.cons_append]
      have hmem : task ∈ s.tasks := by simp [hhead]
      have hestablish : task.functor = .connectEstablished ptr ↔ s.conn.state = .kConnecting := by
        refine ⟨fun heq => ?_, fun hconnecting => ?_⟩
        · by_contra hopen
          exact hs.established hopen task hmem heq
        · obtain ⟨others, hothers, -⟩ := (hs.connecting hconnecting).tasks
          rw [hhead, List.cons.injEq] at hothers
          rw [hothers.1]
      rw [tasks_absorb] at htasks
      rcases onFunctor_notes hs.sound (hs.admissible task hmem) hestablish
        (fun hconnecting => (hs.connecting hconnecting).backlog) hfunctor with
        ⟨hother, hnotes⟩ | ⟨event, hnotice, hcall, rfl⟩
      · refine .absorb hnotes hconn ?_ htasks hevents
        rw [hhead]
        simp [tasks, hother]
      · -- the call moves from the queue to the calls made
        have hnone : [event].countP IoEvent.isComplete = 0 := by
          cases event <;> first | rfl | cases hcall
        have hleft : next.conn.backlog = s.conn.backlog := by rw [hconn]; rfl
        refine ⟨[event], hevents, ?_⟩
        rw [due_of_same hnone (by rw [hleft]), List.append_nil, notices, notices, hevents, htasks,
          hhead, List.filter_append]
        simp [frame, Frame.emit, hcall, hnotice, tasks]

end System

/-! ## Settings -/

/-- The callbacks and the mark are as they were. -/
structure SameSettings (c next : TcpConnection) : Prop where
  complete : next.hasWriteCompleteCallback = c.hasWriteCompleteCallback
  water : next.hasHighWaterMarkCallback = c.hasHighWaterMarkCallback
  mark : next.highWaterMark = c.highWaterMark

theorem SameSettings.refl (c : TcpConnection) : SameSettings c c := ⟨rfl, rfl, rfl⟩

theorem SameSettings.of_quiet (hquiet : Frame.Quiet self f next) :
    SameSettings f.conn next.conn := by
  induction hquiet with
  | refl => exact .refl _
  | tail _ hmove ih => cases hmove <;> exact ⟨ih.complete, ih.water, ih.mark⟩

/-- The settings do not depend on the state. -/
theorem SameSettings.of_quiet_setState {state : StateE}
    (hquiet : Frame.Quiet self (f.setState state) next) : SameSettings f.conn next.conn := by
  obtain ⟨hcomplete, hwater, hmark⟩ := SameSettings.of_quiet hquiet
  exact ⟨hcomplete, hwater, hmark⟩

theorem SameSettings.of_shutdown (ptr : ConnId) (inLoopThread : Bool) (f : Frame) :
    SameSettings f.conn (shutdown ptr inLoopThread f).conn := by
  unfold shutdown
  split
  next =>
    cases inLoopThread with
    | true =>
        have hquiet : Frame.Quiet ptr (f.setState .kDisconnecting) _ := shutdownInLoop_quiet _
        exact .of_quiet_setState hquiet
    | false => exact ⟨rfl, rfl, rfl⟩
  next => exact .refl _

namespace System

variable {ptr : ConnId} {s next : System} {action : Action}

/-- The user sets a callback. -/
def Action.isSet : Action → Bool
  | .setHighWaterMarkCallback | .setWriteCompleteCallback => true
  | _ => false

/-- Only the user changes the settings. -/
theorem step_settings (hstep : step ptr s action = .ok next) (hkept : action.isSet = false) :
    SameSettings s.conn next.conn := by
  cases action with
  | send thread buf =>
      obtain ⟨-, hstep⟩ := Except.guard_eq_ok.mp hstep
      split at hstep <;> obtain rfl := Except.ok.inj hstep <;> exact .refl _
  | queueSend thread =>
      obtain ⟨buf, -, rfl⟩ := step_queueSend hstep
      exact .refl _
  | sendDirect buf result =>
      obtain ⟨f, hsend, rfl⟩ := step_sendDirect hstep
      exact .of_quiet (send_quiet hsend)
  | shutdown =>
      obtain rfl := Except.ok.inj hstep
      exact .of_shutdown ptr false s.frame
  | shutdownDirect =>
      obtain rfl := Except.ok.inj hstep
      exact .of_shutdown ptr true s.frame
  | setHighWaterMarkCallback | setWriteCompleteCallback => cases hkept
  | retrieve | queueConnectDestroyed =>
      obtain rfl := Except.ok.inj hstep
      exact ⟨rfl, rfl, rfl⟩
  | connectDestroyedDirect =>
      obtain ⟨-, f, hdestroy, rfl⟩ := step_connectDestroyedDirect hstep
      rcases connectDestroyed_quiet hdestroy with ⟨-, hdown⟩ | ⟨-, hquiet⟩
      · exact .of_quiet_setState hdown.quiet
      · exact .of_quiet hquiet
  | poll | handleEvent | swap =>
      obtain ⟨-, hstep⟩ := Except.guard_eq_ok.mp hstep
      obtain rfl := Except.ok.inj hstep
      exact ⟨rfl, rfl, rfl⟩
  | callback calls =>
      obtain ⟨callback, rest, f, -, hcallback, rfl⟩ := step_callback hstep
      rcases onCallback_quiet hcallback with hquiet | hdown
      · exact .of_quiet hquiet
      · exact .of_quiet_setState hdown.quiet
  | runFunctor result =>
      obtain ⟨task, rest, -, -, hexecute⟩ := step_runFunctor hstep
      obtain ⟨f, hfunctor, hconn, -⟩ := execute_eq hexecute
      rw [hconn]
      rcases onFunctor_quiet hfunctor with ⟨-, -, hquiet⟩ | ⟨-, -, hdown⟩ | ⟨-, -, hquiet⟩
      · exact .of_quiet_setState hquiet
      · exact .of_quiet_setState hdown.quiet
      · exact .of_quiet hquiet

/-! ## Complete writes -/

/-- Bytes that wait to be sent keep the socket from being written. -/
theorem Moves.waits {cause : Cause} {sent : List (List UInt8)} {events : List IoEvent}
    (hmoves : Moves cause s next sent events) (hbacklog : s.conn.backlog ≠ []) :
    ∀ event ∈ events, event.isWrite = false := by
  have heffect := hmoves.effect
  generalize s.conn.backlog = before, next.conn.backlog = left, s.conn.state = state,
    next.conn.state = after at heffect hbacklog
  cases heffect with
  | message hstate hcase =>
      cases hcase with
      | accepted | dropped | kept => exact absurd rfl hbacklog
      | buffered => simp
  | quiet | refuse | shutdown | writeComplete | highWaterMark | halfClose | shutdownHalfClose
  | close | deliver | establish | destroy | remove => simp [IoEvent.isWrite]

/-- A step writes at most once. -/
theorem Moves.writes_once {cause : Cause} {sent : List (List UInt8)} {events : List IoEvent}
    (hmoves : Moves cause s next sent events) :
    events.Pairwise fun _ later : IoEvent => later.isWrite = false := by
  have heffect := hmoves.effect
  generalize s.conn.backlog = before, next.conn.backlog = left, s.conn.state = state,
    next.conn.state = after at heffect
  cases heffect with
  | message hstate hcase => cases hcase <;> simp
  | quiet | refuse | shutdown | writeComplete | highWaterMark | halfClose | shutdownHalfClose
  | close | deliver | establish | destroy | remove => simp [IoEvent.isWrite]

/-- The connection's writes so far, and what its user has been or will be told of them. -/
structure Announces (s : System) : Prop where
  callback : s.conn.hasWriteCompleteCallback = true
  complete : s.notices.count .writeCompleteCallback = s.events.countP IoEvent.isComplete
  silent : s.events.Pairwise fun earlier later =>
    earlier.isShort = true → later.isWrite = false

theorem step_announces (s : System) (action : Action) (next : System)
    (hs : s.Ordered ptr ∧ s.Announces) (hstep : step ptr s action = .ok next) :
    next.Ordered ptr ∧ next.Announces := by
  obtain ⟨hordered, hannounces⟩ := hs
  refine ⟨step_ordered s action next hordered hstep, ?_, ?_, ?_⟩
  · cases hset : action.isSet with
    | false =>
        rw [(step_settings hstep hset).complete]
        exact hannounces.callback
    | true =>
        cases action <;> cases hset <;> obtain rfl := Except.ok.inj hstep
        · exact hannounces.callback
        · rfl
  · obtain ⟨events, hevents, hnotices⟩ := (step_owes hordered.invariant hstep).notices
    have hmark : (if s.conn.hasHighWaterMarkCallback ∧
          s.conn.backlog.length < s.conn.highWaterMark ∧
          s.conn.highWaterMark ≤ next.conn.backlog.length then
        [IoEvent.highWaterMarkCallback next.conn.backlog.length] else []).count
          .writeCompleteCallback = 0 := by
      split <;> rfl
    rw [hnotices, hevents, due, if_pos hannounces.callback, List.count_append, List.count_append,
      List.count_replicate_self, hmark, hannounces.complete, List.countP_append, Nat.add_zero]
  · obtain ⟨-, sent, events, hmoves⟩ := step_ok hordered.invariant hstep
    rw [hmoves.calls, List.pairwise_append]
    refine ⟨hannounces.silent, ?_, ?_⟩
    · refine hmoves.writes_once.imp ?_
      intro earlier later hlater _
      exact hlater
    · intro earlier hearlier later hlater hshort
      exact hmoves.waits (hordered.backlogged.mpr ⟨earlier, hearlier, hshort⟩) later hlater

variable {loop : LoopId} {name : String} {sockfd : Int} {hasHighWaterMarkCallback : Bool}
  {schedule : List Action}

/-- The write complete callback is made or queued once for each write that takes everything.
After a write that takes less, the socket is never written and the callback never queued
again. -/
theorem complete_writes_announced (hrun : run (step ptr)
      (initial ptr loop name sockfd true hasHighWaterMarkCallback) schedule = .ok s) :
    s.notices.count .writeCompleteCallback = s.events.countP IoEvent.isComplete ∧
      s.events.Pairwise fun earlier later => earlier.isShort = true → later.isWrite = false := by
  have hinitial : (initial ptr loop name sockfd true hasHighWaterMarkCallback).Announces :=
    ⟨rfl, rfl, List.Pairwise.nil⟩
  obtain ⟨-, hannounces⟩ := run_invariant step_announces
    ⟨initial_ordered ptr loop name sockfd true _, hinitial⟩ hrun
  exact ⟨hannounces.complete, hannounces.silent⟩

/-- Two messages: the first is taken whole, the second in part. -/
def sendTwice : List Action :=
  [.swap, .runFunctor (.accepted 0), .sendDirect ⟨[97], by decide⟩ (.accepted 1),
    .sendDirect ⟨[98, 99], by decide⟩ (.accepted 1), .sendDirect ⟨[100], by decide⟩ (.accepted 1)]

theorem complete_writes_announced_sendTwice : ∃ s,
    run (step 0) (initial 0 0 "announced" 5 true false) sendTwice = .ok s ∧
      s.notices.count .writeCompleteCallback = 1 := by
  have hends : ends (fun s => decide (s.events.countP IoEvent.isComplete = 1))
      (run (step 0) (initial 0 0 "announced" 5 true false) sendTwice) = true := by
    decide +kernel
  obtain ⟨s, hrun, hcheck⟩ := exists_of_ends hends
  exact ⟨s, hrun, (complete_writes_announced hrun).1.trans (of_decide_eq_true hcheck)⟩

/-! ## The high water mark -/

/-- The lengths reported to the high water mark callback, made or queued. -/
def reports (s : System) : List Nat := s.notices.filterMap IoEvent.reported

theorem Moves.grows {cause : Cause} {sent : List (List UInt8)} {events : List IoEvent}
    (hmoves : Moves cause s next sent events) :
    s.conn.backlog.length ≤ next.conn.backlog.length := by
  have heffect := hmoves.effect
  generalize s.conn.backlog = before, next.conn.backlog = left, s.conn.state = state,
    next.conn.state = after at heffect
  cases heffect with
  | message hstate hcase => cases hcase <;> simp
  | quiet | refuse | shutdown | writeComplete | highWaterMark | halfClose | shutdownHalfClose
  | close | deliver | establish | destroy | remove => simp

/-- A step reports the backlog that crosses the mark. -/
theorem Owes.reports (howes : s.Owes next) : next.reports = s.reports ++
    if s.conn.hasHighWaterMarkCallback ∧ s.conn.backlog.length < s.conn.highWaterMark ∧
      s.conn.highWaterMark ≤ next.conn.backlog.length then [next.conn.backlog.length] else [] := by
  obtain ⟨events, -, hnotices⟩ := howes.notices
  have hcomplete : (if s.conn.hasWriteCompleteCallback then
      List.replicate (events.countP IoEvent.isComplete) IoEvent.writeCompleteCallback
        else []).filterMap IoEvent.reported = [] := by
    split
    · rw [List.filterMap_replicate]
      rfl
    · rfl
  rw [System.reports, hnotices, due, List.filterMap_append, List.filterMap_append, hcomplete]
  congr 1
  split <;> rfl

/-- Nothing changes the mark, and a callback that is set stays set. -/
theorem step_mark (hmark : s.conn.highWaterMark = defaultHighWaterMark)
    (hstep : step ptr s action = .ok next) :
    next.conn.highWaterMark = defaultHighWaterMark ∧
      (s.conn.hasHighWaterMarkCallback = true → next.conn.hasHighWaterMarkCallback = true) := by
  cases hset : action.isSet with
  | false =>
      obtain ⟨-, hwater, hsame⟩ := step_settings hstep hset
      exact ⟨hsame.trans hmark, fun hcallback => hwater.trans hcallback⟩
  | true =>
      cases action <;> cases hset <;> obtain rfl := Except.ok.inj hstep
      · exact ⟨hmark, fun _ => rfl⟩
      · exact ⟨hmark, id⟩

/-- The mark is reported when it is passed, and then never again. -/
structure Marked (s : System) : Prop where
  threshold : s.conn.highWaterMark = defaultHighWaterMark
  once : s.reports = [] ∨
    ∃ len, s.reports = [len] ∧ defaultHighWaterMark ≤ s.conn.backlog.length

theorem step_marked (s : System) (action : Action) (next : System)
    (hs : s.Ordered ptr ∧ s.Marked) (hstep : step ptr s action = .ok next) :
    next.Ordered ptr ∧ next.Marked := by
  obtain ⟨hordered, hmarked⟩ := hs
  obtain ⟨-, sent, events, hmoves⟩ := step_ok hordered.invariant hstep
  have hgrows := hmoves.grows
  refine ⟨step_ordered s action next hordered hstep, (step_mark hmarked.threshold hstep).1, ?_⟩
  rw [(step_owes hordered.invariant hstep).reports, hmarked.threshold]
  split
  next hcross =>
    rcases hmarked.once with hnone | ⟨len, -, hpast⟩
    · exact Or.inr ⟨_, by rw [hnone, List.nil_append], hcross.2.2⟩
    · exact absurd hpast (Nat.not_le.mpr hcross.2.1)
  next =>
    rw [List.append_nil]
    refine hmarked.once.imp_right ?_
    rintro ⟨len, htold, hpast⟩
    exact ⟨len, htold, hpast.trans hgrows⟩

/-- One step of the run takes the backlog from below the mark to these many bytes. -/
def Crosses (ptr : ConnId) (start : System) (schedule : List Action) (len : Nat) : Prop :=
  ∃ early action late, schedule = early ++ action :: late ∧
    ∃ below above, run (step ptr) start early = .ok below ∧ step ptr below action = .ok above ∧
      below.conn.backlog.length < defaultHighWaterMark ∧ defaultHighWaterMark ≤ len ∧
      above.conn.backlog.length = len

theorem Crosses.cons {rest : List Action} {len : Nat} (hstep : step ptr s action = .ok next)
    (hcrosses : Crosses ptr next rest len) : Crosses ptr s (action :: rest) len := by
  obtain ⟨early, crossing, late, rfl, below, above, hrun, hcross, hlengths⟩ := hcrosses
  exact ⟨action :: early, crossing, late, rfl, below, above,
    run_cons_eq_ok.mpr ⟨next, hstep, hrun⟩, hcross, hlengths⟩

/-- What a run reports once the callback is set. -/
theorem run_reports {start final : System} {schedule : List Action}
    (hstart : start.Ordered ptr ∧ start.Marked)
    (hset : start.conn.hasHighWaterMarkCallback = true)
    (hrun : run (step ptr) start schedule = .ok final) :
    start.conn.backlog.length ≤ final.conn.backlog.length ∧
      ∃ new, final.reports = start.reports ++ new ∧
        if start.conn.backlog.length < defaultHighWaterMark ∧
            defaultHighWaterMark ≤ final.conn.backlog.length then
          ∃ len, new = [len] ∧ Crosses ptr start schedule len
        else new = [] := by
  induction schedule generalizing start with
  | nil =>
      obtain rfl := Except.ok.inj hrun
      refine ⟨le_rfl, [], (List.append_nil _).symm, ?_⟩
      rw [if_neg fun h => absurd h.1 (Nat.not_lt.mpr h.2)]
  | cons action rest ih =>
      obtain ⟨middle, hstep, hrest⟩ := run_cons_eq_ok.mp hrun
      obtain ⟨-, sent, events, hmoves⟩ := step_ok hstart.1.invariant hstep
      have hgrows := hmoves.grows
      have hreports := (step_owes hstart.1.invariant hstep).reports
      rw [hset, hstart.2.threshold] at hreports
      obtain ⟨hgrown, new, hnew, htold⟩ := ih (step_marked _ action _ hstart hstep)
        ((step_mark hstart.2.threshold hstep).2 hset) hrest
      refine ⟨hgrows.trans hgrown, ?_⟩
      rcases Nat.lt_or_ge start.conn.backlog.length defaultHighWaterMark with hbelow | hpast
      · rcases Nat.lt_or_ge middle.conn.backlog.length defaultHighWaterMark with hstill | hreached
        · -- both are below the mark, and a crossing is in the rest
          rw [if_neg fun h => absurd h.2.2 (Nat.not_le.mpr hstill), List.append_nil] at hreports
          refine ⟨new, hreports ▸ hnew, ?_⟩
          by_cases hfinal : defaultHighWaterMark ≤ final.conn.backlog.length
          · rw [if_pos ⟨hstill, hfinal⟩] at htold
            obtain ⟨len, rfl, hcrosses⟩ := htold
            rw [if_pos ⟨hbelow, hfinal⟩]
            exact ⟨len, rfl, hcrosses.cons hstep⟩
          · rw [if_neg fun h => hfinal h.2] at htold ⊢
            exact htold
        · -- this step crosses
          rw [if_pos ⟨rfl, hbelow, hreached⟩] at hreports
          rw [if_neg fun h => absurd h.1 (Nat.not_lt.mpr hreached)] at htold
          refine ⟨[middle.conn.backlog.length], ?_, ?_⟩
          · rw [hnew, htold, hreports, List.append_nil]
          · rw [if_pos ⟨hbelow, hreached.trans hgrown⟩]
            exact ⟨_, rfl, [], action, rest, rfl, start, middle, rfl, hstep, hbelow, hreached, rfl⟩
      · rw [if_neg fun h => absurd h.2.1 (Nat.not_lt.mpr hpast), List.append_nil] at hreports
        rw [if_neg fun h => absurd h.1 (Nat.not_lt.mpr (hpast.trans hgrows))] at htold
        refine ⟨new, hreports ▸ hnew, ?_⟩
        rw [if_neg fun h => absurd h.1 (Nat.not_lt.mpr hpast)]
        exact htold

variable {hasWriteCompleteCallback : Bool} {start : System} {before : List Action}

/-- The high water mark is reported once in the life of a connection, if the callback is set when
the backlog first reaches it, with the length that the backlog then has: never to a callback that
is set later, and never again, since the backlog only grows. -/
theorem highWaterMark_once
    (hbefore : run (step ptr) (initial ptr loop name sockfd hasWriteCompleteCallback
      hasHighWaterMarkCallback) before = .ok start)
    (hset : start.conn.hasHighWaterMarkCallback = true)
    (hrun : run (step ptr) start schedule = .ok s) :
    s.reports.length ≤ 1 ∧ ∃ new, s.reports = start.reports ++ new ∧
      if start.conn.backlog.length < defaultHighWaterMark ∧
          defaultHighWaterMark ≤ s.conn.backlog.length then
        ∃ len, new = [len] ∧ Crosses ptr start schedule len
      else new = [] := by
  have hinitial : (initial ptr loop name sockfd hasWriteCompleteCallback
      hasHighWaterMarkCallback).Marked := ⟨rfl, Or.inl rfl⟩
  have hstart := run_invariant step_marked ⟨initial_ordered ptr loop name sockfd _ _, hinitial⟩
    hbefore
  obtain ⟨-, hmarked⟩ := run_invariant step_marked hstart hrun
  refine ⟨?_, (run_reports hstart hset hrun).2⟩
  rcases hmarked.once with hnone | ⟨len, hone, -⟩
  · rw [hnone]
    exact Nat.zero_le 1
  · rw [hone]
    exact le_rfl

/-- A user sends a message of which the socket takes nothing. -/
theorem step_sendDirect_stores (hs : s.frame.Sound ptr) (hstate : s.conn.state = .kConnected)
    (hempty : s.conn.backlog = []) {buf : CppString} (hbuf : buf.bytes ≠ [])
    (hroom : s.conn.outputBuffer.writerIndex + buf.bytes.length ≤ maxSize) :
    ∃ next, step ptr s (.sendDirect buf (.accepted 0)) = .ok next ∧
      next.conn.backlog = buf.bytes := by
  obtain ⟨f, hsend, hbacklog⟩ := sendInLoop_stores hs (Or.inl hstate) hempty hbuf hroom
  have hdirect : TcpConnection.send ptr true buf.bytes (.accepted 0) s.frame = .ok f := by
    have hconnected : s.frame.conn.state = .kConnected := hstate
    simp only [TcpConnection.send, hconnected, ↓reduceIte, hsend]
  exact ⟨_, Except.bind_eq_ok.mpr ⟨f, hdirect, rfl⟩, hbacklog⟩

/-- As many bytes as the mark. -/
def markful : CppString where
  bytes := List.replicate defaultHighWaterMark 101
  fits := by
    rw [List.length_replicate]
    decide

theorem markful_length : markful.bytes.length = defaultHighWaterMark := List.length_replicate

theorem highWaterMark_once_markful : ∃ s,
    run (step 0) (initial 0 0 "marked" 5 false true)
      ([.swap, .runFunctor (.accepted 0)] ++ [.sendDirect markful (.accepted 0)]) = .ok s ∧
    s.reports = [defaultHighWaterMark] := by
  have hends : ends (fun s => decide ((s.conn.hasHighWaterMarkCallback = true ∧
        s.conn.state = .kConnected) ∧ s.conn.backlog = [] ∧
          s.conn.outputBuffer.writerIndex = Buffer.kCheapPrepend ∧ s.reports = []))
      (run (step 0) (initial 0 0 "marked" 5 false true) [.swap, .runFunctor (.accepted 0)]) =
        true := by
    decide +kernel
  obtain ⟨start, hbefore, hcheck⟩ := exists_of_ends hends
  obtain ⟨⟨hset, hstate⟩, hempty, hindex, hnone⟩ := of_decide_eq_true hcheck
  have hstart : start.Ordered 0 :=
    run_invariant step_ordered (initial_ordered 0 0 "marked" 5 false true) hbefore
  have hbuf : markful.bytes ≠ [] := by
    rw [← List.length_pos_iff, markful_length]
    decide
  have hroom : start.conn.outputBuffer.writerIndex + markful.bytes.length ≤ maxSize := by
    rw [hindex, markful_length]
    decide
  obtain ⟨s, hstep, hbacklog⟩ :=
    step_sendDirect_stores hstart.invariant.sound hstate hempty hbuf hroom
  have hrun : run (step 0) start [.sendDirect markful (.accepted 0)] = .ok s :=
    run_cons_eq_ok.mpr ⟨s, hstep, rfl⟩
  refine ⟨s, run_append.mpr ⟨start, hbefore, hrun⟩, ?_⟩
  obtain ⟨-, new, hreports, htold⟩ := highWaterMark_once hbefore hset hrun
  have hlength : s.conn.backlog.length = defaultHighWaterMark := by
    rw [hbacklog, markful_length]
  have hbelow : start.conn.backlog.length < defaultHighWaterMark := by
    rw [hempty]
    decide
  rw [if_pos ⟨hbelow, hlength.ge⟩] at htold
  obtain ⟨len, rfl, early, action, late, hsplit, below, above, hearly, hcross, -, -, hlen⟩ := htold
  -- the only step is the one that crosses
  cases early with
  | cons head tail => simp at hsplit
  | nil =>
      obtain rfl := Except.ok.inj hearly
      obtain ⟨rfl, -⟩ := List.cons.inj hsplit
      obtain rfl := Except.ok.inj (hcross.symm.trans hstep)
      rw [hreports, hnone, ← hlen, hlength, List.nil_append]

end System

end TcpConnection

end Muduo
