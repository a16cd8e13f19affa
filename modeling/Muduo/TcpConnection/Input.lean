import Muduo.TcpConnection.Invariant

/-! # The input stream

`handleRead` puts what `readv` delivers behind what `inputBuffer_` still holds, and tells the
user when there is something new. The user takes bytes out when and as many as he likes. No
other member function touches the buffer, so the user gets the bytes of the socket in order,
however the reads and his retrievals interleave with everything else.
-/

open Transition

namespace Muduo

/-- The bytes a read has delivered. -/
def ReadResult.bytes : ReadResult → List UInt8
  | .received bytes => bytes
  | .failed _ => []

theorem Frame.onChannel_input {f next : Frame} {self : ConnId}
    {op : EpollPoller ConnId → ConnId → Channel → Except Stop (EpollPoller ConnId × Channel)}
    (hop : f.onChannel op self = .ok next) : next.conn.inputBuffer = f.conn.inputBuffer := by
  obtain ⟨⟨poller, channel⟩, -, hop⟩ := Except.bind_eq_ok.mp hop
  obtain rfl := Except.ok.inj hop
  rfl

namespace TcpConnection

variable {self : ConnId} {f next : Frame}

/-! ## Member functions -/

theorem sendInLoopBuffer_input {rest : List UInt8}
    (hsend : sendInLoopBuffer self rest f = .ok next) :
    next.conn.inputBuffer = f.conn.inputBuffer := by
  unfold sendInLoopBuffer at hsend
  obtain ⟨marked, hmarked, hconn⟩ :
      ∃ marked, marked = (if f.conn.outputBuffer.readableBytes + rest.length ≥
            f.conn.highWaterMark ∧ f.conn.outputBuffer.readableBytes < f.conn.highWaterMark ∧
            f.conn.hasHighWaterMarkCallback then
          f.queueInLoop (.highWaterMarkCallback self
            (f.conn.outputBuffer.readableBytes + rest.length)) else f) ∧
        marked.conn = f.conn := by
    refine ⟨_, rfl, ?_⟩
    split <;> rfl
  simp only [← hmarked] at hsend
  obtain ⟨outputBuffer, -, hsend⟩ := Except.bind_eq_ok.mp hsend
  rw [← hconn]
  split at hsend
  next => exact (Frame.onChannel_input hsend :)
  next =>
    obtain rfl := Except.ok.inj hsend
    rfl

theorem sendInLoop_input (hf : f.Sound self) {data : List UInt8} {result : WriteResult}
    (hsend : sendInLoop self data result f = .ok next) :
    next.conn.inputBuffer = f.conn.inputBuffer := by
  unfold sendInLoop at hsend
  split at hsend
  next =>
    obtain rfl := Except.ok.inj hsend
    rfl
  next =>
    obtain ⟨⟨middle, nwrote, faultError⟩, hwrite, hsend⟩ := Except.bind_eq_ok.mp hsend
    obtain ⟨hconn, -⟩ := sendInLoopWrite_ok hf hwrite
    dsimp only at hsend
    split at hsend
    next => rw [sendInLoopBuffer_input hsend, hconn]
    next =>
      obtain rfl := Except.ok.inj hsend
      rw [hconn]

theorem send_input (hf : f.Sound self) {buf : List UInt8} {result : WriteResult}
    (hsend : send self true buf result f = .ok next) :
    next.conn.inputBuffer = f.conn.inputBuffer := by
  unfold send at hsend
  split at hsend
  next => exact sendInLoop_input hf hsend
  next =>
    obtain rfl := Except.ok.inj hsend
    rfl

theorem shutdownInLoop_input (f : Frame) :
    (shutdownInLoop f).conn.inputBuffer = f.conn.inputBuffer := by
  unfold shutdownInLoop
  split <;> rfl

theorem shutdown_input (self : ConnId) (inLoopThread : Bool) (f : Frame) :
    (shutdown self inLoopThread f).conn.inputBuffer = f.conn.inputBuffer := by
  unfold shutdown
  split
  next =>
    cases inLoopThread with
    | true => exact shutdownInLoop_input (f.setState .kDisconnecting)
    | false => rfl
  next => rfl

theorem connectEstablished_input (hestablish : connectEstablished self f = .ok next) :
    next.conn.inputBuffer = f.conn.inputBuffer := by
  obtain ⟨enabled, henabled, hestablish⟩ := Except.bind_eq_ok.mp hestablish
  obtain rfl := Except.ok.inj hestablish
  exact (Frame.onChannel_input henabled :)

theorem handleClose_input (hclose : handleClose self f = .ok next) :
    next.conn.inputBuffer = f.conn.inputBuffer := by
  obtain ⟨cleared, hcleared, hclose⟩ := Except.bind_eq_ok.mp hclose
  obtain rfl := Except.ok.inj hclose
  exact (Frame.onChannel_input hcleared :)

theorem connectDestroyed_input (hdestroy : connectDestroyed self f = .ok next) :
    next.conn.inputBuffer = f.conn.inputBuffer := by
  unfold connectDestroyed at hdestroy
  dsimp only at hdestroy
  split at hdestroy
  next =>
    obtain ⟨cleared, hcleared, hdestroy⟩ := Except.bind_eq_ok.mp hdestroy
    simp only [pure_bind] at hdestroy
    rw [Frame.onChannel_input hdestroy]
    exact (Frame.onChannel_input hcleared :)
  next =>
    simp only [pure_bind] at hdestroy
    exact Frame.onChannel_input hdestroy

theorem onFunctor_input (hf : f.Sound self) {functor : Functor} {result : WriteResult}
    (htarget : functor.target = self) (hfunctor : onFunctor functor result f = .ok next) :
    next.conn.inputBuffer = f.conn.inputBuffer := by
  cases functor with
  | connectEstablished conn => exact connectEstablished_input hfunctor
  | connectDestroyed conn => exact connectDestroyed_input hfunctor
  | sendInLoop conn buf =>
      obtain rfl : conn = self := htarget
      exact sendInLoop_input hf hfunctor
  | shutdownInLoop conn =>
      obtain rfl := Except.ok.inj hfunctor
      exact shutdownInLoop_input f
  | removeConnectionInLoop conn | writeCompleteCallback conn | highWaterMarkCallback conn len =>
      obtain rfl := Except.ok.inj hfunctor
      rfl

/-- A read that succeeds puts its bytes behind the others, and the user is told unless there
are none. -/
structure Reads (bytes : List UInt8) (f next : Frame) : Prop where
  readable : next.conn.inputBuffer.readable = f.conn.inputBuffer.readable ++ bytes
  told : next.events.count .messageCallback =
    f.events.count .messageCallback + if bytes = [] then 0 else 1

theorem Closes.reads (hcloses : Closes self f next)
    (hinput : next.conn.inputBuffer = f.conn.inputBuffer) : Reads [] f next where
  readable := by rw [hinput, List.append_nil]
  told := by
    rw [hcloses.events, List.count_append]
    rfl

theorem handleClose_reads (hf : f.Sound self) (hclose : handleClose self f = .ok next) :
    Reads [] f next := by
  obtain ⟨closed, hclosed, hcloses⟩ := handleClose_ok hf
  obtain rfl := Except.ok.inj (hclosed.symm.trans hclose)
  exact hcloses.reads (handleClose_input hclose)

theorem handleRead_reads (hf : f.Sound self) {result : ReadResult} {soError : Errno}
    (hread : handleRead self result soError f = .ok next) : Reads result.bytes f next := by
  cases result with
  | failed savedErrno =>
      rw [handleRead, handleError_eq] at hread
      exact handleClose_reads hf hread
  | received bytes =>
      simp only [handleRead] at hread
      obtain ⟨hlen, hread⟩ := Except.guard_eq_ok.mp hread
      obtain ⟨inputBuffer, hbuffer, hread⟩ := Except.bind_eq_ok.mp hread
      obtain ⟨other, hother, hvalid, hreadable⟩ | ⟨hthrown, -⟩ := hf.input.readFd_reserves hlen
      · obtain rfl := Except.ok.inj (hother.symm.trans hbuffer)
        split at hread
        next hsome =>
          obtain rfl := Except.ok.inj hread
          refine ⟨hreadable, ?_⟩
          have hbytes : bytes ≠ [] := List.length_pos_iff.mp hsome
          simp [Frame.emit, ReadResult.bytes, hbytes]
        next hnone =>
          have hsound : Frame.Sound self { f with conn := { f.conn with inputBuffer := other } } :=
            ⟨hvalid, hf.output, hf.tracks, hf.mask⟩
          have hreads := handleClose_reads hsound hread
          have hbytes : bytes = [] := List.length_eq_zero_iff.mp (Nat.eq_zero_of_not_pos hnone)
          refine ⟨?_, hreads.told.trans ?_⟩
          · rw [hreads.readable, List.append_nil]
            exact hreadable
          · rw [if_pos rfl, ReadResult.bytes, if_pos hbytes]
      · rw [hthrown] at hbuffer
        cases hbuffer

/-- The bytes the callback of a channel receives. -/
def received (callback : Callback) (calls : Syscalls) : List UInt8 :=
  if callback = .read then calls.read.bytes else []

theorem onCallback_reads (hf : f.Sound self) {callback : Callback} {calls : Syscalls}
    (hcallback : onCallback self callback calls f = .ok next) :
    Reads (received callback calls) f next := by
  cases callback with
  | close => exact handleClose_reads hf hcallback
  | error =>
      rw [onCallback, handleError_eq] at hcallback
      exact handleClose_reads hf hcallback
  | read => exact handleRead_reads hf hcallback
  | write =>
      rw [onCallback, handleWrite_eq hf] at hcallback
      obtain rfl := Except.ok.inj hcallback
      exact ⟨(List.append_nil _).symm, rfl⟩

theorem Effect.not_delivers {cause : Cause} {state after : StateE} {before left : List UInt8}
    {sent : List (List UInt8)} {events : List IoEvent}
    (heffect : Effect cause state before sent events after left) (hcause : cause ≠ .react) :
    events.count .messageCallback = 0 := by
  cases heffect with
  | message hstate hcase => cases hcase <;> rfl
  | close | deliver => exact absurd rfl hcause
  | quiet | refuse | shutdown | writeComplete | highWaterMark | halfClose | shutdownHalfClose
  | establish | destroy | remove => rfl

/-! ## Steps -/

namespace System

variable {ptr : ConnId} {s next : System} {action : Action}

/-- The bytes a step receives from the socket. -/
def delivered (s : System) : Action → List UInt8
  | .callback calls =>
      match s.handlers with
      | callback :: _ => TcpConnection.received callback calls
      | [] => []
  | _ => []

/-- The bytes user code takes out. -/
def taken (s : System) : Action → List UInt8
  | .retrieve len => s.conn.inputBuffer.readable.take len
  | _ => []

/-- What a step does to the input buffer. -/
structure Feeds (s : System) (action : Action) (next : System) : Prop where
  bytes : s.taken action ++ next.conn.inputBuffer.readable =
    s.conn.inputBuffer.readable ++ s.delivered action
  told : next.events.count .messageCallback =
    s.events.count .messageCallback + if s.delivered action = [] then 0 else 1

/-- A step that neither receives nor takes anything. -/
theorem Feeds.of_same (hs : s.Invariant ptr) (hstep : step ptr s action = .ok next)
    (hdelivered : s.delivered action = []) (htaken : s.taken action = [])
    (hcause : s.cause action ≠ .react)
    (hinput : next.conn.inputBuffer = s.conn.inputBuffer) : s.Feeds action next := by
  obtain ⟨-, sent, events, hmoves⟩ := step_ok hs hstep
  constructor
  · rw [hdelivered, htaken, hinput, List.nil_append, List.append_nil]
  · rw [hmoves.calls, List.count_append, hmoves.effect.not_delivers hcause, if_pos hdelivered]

theorem plain_ne_react : Cause.plain ≠ .react := by decide

theorem causeOfFunctor_ne_react (functor : Functor) : causeOfFunctor functor ≠ .react := by
  intro hreact
  cases functor <;> cases hreact

theorem causeOfShutdown_ne_react (inLoopThread : Bool) (state : StateE) :
    causeOfShutdown inLoopThread state ≠ .react := by
  unfold causeOfShutdown
  split <;> decide

theorem step_feeds (hs : s.Invariant ptr) (hstep : step ptr s action = .ok next) :
    s.Feeds action next := by
  cases action with
  | callback calls =>
      obtain ⟨callback, rest, f, hhandlers, hcallback, rfl⟩ := step_callback hstep
      have hreads := onCallback_reads hs.sound hcallback
      have hdelivered : s.delivered (.callback calls) = TcpConnection.received callback calls := by
        simp only [delivered, hhandlers]
      constructor
      · rw [hdelivered]
        exact hreads.readable
      · rw [hdelivered, absorb, List.count_append, hreads.told]
        exact congrArg (_ + ·) (Nat.zero_add _)
  | retrieve len =>
      obtain rfl := Except.ok.inj hstep
      have hrest : (s.conn.inputBuffer.retrieve len).readable =
          s.conn.inputBuffer.readable.drop len := Buffer.Valid.readable_retrieve hs.sound.input len
      constructor
      · simp only [taken, delivered, hrest, List.take_append_drop, List.append_nil]
      · rfl
  | send thread buf =>
      refine .of_same hs hstep rfl rfl plain_ne_react ?_
      obtain ⟨-, hstep⟩ := Except.guard_eq_ok.mp hstep
      split at hstep <;> obtain rfl := Except.ok.inj hstep <;> rfl
  | queueSend thread =>
      refine .of_same hs hstep rfl rfl plain_ne_react ?_
      obtain ⟨buf, -, rfl⟩ := step_queueSend hstep
      rfl
  | sendDirect buf result =>
      refine .of_same hs hstep rfl rfl plain_ne_react ?_
      obtain ⟨f, hsend, rfl⟩ := step_sendDirect hstep
      exact send_input hs.sound hsend
  | shutdown =>
      refine .of_same hs hstep rfl rfl plain_ne_react ?_
      obtain rfl := Except.ok.inj hstep
      exact shutdown_input ptr false s.frame
  | shutdownDirect =>
      refine .of_same hs hstep rfl rfl (causeOfShutdown_ne_react true s.conn.state) ?_
      obtain rfl := Except.ok.inj hstep
      exact shutdown_input ptr true s.frame
  | setHighWaterMarkCallback | setWriteCompleteCallback | queueConnectDestroyed =>
      refine .of_same hs hstep rfl rfl plain_ne_react ?_
      obtain rfl := Except.ok.inj hstep
      rfl
  | connectDestroyedDirect =>
      refine .of_same hs hstep rfl rfl (by rintro ⟨⟩) ?_
      obtain ⟨-, f, hdestroy, rfl⟩ := step_connectDestroyedDirect hstep
      exact connectDestroyed_input hdestroy
  | poll | handleEvent | swap =>
      refine .of_same hs hstep rfl rfl plain_ne_react ?_
      obtain ⟨-, hstep⟩ := Except.guard_eq_ok.mp hstep
      obtain rfl := Except.ok.inj hstep
      rfl
  | runFunctor result =>
      obtain ⟨task, rest, hfunctors, -, hexecute⟩ := step_runFunctor hstep
      refine .of_same hs hstep rfl rfl ?_ ?_
      · simp only [cause, hfunctors]
        exact causeOfFunctor_ne_react task.functor
      · obtain ⟨f, hfunctor, hconn, -⟩ := execute_eq hexecute
        have hmem : task ∈ s.tasks := by simp [tasks, hfunctors]
        rw [hconn]
        exact onFunctor_input hs.sound (hs.admissible task hmem).1 hfunctor

end System

/-! ## Runs -/

/-- A connection with what has come from its socket and what its user has got. -/
structure Inbound where
  system : System
  /-- the bytes of every read that delivered some -/
  received : List (List UInt8)
  retrieved : List UInt8

namespace Inbound

def initial (ptr loop : ConnId) (name : String) (sockfd : Int)
    (hasWriteCompleteCallback hasHighWaterMarkCallback : Bool) : Inbound where
  system := System.initial ptr loop name sockfd hasWriteCompleteCallback hasHighWaterMarkCallback
  received := []
  retrieved := []

def step (ptr : ConnId) (s : Inbound) (action : System.Action) : Except Stop Inbound := do
  let system ← System.step ptr s.system action
  let bytes := s.system.delivered action
  return {
    system
    received := s.received ++ if bytes = [] then [] else [bytes]
    retrieved := s.retrieved ++ s.system.taken action }

variable {ptr : ConnId} {s next : Inbound} {action : System.Action}

theorem step_eq_ok (hstep : step ptr s action = .ok next) :
    System.step ptr s.system action = .ok next.system ∧
      next.received =
        s.received ++ (if s.system.delivered action = [] then [] else [s.system.delivered action]) ∧
      next.retrieved = s.retrieved ++ s.system.taken action := by
  obtain ⟨system, hsystem, hstep⟩ := Except.bind_eq_ok.mp hstep
  obtain rfl := Except.ok.inj hstep
  exact ⟨hsystem, rfl, rfl⟩

/-- The user has got a prefix of what came, and the buffer holds the rest. -/
structure Delivers (ptr : ConnId) (s : Inbound) : Prop where
  invariant : s.system.Invariant ptr
  stream : s.retrieved ++ s.system.conn.inputBuffer.readable = s.received.flatten
  told : s.system.events.count .messageCallback = s.received.length

theorem initial_delivers (ptr loop : ConnId) (name : String) (sockfd : Int)
    (hasWriteCompleteCallback hasHighWaterMarkCallback : Bool) :
    (initial ptr loop name sockfd hasWriteCompleteCallback hasHighWaterMarkCallback).Delivers
      ptr where
  invariant := System.initial_invariant ..
  stream := Buffer.initial_readable
  told := rfl

theorem step_delivers (s : Inbound) (action : System.Action) (next : Inbound)
    (hs : s.Delivers ptr) (hstep : step ptr s action = .ok next) : next.Delivers ptr := by
  obtain ⟨hsystem, hreceived, hretrieved⟩ := step_eq_ok hstep
  have hfeeds := System.step_feeds hs.invariant hsystem
  refine ⟨System.step_invariant _ _ _ hs.invariant hsystem, ?_, ?_⟩
  · rw [hretrieved, hreceived, List.append_assoc, hfeeds.bytes, ← List.append_assoc, hs.stream,
      List.flatten_append]
    split
    next hnone => rw [hnone, List.flatten_nil]
    next => rw [List.flatten_singleton]
  · rw [hfeeds.told, hs.told, hreceived, List.length_append]
    split <;> rfl

/-- **Input byte-stream integrity.** In every state of every run the bytes the user has taken
out, followed by those in `inputBuffer_`, are the bytes the reads have delivered, in order; and
the user has been called once for each read that delivered some. -/
theorem input_stream {loop : LoopId} {name : String} {sockfd : Int}
    {hasWriteCompleteCallback hasHighWaterMarkCallback : Bool} {schedule : List System.Action}
    (hrun : run (step ptr) (initial ptr loop name sockfd hasWriteCompleteCallback
      hasHighWaterMarkCallback) schedule = .ok s) :
    s.retrieved ++ s.system.conn.inputBuffer.readable = s.received.flatten ∧
      s.system.events.count .messageCallback = s.received.length := by
  have hs := run_invariant step_delivers (initial_delivers ptr loop name sockfd _ _) hrun
  exact ⟨hs.stream, hs.told⟩

/-- Two bytes come in one read, and the user takes one of them. -/
def readTwo : List System.Action :=
  [.swap, .runFunctor (.accepted 0), .poll EPOLLIN, .handleEvent,
    .callback ⟨.received [104, 105], .other 0, .accepted 0⟩, .retrieve 1]

theorem input_stream_readTwo : ∃ s,
    run (step 0) (initial 0 0 "plain" 5 false false) readTwo = .ok s ∧ s.retrieved = [104] ∧
      s.system.conn.inputBuffer.readable = [105] ∧
      s.system.events.count .messageCallback = 1 := by
  have hends : ends (fun s => decide (s.received = [[104, 105]] ∧ s.retrieved = [104]))
      (run (step 0) (initial 0 0 "plain" 5 false false) readTwo) = true := by decide +kernel
  obtain ⟨s, hrun, hcheck⟩ := exists_of_ends hends
  obtain ⟨hreceived, hretrieved⟩ := of_decide_eq_true hcheck
  obtain ⟨hstream, htold⟩ := input_stream hrun
  rw [hreceived] at hstream htold
  rw [hretrieved] at hstream
  exact ⟨s, hrun, hretrieved, List.cons_injective hstream, htold⟩

end Inbound

end TcpConnection

end Muduo
