import Muduo.TcpConnection.Effect

/-! # What a member function is made of

Sending, half-closing and writing the backlog change the buffers and the channel,
queue notifications and make calls out of the library, and leave the state alone.
The other member functions do the same around one store to the state. This holds
in any state of the connection and of the poller, in particular where no invariant
is left.
-/

namespace Muduo

namespace Frame

/-- One move that does not touch the state. -/
inductive QuietMove (ptr : ConnId) : Frame → Frame → Prop where
  | queueInLoop (f : Frame) (functor : Functor) (hnotifies : functor.Notifies ptr) :
      QuietMove ptr f (f.queueInLoop functor)
  | emit (f : Frame) (event : IoEvent) : QuietMove ptr f (f.emit event)
  | channel (f : Frame) (poller : EpollPoller ConnId) (channel : Channel) :
      QuietMove ptr f { f with poller, conn := { f.conn with channel } }
  | inputBuffer (f : Frame) (inputBuffer : Buffer) :
      QuietMove ptr f { f with conn := { f.conn with inputBuffer } }
  | outputBuffer (f : Frame) (outputBuffer : Buffer) :
      QuietMove ptr f { f with conn := { f.conn with outputBuffer } }

/-- Any number of such moves. -/
def Quiet (ptr : ConnId) : Frame → Frame → Prop := Relation.ReflTransGen (QuietMove ptr)

variable {ptr : ConnId} {f middle next : Frame}

theorem QuietMove.quiet (hmove : QuietMove ptr f next) : Quiet ptr f next :=
  Relation.ReflTransGen.single hmove

theorem Quiet.refl (f : Frame) : Quiet ptr f f := Relation.ReflTransGen.refl

theorem Quiet.trans (hfirst : Quiet ptr f middle) (hsecond : Quiet ptr middle next) :
    Quiet ptr f next :=
  Relation.ReflTransGen.trans hfirst hsecond

theorem Quiet.onChannel
    {op : EpollPoller ConnId → ConnId → Channel → Except Stop (EpollPoller ConnId × Channel)}
    {self : ConnId} (hop : f.onChannel op self = .ok next) : Quiet ptr f next := by
  unfold Frame.onChannel at hop
  obtain ⟨⟨poller, channel⟩, -, hop⟩ := Except.bind_eq_ok.mp hop
  obtain rfl := Except.ok.inj hop
  exact (QuietMove.channel f poller channel).quiet

theorem Quiet.write {offered : List UInt8} {result : WriteResult}
    (hwrite : f.write offered result = .ok next) : Quiet ptr f next := by
  unfold Frame.write at hwrite
  cases result with
  | accepted count =>
      obtain ⟨-, hwrite⟩ := Except.guard_eq_ok.mp hwrite
      obtain rfl := Except.ok.inj hwrite
      exact (QuietMove.emit f _).quiet
  | failed errno =>
      obtain rfl := Except.ok.inj hwrite
      exact (QuietMove.emit f _).quiet

theorem Quiet.state (hquiet : Quiet ptr f next) : next.conn.state = f.conn.state := by
  induction hquiet with
  | refl => rfl
  | tail _ hmove ih => cases hmove <;> exact ih

theorem Quiet.events (hquiet : Quiet ptr f next) : f.events <+: next.events := by
  induction hquiet with
  | refl => exact List.prefix_refl _
  | tail _ hmove ih =>
      cases hmove with
      | emit => exact ih.trans (List.prefix_append _ _)
      | queueInLoop | channel | inputBuffer | outputBuffer => exact ih

/-- The connection is closed, and its user is told. -/
structure GoesDown (ptr : ConnId) (f next : Frame) : Prop where
  quiet : Quiet ptr (f.setState .kDisconnected) next
  told : .connectionCallback .kDisconnected ∈ next.events

theorem GoesDown.state (hdown : GoesDown ptr f next) : next.conn.state = .kDisconnected :=
  hdown.quiet.state

end Frame

open Muduo.Frame

namespace TcpConnection

variable {self : ConnId} {f next : Frame}

theorem sendInLoopWrite_quiet {data : List UInt8} {result : WriteResult} {nwrote : Nat}
    {faultError : Bool}
    (hsend : sendInLoopWrite self data result f = .ok (next, nwrote, faultError)) :
    Quiet self f next := by
  unfold sendInLoopWrite at hsend
  split at hsend
  next =>
    obtain ⟨written, hwritten, hsend⟩ := Except.bind_eq_ok.mp hsend
    apply Quiet.trans (Quiet.write hwritten)
    cases result with
    | accepted count =>
        dsimp only at hsend
        split at hsend
        next =>
          obtain ⟨rfl, -⟩ := Prod.mk.inj (Except.ok.inj hsend)
          exact (QuietMove.queueInLoop written (.writeCompleteCallback self) rfl).quiet
        next =>
          obtain ⟨rfl, -⟩ := Prod.mk.inj (Except.ok.inj hsend)
          exact .refl written
    | failed errno =>
        obtain ⟨rfl, -⟩ := Prod.mk.inj (Except.ok.inj hsend)
        exact .refl written
  next =>
    obtain ⟨rfl, -⟩ := Prod.mk.inj (Except.ok.inj hsend)
    exact .refl f

theorem sendInLoopBuffer_quiet {rest : List UInt8}
    (hsend : sendInLoopBuffer self rest f = .ok next) : Quiet self f next := by
  unfold sendInLoopBuffer at hsend
  obtain ⟨marked, hmarked, hquiet⟩ :
      ∃ marked, marked = (if f.conn.outputBuffer.readableBytes + rest.length ≥
            f.conn.highWaterMark ∧ f.conn.outputBuffer.readableBytes < f.conn.highWaterMark ∧
            f.conn.hasHighWaterMarkCallback then
          f.queueInLoop (.highWaterMarkCallback self
            (f.conn.outputBuffer.readableBytes + rest.length)) else f) ∧
        Quiet self f marked := by
    refine ⟨_, rfl, ?_⟩
    split
    · exact (QuietMove.queueInLoop f (.highWaterMarkCallback self _) rfl).quiet
    · exact .refl f
  simp only [← hmarked] at hsend
  obtain ⟨outputBuffer, -, hsend⟩ := Except.bind_eq_ok.mp hsend
  refine hquiet.trans ((QuietMove.outputBuffer marked outputBuffer).quiet.trans ?_)
  split at hsend
  next => exact .onChannel hsend
  next =>
    obtain rfl := Except.ok.inj hsend
    exact .refl _

theorem sendInLoop_quiet {data : List UInt8} {result : WriteResult}
    (hsend : sendInLoop self data result f = .ok next) : Quiet self f next := by
  unfold sendInLoop at hsend
  split at hsend
  next =>
    obtain rfl := Except.ok.inj hsend
    exact .refl f
  next =>
    obtain ⟨⟨middle, nwrote, faultError⟩, hwrite, hsend⟩ := Except.bind_eq_ok.mp hsend
    apply (sendInLoopWrite_quiet hwrite).trans
    dsimp only at hsend
    split at hsend
    next => exact sendInLoopBuffer_quiet hsend
    next =>
      obtain rfl := Except.ok.inj hsend
      exact .refl middle

/-- Called on the loop thread, `send` leaves the state alone. -/
theorem send_quiet {buf : List UInt8} {result : WriteResult}
    (hsend : send self true buf result f = .ok next) : Quiet self f next := by
  unfold send at hsend
  split at hsend
  next => exact sendInLoop_quiet hsend
  next =>
    obtain rfl := Except.ok.inj hsend
    exact .refl f

theorem shutdownInLoop_quiet (f : Frame) : Quiet self f (shutdownInLoop f) := by
  unfold shutdownInLoop
  split
  next => exact (QuietMove.emit f _).quiet
  next => exact .refl f

theorem handleWrite_quiet {result : WriteResult}
    (hwrite : handleWrite self result f = .ok next) : Quiet self f next := by
  unfold handleWrite at hwrite
  split at hwrite
  next =>
    obtain ⟨offered, -, hwrite⟩ := Except.bind_eq_ok.mp hwrite
    obtain ⟨written, hwritten, hwrite⟩ := Except.bind_eq_ok.mp hwrite
    apply Quiet.trans (Quiet.write hwritten)
    cases result with
    | failed errno =>
        obtain rfl := Except.ok.inj hwrite
        exact .refl written
    | accepted n =>
        dsimp only at hwrite
        split at hwrite
        next =>
          apply (QuietMove.outputBuffer written _).quiet.trans
          split at hwrite
          next =>
            obtain ⟨disabled, hdisabled, hwrite⟩ := Except.bind_eq_ok.mp hwrite
            refine Quiet.trans (Quiet.onChannel hdisabled) ?_
            obtain rfl := Except.ok.inj hwrite
            have hcomplete : Quiet self disabled
                (if disabled.conn.hasWriteCompleteCallback then
                  disabled.queueInLoop (.writeCompleteCallback self) else disabled) := by
              split
              · exact (QuietMove.queueInLoop disabled (.writeCompleteCallback self) rfl).quiet
              · exact .refl disabled
            have hlast (last : Frame) : Quiet self last
                (if last.conn.state = .kDisconnecting then shutdownInLoop last else last) := by
              split
              · exact shutdownInLoop_quiet last
              · exact .refl last
            exact hcomplete.trans (hlast _)
          next =>
            obtain rfl := Except.ok.inj hwrite
            exact .refl _
        next =>
          obtain rfl := Except.ok.inj hwrite
          exact .refl written
  next =>
    obtain rfl := Except.ok.inj hwrite
    exact .refl f

/-! ## Member functions that store the state -/

/-- The state the connection has after `shutdown`. -/
theorem shutdown_state (ptr : ConnId) (inLoopThread : Bool) (f : Frame) :
    (shutdown ptr inLoopThread f).conn.state =
      if f.conn.state = .kConnected then .kDisconnecting else f.conn.state := by
  unfold shutdown
  split
  next =>
    cases inLoopThread with
    | true =>
        have hquiet : (f.setState .kDisconnecting).Quiet ptr _ := shutdownInLoop_quiet _
        exact hquiet.state
    | false => rfl
  next => rfl

theorem connectEstablished_quiet (hestablish : connectEstablished self f = .ok next) :
    Quiet self (f.setState .kConnected) next := by
  unfold connectEstablished at hestablish
  obtain ⟨enabled, henabled, hestablish⟩ := Except.bind_eq_ok.mp hestablish
  obtain rfl := Except.ok.inj hestablish
  apply (QuietMove.channel (f.setState .kConnected) f.poller
    { f.conn.channel with tied := true }).quiet.trans
  exact (Quiet.onChannel henabled).trans (QuietMove.emit enabled _).quiet

theorem handleClose_quiet (hclose : handleClose self f = .ok next) : GoesDown self f next := by
  unfold handleClose at hclose
  obtain ⟨cleared, hcleared, hclose⟩ := Except.bind_eq_ok.mp hclose
  obtain rfl := Except.ok.inj hclose
  have hquiet : (f.setState .kDisconnected).Quiet self cleared := .onChannel hcleared
  have hstate : cleared.conn.state = .kDisconnected := hquiet.state
  constructor
  · exact hquiet.trans ((QuietMove.emit cleared _).quiet.trans (QuietMove.emit _ _).quiet)
  · simp [emit, hstate]

/-- Only a connected connection goes down with `connectDestroyed`. -/
theorem connectDestroyed_quiet (hdestroy : connectDestroyed self f = .ok next) :
    f.conn.state = .kConnected ∧ GoesDown self f next ∨
      f.conn.state ≠ .kConnected ∧ Quiet self f next := by
  unfold connectDestroyed at hdestroy
  dsimp only at hdestroy
  split at hdestroy
  next hconnected =>
    obtain ⟨cleared, hcleared, hdestroy⟩ := Except.bind_eq_ok.mp hdestroy
    simp only [pure_bind] at hdestroy
    have hquiet : (f.setState .kDisconnected).Quiet self cleared := .onChannel hcleared
    have hstate : cleared.conn.state = .kDisconnected := hquiet.state
    have hremoved : Quiet self (cleared.emit (.connectionCallback cleared.conn.state)) next :=
      .onChannel hdestroy
    refine Or.inl ⟨hconnected, hquiet.trans ((QuietMove.emit cleared _).quiet.trans hremoved), ?_⟩
    apply hremoved.events.subset
    simp [emit, hstate]
  next hother =>
    simp only [pure_bind] at hdestroy
    exact Or.inr ⟨hother, .onChannel hdestroy⟩

theorem handleError_quiet {soError : Errno} (herror : handleError self soError f = .ok next) :
    GoesDown self f next := by
  rw [handleError_eq] at herror
  exact handleClose_quiet herror

theorem handleRead_quiet {result : ReadResult} {soError : Errno}
    (hread : handleRead self result soError f = .ok next) :
    Quiet self f next ∨ GoesDown self f next := by
  unfold handleRead at hread
  cases result with
  | failed savedErrno => exact Or.inr (handleError_quiet hread)
  | received bytes =>
      obtain ⟨-, hread⟩ := Except.guard_eq_ok.mp hread
      obtain ⟨inputBuffer, -, hread⟩ := Except.bind_eq_ok.mp hread
      dsimp only at hread
      split at hread
      next =>
        obtain rfl := Except.ok.inj hread
        exact Or.inl ((QuietMove.inputBuffer f inputBuffer).quiet.trans (QuietMove.emit _ _).quiet)
      next =>
        have hdown := handleClose_quiet hread
        refine Or.inr ⟨?_, hdown.told⟩
        -- the store to the state and the new buffer commute
        have hbuffer : QuietMove self (f.setState .kDisconnected) _ :=
          .inputBuffer (f.setState .kDisconnected) inputBuffer
        exact hbuffer.quiet.trans hdown.quiet

theorem onCallback_quiet {callback : Callback} {calls : Syscalls}
    (hcallback : onCallback self callback calls f = .ok next) :
    Quiet self f next ∨ GoesDown self f next := by
  cases callback with
  | close => exact Or.inr (handleClose_quiet hcallback)
  | error => exact Or.inr (handleError_quiet hcallback)
  | read => exact handleRead_quiet hcallback
  | write => exact Or.inl (handleWrite_quiet hcallback)

/-- Only `connectEstablished` and `connectDestroyed` store the state. -/
theorem onFunctor_quiet {functor : Functor} {result : WriteResult}
    (hfunctor : onFunctor functor result f = .ok next) :
    (∃ conn, functor = .connectEstablished conn ∧
      Quiet functor.target (f.setState .kConnected) next) ∨
    (causeOfFunctor functor = .destroy ∧ f.conn.state = .kConnected ∧
      GoesDown functor.target f next) ∨
    ((∀ conn, functor ≠ .connectEstablished conn) ∧
      (causeOfFunctor functor = .destroy → f.conn.state ≠ .kConnected) ∧
      Quiet functor.target f next) := by
  cases functor with
  | connectEstablished conn => exact Or.inl ⟨conn, rfl, connectEstablished_quiet hfunctor⟩
  | connectDestroyed conn =>
      rcases connectDestroyed_quiet hfunctor with ⟨hconnected, hdown⟩ | ⟨hother, hquiet⟩
      · exact Or.inr (Or.inl ⟨rfl, hconnected, hdown⟩)
      · exact Or.inr (Or.inr ⟨nofun, fun _ => hother, hquiet⟩)
  | sendInLoop conn buf => exact Or.inr (Or.inr ⟨nofun, nofun, sendInLoop_quiet hfunctor⟩)
  | shutdownInLoop conn =>
      obtain rfl := Except.ok.inj hfunctor
      exact Or.inr (Or.inr ⟨nofun, nofun, shutdownInLoop_quiet f⟩)
  | removeConnectionInLoop conn =>
      obtain rfl := Except.ok.inj hfunctor
      exact Or.inr (Or.inr ⟨nofun, nofun, .refl f⟩)
  | writeCompleteCallback conn | highWaterMarkCallback conn len =>
      obtain rfl := Except.ok.inj hfunctor
      exact Or.inr (Or.inr ⟨nofun, nofun, (QuietMove.emit f _).quiet⟩)

end TcpConnection

end Muduo
