import Muduo.TcpConnection.Spec

/-! # The effect of one call

Seen from outside, a member function moves the connection from a state with a
backlog to another one, accepts messages, and makes calls out of the library.
`Effect` lists all such moves; every member function performs one of them, and
whatever is said about runs of a connection is proved by cases on it.
-/

namespace Muduo

namespace Functor

/-- The connection a functor is bound to. -/
def target : Functor → ConnId
  | .connectEstablished conn | .connectDestroyed conn | .sendInLoop conn _
  | .shutdownInLoop conn | .removeConnectionInLoop conn | .writeCompleteCallback conn
  | .highWaterMarkCallback conn _ => conn

/-- The messages a functor passes to `sendInLoop`. -/
def messages : Functor → List (List UInt8)
  | .sendInLoop _ buf => [buf]
  | _ => []

/-- A functor of this connection whose message is a string. -/
def Admissible (ptr : ConnId) (functor : Functor) : Prop :=
  functor.target = ptr ∧ ∀ buf ∈ functor.messages, buf.length ≤ maxSize

/-- The functors a member function may queue for its own connection. -/
def Follows (ptr : ConnId) (functor : Functor) : Prop :=
  functor.Notifies ptr ∨ functor = .shutdownInLoop ptr

theorem Follows.admissible {ptr : ConnId} {functor : Functor} (hfollows : functor.Follows ptr) :
    functor.Admissible ptr ∧ functor ≠ .connectEstablished ptr ∧ functor.messages = [] := by
  rcases hfollows with hnotifies | rfl
  · cases functor <;> simp_all [Notifies, Admissible, target, messages]
  · simp [Admissible, target, messages]

end Functor

/-- An established connection is registered with the kernel. -/
def Frame.Registered (f : Frame) : Prop :=
  f.conn.Established → f.conn.channel.index = .kAdded

namespace TcpConnection

/-- What kind of member function runs. -/
inductive Cause where
  /-- sending, leaving `kConnected`, notifications -/
  | plain
  /-- `shutdownInLoop` -/
  | halfClose
  /-- `handleClose`, `handleError` or `handleRead` -/
  | react
  /-- `connectEstablished` -/
  | establish
  /-- `connectDestroyed` -/
  | destroy
  deriving DecidableEq, Repr

/-- One move from a state and a backlog to another state and backlog. The two
lists hold the messages passed to `sendInLoop` and the calls made. -/
inductive Effect : Cause → StateE → List UInt8 → List (List UInt8) → List IoEvent → StateE →
    List UInt8 → Prop where
  | quiet (state : StateE) (backlog : List UInt8) :
      Effect .plain state backlog [] [] state backlog
  | message {state : StateE} {data before after : List UInt8} {events : List IoEvent}
      (hstate : state = .kConnected ∨ state = .kDisconnecting)
      (hcase : SendCase data before events after) :
      Effect .plain state before [data] events state after
  | refuse (data backlog : List UInt8) :
      Effect .plain .kDisconnected backlog [data] [] .kDisconnected backlog
  | shutdown (backlog : List UInt8) :
      Effect .plain .kConnected backlog [] [] .kDisconnecting backlog
  | writeComplete (state : StateE) (backlog : List UInt8) :
      Effect .plain state backlog [] [.writeCompleteCallback] state backlog
  | highWaterMark (state : StateE) (backlog : List UInt8) (len : Nat) :
      Effect .plain state backlog [] [.highWaterMarkCallback len] state backlog
  | halfClose (state : StateE) (backlog : List UInt8) :
      Effect .halfClose state backlog [] [.shutdownWrite backlog.length] state backlog
  | shutdownHalfClose (backlog : List UInt8) :
      Effect .halfClose .kConnected backlog [] [.shutdownWrite backlog.length]
        .kDisconnecting backlog
  | close (state : StateE) (backlog : List UInt8) :
      Effect .react state backlog [] [.connectionCallback .kDisconnected, .closeCallback]
        .kDisconnected backlog
  | deliver (state : StateE) (backlog : List UInt8) :
      Effect .react state backlog [] [.messageCallback] state backlog
  | establish :
      Effect .establish .kConnecting [] [] [.connectionCallback .kConnected] .kConnected []
  | destroy (backlog : List UInt8) :
      Effect .destroy .kConnected backlog [] [.connectionCallback .kDisconnected]
        .kDisconnected backlog
  | remove {state : StateE} (backlog : List UInt8) (hstate : state ≠ .kConnected) :
      Effect .destroy state backlog [] [] state backlog

variable {cause : Cause} {state after : StateE} {before left : List UInt8}
  {sent : List (List UInt8)} {events : List IoEvent}

/-- A closed connection stays closed. -/
theorem Effect.stays_disconnected (heffect : Effect cause state before sent events after left)
    (hstate : state = .kDisconnected) : after = .kDisconnected := by
  cases heffect <;> simp_all

/-- No connection becomes connecting again. -/
theorem Effect.stays_open (heffect : Effect cause state before sent events after left)
    (hstate : state ≠ .kConnecting) : after ≠ .kConnecting := by
  cases heffect <;> simp_all

/-- The kind of member function a functor runs. -/
def causeOfFunctor : Functor → Cause
  | .connectEstablished _ => .establish
  | .connectDestroyed _ => .destroy
  | .shutdownInLoop _ => .halfClose
  | _ => .plain

/-- The kind of member function `shutdown` runs at once. -/
def causeOfShutdown (inLoopThread : Bool) (state : StateE) : Cause :=
  if inLoopThread = true ∧ state = .kConnected then .halfClose else .plain

/-- The kind of member function a callback of the channel runs. -/
def causeOfCallback : Callback → Cause
  | .write => .plain
  | _ => .react

theorem plain_ne_destroy : Cause.plain ≠ .destroy := by decide

theorem causeOfShutdown_ne_destroy (inLoopThread : Bool) (state : StateE) :
    causeOfShutdown inLoopThread state ≠ .destroy := by
  unfold causeOfShutdown
  split <;> decide

theorem causeOfCallback_ne_destroy (callback : Callback) :
    causeOfCallback callback ≠ .destroy := by
  cases callback <;> decide

/-! ## Member functions -/

/-- How the registration of the channel follows the state: an open connection
stays registered until it is destroyed, and a closed one is registered only if it
was before, or was closed while it was not registered. -/
structure Reindexes (cause : Cause) (c next : TcpConnection) : Prop where
  added : cause ≠ .destroy → c.channel.index = .kAdded → next.Established →
    next.channel.index = .kAdded
  closed : next.state = .kDisconnected → next.channel.index = .kAdded →
    c.state = .kDisconnected ∧ c.channel.index = .kAdded ∨
      cause = .react ∧ c.channel.index ≠ .kAdded

theorem Reindexes.of_same {cause : Cause} {c next : TcpConnection}
    (hindex : next.channel.index = c.channel.index)
    (hstate : next.state = .kDisconnected → c.state = .kDisconnected) :
    Reindexes cause c next :=
  ⟨fun _ hadded _ => hindex.trans hadded,
    fun hclosed hadded => Or.inl ⟨hstate hclosed, hindex.symm.trans hadded⟩⟩

/-- What every member function guarantees: the invariant, an effect, and that it
queues nothing but notifications and the half-close. -/
structure Performs (ptr : ConnId) (cause : Cause) (sent : List (List UInt8))
    (f next : Frame) : Prop where
  sound : next.Sound ptr
  effect : ∃ events, next.events = f.events ++ events ∧
    Effect cause f.conn.state f.conn.backlog sent events next.conn.state next.conn.backlog
  queued : ∃ queued, next.queued = f.queued ++ queued ∧
    ∀ functor ∈ queued, functor.Follows ptr
  index : Reindexes cause f.conn next.conn
  keeps : f.Extends next

variable {self : ConnId} {f next : Frame}

theorem Performs.quiet (hf : f.Sound self) : Performs self .plain [] f f :=
  ⟨hf, ⟨[], by simp, .quiet _ _⟩, ⟨[], by simp⟩, .of_same rfl id, Frame.Extends.refl f⟩

theorem Closes.performs (hcloses : Closes self f next) : Performs self .react [] f next where
  sound := hcloses.sound
  effect := ⟨_, hcloses.events, by rw [hcloses.state, hcloses.backlog]; exact .close _ _⟩
  queued := ⟨[], by simp [hcloses.queued]⟩
  index := by
    constructor
    · intro _ _ hstate
      rcases hstate with hstate | hstate <;> simp [hcloses.state] at hstate
    · intro _ hadded
      refine Or.inr ⟨rfl, fun hbefore => ?_⟩
      rw [hcloses.index, hbefore] at hadded
      cases hadded
  keeps := hcloses.keeps

theorem Delivers.performs (hdelivers : Delivers self f next) :
    Performs self .react [] f next where
  sound := hdelivers.sound
  effect := ⟨_, hdelivers.events, by rw [hdelivers.state, hdelivers.backlog]; exact .deliver _ _⟩
  queued := ⟨[], by simp [hdelivers.queued]⟩
  index := .of_same (by rw [hdelivers.channel]) (by rw [hdelivers.state]; exact id)
  keeps := hdelivers.keeps

theorem Sends.performs {data : List UInt8} (hstate : f.conn.Established)
    (hsends : Sends self data f next) :
    Performs self .plain [data] f next where
  sound := hsends.sound
  effect := by
    obtain ⟨events, hevents, hcase⟩ := hsends.message
    rw [hsends.state]
    exact ⟨events, hevents, .message hstate hcase⟩
  queued := by
    obtain ⟨queued, hqueued, hnotify⟩ := hsends.notifications
    exact ⟨queued, hqueued, fun functor hmem => Or.inl (hnotify functor hmem)⟩
  index := by
    refine ⟨fun _ hadded _ => hsends.index hadded, fun hclosed => ?_⟩
    rw [hsends.state] at hclosed
    rcases hstate with hstate | hstate <;> simp [hclosed] at hstate
  keeps := hsends.keeps

/-- A queued `sendInLoop` may find its connection closed, but never unopened. -/
theorem sendInLoop_performs (hf : f.Sound self) (hopen : f.conn.state ≠ .kConnecting)
    {data : List UInt8} (hfits : data.length ≤ maxSize) {result : WriteResult}
    (hsend : sendInLoop self data result f = .ok next) :
    Performs self .plain [data] f next ∧ (f.Registered → next.Registered) := by
  by_cases hclosed : f.conn.state = .kDisconnected
  · unfold sendInLoop at hsend
    rw [if_pos hclosed, Except.ok.injEq] at hsend
    subst hsend
    refine ⟨⟨hf, ⟨[], by simp, ?_⟩, ⟨[], by simp⟩, .of_same rfl id, Frame.Extends.refl f⟩, id⟩
    rw [hclosed]
    exact .refuse _ _
  · have hstate : f.conn.Established := by
      unfold Established
      cases hcase : f.conn.state <;> simp_all
    have hsends := sendInLoop_ok hf hstate hfits hsend
    exact ⟨hsends.performs hstate, fun hregistered _ => hsends.index (hregistered hstate)⟩

theorem shutdownInLoop_performs (hf : f.Sound self) :
    Performs self .halfClose [] f (shutdownInLoop f) ∧ (shutdownInLoop f).conn = f.conn := by
  rw [shutdownInLoop_eq hf]
  exact ⟨⟨⟨hf.input, hf.output, hf.tracks, hf.mask⟩, ⟨_, rfl, .halfClose _ _⟩,
    ⟨[], by simp [Frame.emit]⟩, .of_same rfl id, f.extends_emit _⟩, rfl⟩

/-- `shutdown` leaves `kConnected`; on the loop thread it also half-closes. -/
theorem shutdown_performs (hf : f.Sound self) (inLoopThread : Bool) :
    Performs self (causeOfShutdown inLoopThread f.conn.state) [] f
        (shutdown self inLoopThread f) ∧
      (f.Registered → (shutdown self inLoopThread f).Registered) := by
  by_cases hconnected : f.conn.state = .kConnected
  · rw [shutdown, if_pos hconnected, hconnected]
    have hstart : f.Extends (f.setState .kDisconnecting) := { Frame.Extends.refl f with }
    have hsound : (f.setState .kDisconnecting).Sound self := by
      refine ⟨hf.input, hf.output, hf.tracks, ?_⟩
      have hmask := hf.mask
      rw [hconnected] at hmask
      exact hmask
    have hregistered : f.Registered → (f.setState .kDisconnecting).Registered :=
      fun hregistered _ => hregistered (Or.inl hconnected)
    cases inLoopThread with
    | true =>
        simp only [↓reduceIte]
        rw [shutdownInLoop_eq hsound]
        refine ⟨⟨⟨hf.input, hf.output, hf.tracks, hsound.mask⟩, ⟨_, rfl, ?_⟩,
          ⟨[], by simp [Frame.emit, Frame.setState]⟩, .of_same rfl (by rintro ⟨⟩),
          hstart.trans (Frame.extends_emit _ _)⟩,
          hregistered⟩
        rw [hconnected]
        exact .shutdownHalfClose _
    | false =>
        simp only [Bool.false_eq_true, ↓reduceIte]
        refine ⟨⟨⟨hf.input, hf.output, hf.tracks, hsound.mask⟩,
          ⟨[], by simp [Frame.queueInLoop, Frame.setState], ?_⟩,
          ⟨[.shutdownInLoop self], rfl, ?_⟩, .of_same rfl (by rintro ⟨⟩),
          hstart.trans (Frame.extends_queueInLoop _ _)⟩,
          hregistered⟩
        · rw [hconnected]
          exact .shutdown _
        · intro functor hmem
          rw [List.mem_singleton] at hmem
          exact Or.inr hmem
  · rw [shutdown, if_neg hconnected, causeOfShutdown, if_neg (fun hboth => hconnected hboth.2)]
    exact ⟨Performs.quiet hf, id⟩

/-- What a callback of the channel does: the write callback nothing, the close
and error callbacks close, the read callback delivers or closes. -/
theorem onCallback_cases (hf : f.Sound self) {callback : Callback} {calls : Syscalls}
    (hcallback : onCallback self callback calls f = .ok next) :
    callback = .write ∧ next = f ∨ callback ≠ .write ∧ Closes self f next ∨
      callback = .read ∧ Delivers self f next := by
  obtain ⟨closed, hclose, hcloses⟩ := handleClose_ok hf
  cases callback with
  | write =>
      rw [onCallback, handleWrite_eq hf, Except.ok.injEq] at hcallback
      exact Or.inl ⟨rfl, hcallback.symm⟩
  | close =>
      rw [onCallback, hclose, Except.ok.injEq] at hcallback
      exact Or.inr (Or.inl ⟨by decide, hcallback ▸ hcloses⟩)
  | error =>
      rw [onCallback, handleError_eq, hclose, Except.ok.injEq] at hcallback
      exact Or.inr (Or.inl ⟨by decide, hcallback ▸ hcloses⟩)
  | read =>
      rcases handleRead_ok hf hcallback with hdelivers | hcloses
      · exact Or.inr (Or.inr ⟨rfl, hdelivers⟩)
      · exact Or.inr (Or.inl ⟨by decide, hcloses⟩)

theorem onCallback_performs (hf : f.Sound self) {callback : Callback} {calls : Syscalls}
    (hcallback : onCallback self callback calls f = .ok next) :
    Performs self (causeOfCallback callback) [] f next ∧ (f.Registered → next.Registered) := by
  rcases onCallback_cases hf hcallback with ⟨rfl, rfl⟩ | ⟨hother, hcloses⟩ | ⟨rfl, hdelivers⟩
  · exact ⟨Performs.quiet hf, id⟩
  · have hcause : causeOfCallback callback = .react := by
      cases callback with
      | write => exact absurd rfl hother
      | close | error | read => rfl
    rw [hcause]
    refine ⟨hcloses.performs, fun _ hstate => ?_⟩
    rcases hstate with hstate | hstate <;> simp [hcloses.state] at hstate
  · refine ⟨hdelivers.performs, fun hregistered hstate => ?_⟩
    rw [hdelivers.channel]
    apply hregistered
    unfold Established at hstate ⊢
    rw [← hdelivers.state]
    exact hstate

theorem connectEstablished_performs (hf : f.Sound self) (hstate : f.conn.state = .kConnecting)
    (hempty : f.conn.backlog = []) (hestablish : connectEstablished self f = .ok next) :
    Performs self .establish [] f next ∧ next.Registered := by
  obtain ⟨other, hother, hsound, hconnected, hbacklog, hindex, hqueued, hevents, hkeeps⟩ :=
    connectEstablished_ok hf hstate hempty
  rw [hother, Except.ok.injEq] at hestablish
  subst hestablish
  refine ⟨⟨hsound, ⟨_, hevents, ?_⟩, ⟨[], by simp [hqueued]⟩,
    ⟨fun _ _ _ => hindex, fun hclosed => ?_⟩, hkeeps⟩, fun _ => hindex⟩
  · rw [hstate, hempty, hconnected, hbacklog]
    exact .establish
  · rw [hconnected] at hclosed
    cases hclosed

theorem connectDestroyed_performs (hf : f.Sound self)
    (hdestroy : connectDestroyed self f = .ok next) : Performs self .destroy [] f next := by
  obtain ⟨other, hother, hsound, hstate, hbacklog, hindex, hqueued, hevents, hkeeps⟩ :=
    connectDestroyed_ok hf
  rw [hother, Except.ok.injEq] at hdestroy
  subst hdestroy
  refine ⟨hsound, ⟨_, hevents, ?_⟩, ⟨[], by simp [hqueued]⟩,
    ⟨fun hother => absurd rfl hother, fun _ hadded => by simp [hindex] at hadded⟩, hkeeps⟩
  rw [hstate, hbacklog]
  split
  next hconnected =>
    rw [hconnected]
    exact .destroy _
  next hother => exact .remove _ hother

/-- A queued functor finds its connection established, except for the one that
establishes it. -/
theorem onFunctor_performs (hf : f.Sound self) {functor : Functor} {result : WriteResult}
    (hadmissible : functor.Admissible self)
    (hestablish : functor = .connectEstablished self ↔ f.conn.state = .kConnecting)
    (hempty : f.conn.state = .kConnecting → f.conn.backlog = [])
    (hfunctor : onFunctor functor result f = .ok next) :
    Performs self (causeOfFunctor functor) functor.messages f next ∧
      (functor ≠ .connectDestroyed self → f.Registered → next.Registered) := by
  have hopen : functor ≠ .connectEstablished self → f.conn.state ≠ .kConnecting :=
    fun hother hstate => hother (hestablish.mpr hstate)
  cases functor with
  | connectEstablished conn =>
      obtain rfl : conn = self := hadmissible.1
      have hstate := hestablish.mp rfl
      obtain ⟨hperforms, hregistered⟩ :=
        connectEstablished_performs hf hstate (hempty hstate) hfunctor
      exact ⟨hperforms, fun _ _ => hregistered⟩
  | connectDestroyed conn =>
      obtain rfl : conn = self := hadmissible.1
      exact ⟨connectDestroyed_performs hf hfunctor, fun hother => absurd rfl hother⟩
  | sendInLoop conn buf =>
      obtain rfl : conn = self := hadmissible.1
      obtain ⟨hperforms, hregistered⟩ :=
        sendInLoop_performs hf (hopen (by simp)) (hadmissible.2 buf (by simp [Functor.messages]))
          hfunctor
      exact ⟨hperforms, fun _ => hregistered⟩
  | shutdownInLoop this =>
      rw [onFunctor, Except.ok.injEq] at hfunctor
      obtain ⟨hperforms, hconn⟩ := shutdownInLoop_performs hf
      refine ⟨hfunctor ▸ hperforms, fun _ hregistered => ?_⟩
      unfold Frame.Registered at hregistered ⊢
      rw [← hfunctor, hconn]
      exact hregistered
  | removeConnectionInLoop conn =>
      rw [onFunctor, Except.ok.injEq] at hfunctor
      subst hfunctor
      exact ⟨Performs.quiet hf, fun _ => id⟩
  | writeCompleteCallback conn =>
      rw [onFunctor, Except.ok.injEq] at hfunctor
      subst hfunctor
      exact ⟨⟨⟨hf.input, hf.output, hf.tracks, hf.mask⟩, ⟨_, rfl, .writeComplete _ _⟩,
        ⟨[], by simp [Frame.emit]⟩, .of_same rfl id, f.extends_emit _⟩, fun _ => id⟩
  | highWaterMarkCallback conn len =>
      rw [onFunctor, Except.ok.injEq] at hfunctor
      subst hfunctor
      exact ⟨⟨⟨hf.input, hf.output, hf.tracks, hf.mask⟩, ⟨_, rfl, .highWaterMark _ _ _⟩,
        ⟨[], by simp [Frame.emit]⟩, .of_same rfl id, f.extends_emit _⟩, fun _ => id⟩

/-- After any functor the connection is open: the first one establishes it. -/
theorem onFunctor_opens (hf : f.Sound self) {functor : Functor} {result : WriteResult}
    (hestablish : functor = .connectEstablished self ↔ f.conn.state = .kConnecting)
    (hempty : f.conn.state = .kConnecting → f.conn.backlog = [])
    (hperforms : Performs self (causeOfFunctor functor) functor.messages f next)
    (hfunctor : onFunctor functor result f = .ok next) : next.conn.state ≠ .kConnecting := by
  by_cases hconnecting : f.conn.state = .kConnecting
  · obtain rfl := hestablish.mpr hconnecting
    obtain ⟨other, hother, -, hconnected, -⟩ :=
      connectEstablished_ok hf hconnecting (hempty hconnecting)
    rw [onFunctor, hother, Except.ok.injEq] at hfunctor
    rw [← hfunctor, hconnected]
    decide
  · obtain ⟨events, -, heffect⟩ := hperforms.effect
    exact heffect.stays_open hconnecting

end TcpConnection

end Muduo
