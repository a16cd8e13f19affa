import Muduo.TcpConnection.Input
import Muduo.TcpConnection.HalfClose
import Muduo.TcpConnection.Queues

/-! # The example servers

`testserver.cc` and `QPS_testserver.cc`, on one connection. Their callbacks run inside the steps
of the library: `onMessage` takes everything out of the input buffer and may answer it,
`onConnection` and `onWriteComplete` may call `shutdown`. So a run of a server is a run of a
connection, and what its client gets is determined by the texts that `onMessage` was given while
the connection was connected.
-/

open Transition

namespace Muduo

open TcpConnection

/-- What the two servers do differently. -/
structure Application where
  /-- the answer of `onMessage` -/
  answer : CppString → Option CppString
  /-- `onWriteComplete` calls `shutdown` -/
  shutsDown : Bool

namespace Application

/-- `EchoServer` of `testserver.cc`. -/
def echoServer : Application := ⟨some, true⟩

def terminator : List UInt8 := literal "\r\n\r\n"

/-- The answer of `QPS_testserver.cc`. -/
def response : CppString where
  bytes := literal "HTTP/1.1 200 OK\r\n" ++ literal "Content-Type: text/plain\r\n" ++
    literal "Content-Length: 11\r\n" ++ literal "Connection: keep-alive\r\n" ++
    literal "\r\n" ++ literal "Hello World"
  fits := by decide

/-- `EchoServer` of `QPS_testserver.cc`. -/
def qpsServer : Application where
  answer msg := if terminator <:+: msg.bytes then some response else none
  shutsDown := false

end Application

/-- A connection of a server, with the texts that `onMessage` has taken and the state in which
it took them. -/
structure Service where
  inbound : Inbound
  heard : List (StateE × CppString)

/-- The steps of the loop, of the server and of the idle wheel. -/
def TcpConnection.System.Action.byLibrary : System.Action → Bool
  | .poll _ | .handleEvent | .callback _ | .swap | .runFunctor _ | .shutdown | .shutdownDirect
  | .queueConnectDestroyed | .connectDestroyedDirect => true
  | _ => false

namespace Service

def system (s : Service) : System := s.inbound.system

/-- Both servers set a `writeCompleteCallback_` and no `highWaterMarkCallback_`. -/
def initial (ptr loop : ConnId) (name : String) (sockfd : Int) : Service where
  inbound := Inbound.initial ptr loop name sockfd true false
  heard := []

/-- A step of the library, and the result of the `write` that an answer makes. -/
structure Action where
  library : System.Action
  result : WriteResult

variable (app : Application) (ptr : ConnId)

def onMessage (result : WriteResult) (s : Service) : Except Stop Service := do
  let inputBuffer := s.system.conn.inputBuffer
  let (msg, _) ← inputBuffer.retrieveAllAsString
  let msg ← CppString.ofBytes msg
  let inbound ← s.inbound.step ptr (.retrieve inputBuffer.readableBytes)
  let heard := s.heard ++ [(inbound.system.conn.state, msg)]
  match app.answer msg with
  | some reply => return ⟨← inbound.step ptr (.sendDirect reply result), heard⟩
  | none => return ⟨inbound, heard⟩

/-- `shutdown` of the connection, on the thread of its loop. -/
def shutdown (s : Service) : Except Stop Service := do
  return { s with inbound := ← s.inbound.step ptr .shutdownDirect }

/-- The callbacks of the server. -/
def tell (result : WriteResult) (s : Service) : IoEvent → Except Stop Service
  | .messageCallback => s.onMessage app ptr result
  | .connectionCallback state => if state = .kConnected then .ok s else s.shutdown ptr
  | .writeCompleteCallback => if app.shutsDown then s.shutdown ptr else .ok s
  | _ => .ok s

/-- A step of the library calls the server. -/
def step (s : Service) (action : Action) : Except Stop Service :=
  if action.library.byLibrary then do
    let inbound ← s.inbound.step ptr action.library
    Transition.run (tell app ptr action.result) { s with inbound }
      (inbound.system.events.drop s.system.events.length)
  else .error .disabled

end Service

/-! ## Requests -/

/-- The positions at which a word occurs. -/
def occurrences (word : List UInt8) : List UInt8 → Nat
  | [] => 0
  | byte :: rest => occurrences word rest + if word <+: byte :: rest then 1 else 0

theorem occurrences_append (word first second : List UInt8) :
    occurrences word first + occurrences word second ≤ occurrences word (first ++ second) := by
  induction first with
  | nil => simp [occurrences]
  | cons byte rest ih =>
      simp only [List.cons_append, occurrences]
      by_cases hstarts : word <+: byte :: rest
      · have hstays : word <+: byte :: (rest ++ second) :=
          hstarts.trans (List.prefix_append (byte :: rest) second)
        rw [if_pos hstarts, if_pos hstays]
        omega
      · rw [if_neg hstarts]
        omega

theorem occurrences_pos {word text : List UInt8} (hword : word ≠ []) (hfound : word <:+: text) :
    0 < occurrences word text := by
  induction text with
  | nil => exact absurd (List.infix_nil.mp hfound) hword
  | cons byte rest ih =>
      unfold occurrences
      rcases List.infix_cons_iff.mp hfound with hstarts | hlater
      · rw [if_pos hstarts]
        omega
      · have := ih hlater
        omega

/-- Texts that contain a word contain it at different positions. -/
theorem countP_infix_le {word : List UInt8} (hword : word ≠ []) (texts : List (List UInt8)) :
    texts.countP (word <:+: ·) ≤ occurrences word texts.flatten := by
  induction texts with
  | nil => exact Nat.zero_le _
  | cons text rest ih =>
      rw [List.countP_cons, List.flatten_cons]
      have hsplit := occurrences_append word text rest.flatten
      by_cases hfound : word <:+: text
      · have hpos := occurrences_pos hword hfound
        simp only [hfound, decide_true, ↓reduceIte]
        omega
      · simp only [hfound, decide_false, Bool.false_eq_true, ↓reduceIte]
        omega

/-- `QPS_testserver.cc` answers the texts that contain the end of a request. -/
theorem Application.qpsServer_answers (texts : List CppString) :
    (texts.filterMap qpsServer.answer).map CppString.bytes =
      List.replicate ((texts.map CppString.bytes).countP (terminator <:+: ·)) response.bytes := by
  induction texts with
  | nil => rfl
  | cons text rest ih =>
      rw [List.filterMap_cons, List.map_cons, List.countP_cons]
      by_cases hfound : terminator <:+: text.bytes
      · simp only [qpsServer, hfound, ↓reduceIte, decide_true, List.map_cons]
        rw [List.replicate_succ]
        exact congrArg _ ih
      · simp only [qpsServer, hfound, ↓reduceIte, decide_false, Bool.false_eq_true, Nat.add_zero]
        exact ih

/-! ## No messages in the queues -/

theorem Functor.Notifies.messages {ptr : ConnId} {functor : Functor}
    (hnotifies : functor.Notifies ptr) : functor.messages = [] := by
  cases functor with
  | writeCompleteCallback | highWaterMarkCallback => rfl
  | connectEstablished | connectDestroyed | sendInLoop | shutdownInLoop
  | removeConnectionInLoop => exact hnotifies.elim

theorem TcpConnection.Effect.opens {cause : Cause} {state after : StateE}
    {before left : List UInt8} {sent : List (List UInt8)} {events : List IoEvent}
    (heffect : Effect cause state before sent events after left)
    (hafter : after = .kConnected ∨ after = .kConnecting) :
    state = .kConnected ∨ state = .kConnecting := by
  cases heffect <;> simp_all

/-- A closed connection writes nothing. -/
theorem TcpConnection.Effect.closed_silent {cause : Cause} {state after : StateE}
    {before left : List UInt8} {sent : List (List UInt8)} {events : List IoEvent}
    (heffect : Effect cause state before sent events after left)
    (hafter : after = .kDisconnected) : events.flatMap IoEvent.accepted = [] := by
  cases heffect with
  | message hstate hcase => rcases hstate with rfl | rfl <;> cases hafter
  | quiet | refuse | shutdown | writeComplete | highWaterMark | halfClose | shutdownHalfClose
  | close | deliver | establish | destroy | remove => rfl

namespace TcpConnection.System

variable {ptr : ConnId} {s next : System} {action : System.Action}

/-- Nobody but the callbacks of the connection sends. -/
structure Silent (s : System) : Prop where
  tasks : ∀ task ∈ s.tasks, task.functor.messages = []
  calling : ∀ thread, s.calling thread = none

theorem Silent.of_same (hs : s.Silent) (htasks : next.tasks = s.tasks)
    (hcalling : next.calling = s.calling) : next.Silent := by
  refine ⟨?_, ?_⟩
  · rw [htasks]
    exact hs.tasks
  · rw [hcalling]
    exact hs.calling

theorem Silent.absorb (hs : s.Silent) {f : Frame} (htasks : next.tasks = (s.absorb f).tasks)
    (hcalling : next.calling = s.calling)
    (hqueued : ∀ functor ∈ f.queued, functor.messages = []) : next.Silent := by
  refine ⟨fun task hmem => ?_, ?_⟩
  · rcases mem_tasks_absorb htasks hmem with hold | hnew
    · exact hs.tasks task hold
    · exact hqueued task.functor hnew
  · rw [hcalling]
    exact hs.calling

theorem messages_of_keeps {f : Frame} (hkeeps : s.frame.Keeps ptr f) :
    ∀ functor ∈ f.queued, functor.messages = [] := by
  obtain ⟨queued, hqueued, hnotifies⟩ := hkeeps.queued
  rw [hqueued, frame, List.nil_append]
  exact fun functor hmem => (hnotifies functor hmem).messages

/-- Without a fault, what the socket has accepted is a prefix of the executed messages, also when
the connection is closed. -/
def Written (s : System) : Prop :=
  (∀ event ∈ s.events, event.isFault = false) →
    s.events.flatMap IoEvent.accepted <+: s.executed.flatMap Prod.snd

theorem step_written (hs : s.Ordered ptr) (hwritten : s.Written)
    (hstep : step ptr s action = .ok next) : next.Written := by
  intro hfault
  by_cases hclosed : next.conn.state = .kDisconnected
  · obtain ⟨-, sent, events, hmoves⟩ := step_ok hs.invariant hstep
    have hexecuted : s.executed.flatMap Prod.snd <+: next.executed.flatMap Prod.snd := by
      rw [List.flatMap_def, List.flatMap_def, hmoves.messages, List.flatten_append]
      exact List.prefix_append _ _
    rw [hmoves.calls] at hfault ⊢
    rw [List.flatMap_append, hmoves.effect.closed_silent hclosed, List.append_nil]
    exact (hwritten fun event hmem => hfault event (List.mem_append_left _ hmem)).trans hexecuted
  · rw [← (step_ordered _ _ _ hs hstep).streams hclosed hfault]
    exact List.prefix_append _ _

theorem sendDirect_silent (hs : s.Silent) {buf : CppString} {result : WriteResult}
    (hstep : step ptr s (.sendDirect buf result) = .ok next) : next.Silent := by
  obtain ⟨f, hsend, rfl⟩ := step_sendDirect hstep
  exact hs.absorb rfl rfl (messages_of_keeps (send_keeps hsend))

theorem retrieve_silent (hs : s.Silent) {len : Nat}
    (hstep : step ptr s (.retrieve len) = .ok next) : next.Silent := by
  obtain rfl := Except.ok.inj hstep
  exact hs.of_same rfl rfl

/-- The library passes on no message of its own. -/
theorem library_silent (hs : s.Silent) (hlibrary : action.byLibrary = true)
    (hstep : step ptr s action = .ok next) : next.Silent ∧ next.executed = s.executed := by
  cases action with
  | send | queueSend | sendDirect | setHighWaterMarkCallback | setWriteCompleteCallback
  | retrieve => cases hlibrary
  | shutdown =>
      obtain rfl := Except.ok.inj hstep
      refine ⟨hs.absorb rfl rfl ?_, rfl⟩
      rcases shutdown_queues ptr s.frame with ⟨-, hsame⟩ | ⟨-, hqueues⟩
      · rw [hsame]
        exact List.forall_mem_nil _
      · rw [hqueues]
        simp [Frame.queueInLoop, Frame.setState, frame, Functor.messages]
  | shutdownDirect =>
      obtain rfl := Except.ok.inj hstep
      have hkeeps : s.frame.Keeps ptr (TcpConnection.shutdown ptr true s.frame) := shutdown_keeps _
      exact ⟨hs.absorb rfl rfl (messages_of_keeps hkeeps), rfl⟩
  | queueConnectDestroyed =>
      obtain rfl := Except.ok.inj hstep
      refine ⟨⟨fun task hmem => ?_, hs.calling⟩, rfl⟩
      rw [tasks, ← List.append_assoc, List.mem_append, List.mem_singleton] at hmem
      rcases hmem with hold | rfl
      · exact hs.tasks task hold
      · rfl
  | connectDestroyedDirect =>
      obtain ⟨-, f, hdestroy, rfl⟩ := step_connectDestroyedDirect hstep
      exact ⟨hs.absorb rfl rfl (messages_of_keeps (connectDestroyed_keeps hdestroy)), rfl⟩
  | poll revents | handleEvent =>
      obtain ⟨-, hstep⟩ := Except.guard_eq_ok.mp hstep
      obtain rfl := Except.ok.inj hstep
      exact ⟨hs.of_same rfl rfl, rfl⟩
  | callback calls =>
      obtain ⟨callback, rest, f, -, hcallback, rfl⟩ := step_callback hstep
      exact ⟨hs.absorb rfl rfl (messages_of_keeps (onCallback_keeps hcallback)), rfl⟩
  | swap =>
      obtain ⟨hidle, hstep⟩ := Except.guard_eq_ok.mp hstep
      obtain rfl := Except.ok.inj hstep
      refine ⟨hs.of_same ?_ rfl, rfl⟩
      rw [tasks, tasks, hidle.2, List.append_nil, List.nil_append]
  | runFunctor result =>
      obtain ⟨task, rest, hfunctors, -, hexecute⟩ := step_runFunctor hstep
      obtain ⟨f, hfunctor, -, -, hcalling, htasks, -, hexecuted, -⟩ := execute_eq hexecute
      have hrest : ({ s with functors := rest } : System).Silent := by
        refine ⟨fun other hmem => hs.tasks other ?_, hs.calling⟩
        rw [tasks, hfunctors]
        exact List.mem_cons_of_mem _ hmem
      have hnone : task.functor.messages = [] := hs.tasks task (by simp [tasks, hfunctors])
      refine ⟨hrest.absorb htasks hcalling (messages_of_keeps (onFunctor_keeps hfunctor)), ?_⟩
      rw [hexecuted, hnone]
      exact List.append_nil _

end TcpConnection.System

namespace Service

variable {app : Application} {ptr : ConnId} {s next : Service} {result : WriteResult}

/-! ## The callbacks -/

/-- The texts that `onMessage` took while the connection was connected. -/
def heeded (s : Service) : List CppString :=
  (s.heard.filter (·.1 = .kConnected)).map Prod.snd

/-- What is in the input buffer, as a text for `onMessage`. -/
def pending (s : Service) : List (List UInt8) :=
  if s.system.conn.inputBuffer.readable = [] then [] else [s.system.conn.inputBuffer.readable]

theorem pending_of_same
    (hsame : next.system.conn.inputBuffer.readable = s.system.conn.inputBuffer.readable) :
    next.pending = s.pending := by
  rw [pending, hsame, pending]

/-- What the answers have to do with the reads, within a step that has yet to make the calls
`events`. -/
structure Answers (app : Application) (ptr : ConnId) (events : List IoEvent) (s : Service) :
    Prop where
  delivers : s.inbound.Delivers ptr
  ordered : s.system.Ordered ptr
  written : s.system.Written
  silent : s.system.Silent
  heard : s.heard.map (·.2.bytes) ++ s.pending = s.inbound.received
  told : events.count .messageCallback = s.pending.length
  answered : s.system.executed.map Prod.snd = (s.heeded.filterMap app.answer).map CppString.bytes
  early : s.system.conn.state = .kConnected ∨ s.system.conn.state = .kConnecting →
    ∀ text ∈ s.heard, text.1 = .kConnected
  first : s.heard.filter (·.1 = .kConnected) <+: s.heard
  opened : events ≠ [] → s.system.conn.state ≠ .kConnecting
  closing : app.shutsDown = true → .writeCompleteCallback ∈ s.system.events →
    .writeCompleteCallback ∈ events ∨ s.system.conn.state ≠ .kConnected

theorem initial_answers (app : Application) (ptr loop : ConnId) (name : String) (sockfd : Int) :
    (initial ptr loop name sockfd).Answers app ptr [] where
  delivers := Inbound.initial_delivers ..
  ordered := System.initial_ordered ..
  written := fun _ => List.prefix_refl _
  silent := by
    refine ⟨fun task hmem => ?_, fun _ => rfl⟩
    rw [List.mem_singleton.mp hmem]
    rfl
  heard := rfl
  told := rfl
  answered := rfl
  early := fun _ _ hmem => absurd hmem List.not_mem_nil
  first := List.prefix_refl _
  opened := fun hevents => absurd rfl hevents
  closing := fun _ hmem => absurd hmem List.not_mem_nil

/-- Between two steps the input buffer is empty. -/
theorem Answers.settled (hs : s.Answers app ptr []) :
    s.system.conn.inputBuffer.readable = [] ∧ s.pending = [] := by
  have hnone : s.pending = [] := List.length_eq_zero_iff.mp hs.told.symm
  refine ⟨?_, hnone⟩
  unfold pending at hnone
  split at hnone
  next hempty => exact hempty
  next => cases hnone

/-- A step of the connection that sends and takes nothing. -/
theorem Answers.library (hs : s.Answers app ptr []) {action : System.Action}
    (hlibrary : action.byLibrary = true) {inbound : Inbound}
    (hstep : s.inbound.step ptr action = .ok inbound) :
    ({ s with inbound } : Service).Answers app ptr
      (inbound.system.events.drop s.system.events.length) := by
  obtain ⟨hsystem, hreceived, -⟩ := Inbound.step_eq_ok hstep
  obtain ⟨hsilent, hexecuted⟩ := System.library_silent hs.silent hlibrary hsystem
  have hbefore : s.inbound.system.Invariant ptr := hs.ordered.invariant
  have hfeeds := System.step_feeds hbefore hsystem
  have htaken : s.inbound.system.taken action = [] := by
    cases action <;> first | rfl | cases hlibrary
  obtain ⟨hinvariant, sent, events, hmoves⟩ := System.step_ok hbefore hsystem
  have hnew : inbound.system.events.drop s.system.events.length = events := by
    rw [hmoves.calls, system, List.drop_left]
  obtain ⟨hempty, hnone⟩ := hs.settled
  have hreadable : inbound.system.conn.inputBuffer.readable =
      s.inbound.system.delivered action := by
    have hbytes := hfeeds.bytes
    rw [htaken, List.nil_append] at hbytes
    rw [hbytes, show s.inbound.system.conn.inputBuffer.readable = [] from hempty, List.nil_append]
  have hpending : ({ s with inbound } : Service).pending =
      if s.inbound.system.delivered action = [] then []
      else [s.inbound.system.delivered action] := by
    simp only [pending, system, hreadable]
  rw [hnew]
  constructor
  · exact Inbound.step_delivers _ _ _ hs.delivers hstep
  · exact System.step_ordered _ _ _ hs.ordered hsystem
  · exact System.step_written hs.ordered hs.written hsystem
  · exact hsilent
  · rw [hpending, hreceived, ← hs.heard, hnone, List.append_nil]
  · have htold := hfeeds.told
    rw [hmoves.calls, List.count_append, Nat.add_left_cancel_iff] at htold
    rw [htold, hpending]
    split <;> rfl
  · rw [system, hexecuted]
    exact hs.answered
  · exact fun hopen => hs.early (hmoves.effect.opens hopen)
  · exact hs.first
  · intro hevents hconnecting
    have hnever := (hinvariant.connecting hconnecting).events
    rw [hmoves.calls] at hnever
    exact hevents (List.append_eq_nil_iff.mp hnever).2
  · intro hshuts hmem
    rw [system, hmoves.calls, List.mem_append] at hmem
    refine hmem.symm.imp_right fun hold hconnected => ?_
    have hclosed := (hs.closing hshuts hold).resolve_left List.not_mem_nil
    have hconnecting := (hmoves.effect.opens (Or.inl hconnected)).resolve_left hclosed
    rw [(hbefore.connecting hconnecting).events] at hold
    exact absurd hold List.not_mem_nil

/-- A callback that leaves the connection alone. -/
theorem Answers.skip {event : IoEvent} {rest : List IoEvent}
    (hs : s.Answers app ptr (event :: rest))
    (hmessage : event ≠ .messageCallback)
    (hcomplete : app.shutsDown = true → event ≠ .writeCompleteCallback) :
    s.Answers app ptr rest where
  delivers := hs.delivers
  ordered := hs.ordered
  written := hs.written
  silent := hs.silent
  heard := hs.heard
  told := by rw [← hs.told, List.count_cons_of_ne hmessage]
  answered := hs.answered
  early := hs.early
  first := hs.first
  opened := fun _ => hs.opened (List.cons_ne_nil _ _)
  closing := fun hshuts hmem => (hs.closing hshuts hmem).imp_left fun hcons =>
    (List.mem_cons.mp hcons).resolve_left (hcomplete hshuts).symm

/-- A callback that calls `shutdown`. -/
theorem Answers.shutdown {event : IoEvent} {rest : List IoEvent}
    (hs : s.Answers app ptr (event :: rest)) (hmessage : event ≠ .messageCallback)
    (hshutdown : s.shutdown ptr = .ok next) : next.Answers app ptr rest := by
  obtain ⟨inbound, hstep, hnext⟩ := Except.bind_eq_ok.mp hshutdown
  obtain rfl := Except.ok.inj hnext
  obtain ⟨hsystem, hreceived, -⟩ := Inbound.step_eq_ok hstep
  obtain ⟨hsilent, hexecuted⟩ := System.library_silent hs.silent rfl hsystem
  obtain ⟨-, sent, events, hmoves⟩ := System.step_ok hs.ordered.invariant hsystem
  have hopen := hs.opened (List.cons_ne_nil _ _)
  have hreadable : inbound.system.conn.inputBuffer.readable =
      s.system.conn.inputBuffer.readable :=
    (System.step_feeds hs.ordered.invariant hsystem).bytes.trans (List.append_nil _)
  have hpending : ({ s with inbound } : Service).pending = s.pending := pending_of_same hreadable
  constructor
  · exact Inbound.step_delivers _ _ _ hs.delivers hstep
  · exact System.step_ordered _ _ _ hs.ordered hsystem
  · exact System.step_written hs.ordered hs.written hsystem
  · exact hsilent
  · rw [hpending, hreceived, hs.heard]
    exact (List.append_nil _).symm
  · rw [hpending, ← hs.told, List.count_cons_of_ne hmessage]
  · rw [system, hexecuted]
    exact hs.answered
  · exact fun hearly => hs.early (hmoves.effect.opens hearly)
  · exact hs.first
  · exact fun _ => hmoves.effect.stays_open hopen
  · refine fun _ _ => Or.inr fun hconnected => ?_
    have hbefore := (hmoves.effect.opens (Or.inl hconnected)).resolve_right hopen
    exact System.not_open_shutdownDirect hbefore hsystem (Or.inr hconnected)

theorem heeded_append (s : Service) (inbound : Inbound) (state : StateE) (msg : CppString) :
    heeded ⟨inbound, s.heard ++ [(state, msg)]⟩ =
      s.heeded ++ if state = .kConnected then [msg] else [] := by
  unfold heeded
  rw [List.filter_append, List.map_append]
  by_cases hconnected : state = .kConnected <;> simp [hconnected]

/-- A text is answered if it is heard on a connected connection. -/
theorem Answers.hears {rest : List IoEvent} (hs : s.Answers app ptr (.messageCallback :: rest))
    {msg : CppString} (hmsg : msg.bytes = s.system.conn.inputBuffer.readable) {inbound : Inbound}
    (hdelivers : inbound.Delivers ptr) (hordered : inbound.system.Ordered ptr)
    (hwritten : inbound.system.Written) (hsilent : inbound.system.Silent)
    (hreceived : inbound.received = s.inbound.received)
    (hempty : inbound.system.conn.inputBuffer.readable = [])
    (hstate : inbound.system.conn.state = s.system.conn.state)
    (hexecuted : inbound.system.executed.map Prod.snd = s.system.executed.map Prod.snd ++
      if s.system.conn.state = .kConnected then (app.answer msg).toList.map CppString.bytes else [])
    (hcomplete : s.system.conn.state = .kConnected →
      .writeCompleteCallback ∈ inbound.system.events → .writeCompleteCallback ∈ s.system.events) :
    Answers app ptr rest ⟨inbound, s.heard ++ [(s.system.conn.state, msg)]⟩ := by
  have hopen := hs.opened (List.cons_ne_nil _ _)
  have htold := hs.told
  rw [List.count_cons_self] at htold
  have hpending : s.pending = [msg.bytes] := by
    unfold pending at htold ⊢
    split at htold
    next => cases htold
    next hsome => rw [if_neg hsome, hmsg]
  have hnone : pending ⟨inbound, s.heard ++ [(s.system.conn.state, msg)]⟩ = [] := if_pos hempty
  constructor
  · exact hdelivers
  · exact hordered
  · exact hwritten
  · exact hsilent
  · rw [hnone, hreceived, ← hs.heard, hpending, List.map_append, List.append_nil]
    rfl
  · rw [hpending] at htold
    rw [hnone]
    exact Nat.succ.inj htold
  · rw [heeded_append, system, hexecuted, hs.answered]
    by_cases hconnected : s.system.conn.state = .kConnected
    · cases hanswer : app.answer msg <;> simp [hconnected, hanswer]
    · simp [hconnected]
  · intro hearly text hmem
    rw [system, hstate] at hearly
    have hconnected := hearly.resolve_right hopen
    rcases List.mem_append.mp hmem with hold | hnew
    · exact hs.early (Or.inl hconnected) text hold
    · rw [List.mem_singleton.mp hnew]
      exact hconnected
  · dsimp only
    rw [List.filter_append]
    by_cases hconnected : s.system.conn.state = .kConnected
    · have hall : s.heard.filter (·.1 = .kConnected) = s.heard := by
        rw [List.filter_eq_self]
        exact fun text hmem => decide_eq_true (hs.early (Or.inl hconnected) text hmem)
      simp [hall, hconnected]
    · have hignored : [(s.system.conn.state, msg)].filter (·.1 = .kConnected) = [] := by
        simp [hconnected]
      rw [hignored, List.append_nil]
      exact hs.first.trans (List.prefix_append _ _)
  · exact fun _ => by rwa [system, hstate]
  · intro hshuts hmem
    by_cases hconnected : s.system.conn.state = .kConnected
    · have hcons := hs.closing hshuts (hcomplete hconnected hmem)
      exact hcons.imp (fun hcons => (List.mem_cons.mp hcons).resolve_left (by rintro ⟨⟩))
        (absurd hconnected)
    · exact Or.inr (by rwa [system, hstate])

/-- What is sent is not reported as written in the same call. -/
theorem not_writeComplete {cause : Cause} {state after : StateE} {before left : List UInt8}
    {sent : List (List UInt8)} {events : List IoEvent}
    (heffect : Effect cause state before sent events after left) (hsent : sent ≠ []) :
    .writeCompleteCallback ∉ events := by
  cases heffect with
  | message hstate hcase => cases hcase <;> simp
  | refuse => exact List.not_mem_nil
  | quiet | shutdown | writeComplete | highWaterMark | halfClose | shutdownHalfClose | close
  | deliver | establish | destroy | remove => exact absurd rfl hsent

theorem sendDirect_state {state : System} {after : System} {buf : CppString}
    (hstep : System.step ptr state (.sendDirect buf result) = .ok after) :
    after.conn.state = state.conn.state := by
  obtain ⟨f, hsend, rfl⟩ := System.step_sendDirect hstep
  exact (send_quiet hsend).state

/-- `onMessage` empties the input buffer, and answers if the connection is connected. -/
theorem Answers.onMessage {rest : List IoEvent} (hs : s.Answers app ptr (.messageCallback :: rest))
    (hmessage : s.onMessage app ptr result = .ok next) : next.Answers app ptr rest := by
  have hinput : s.system.conn.inputBuffer.Valid := hs.delivers.invariant.sound.input
  obtain ⟨⟨text, rest⟩, htext, hmessage⟩ := Except.bind_eq_ok.mp hmessage
  rw [hinput.retrieveAllAsString_eq] at htext
  obtain ⟨rfl, -⟩ := Prod.mk.inj (Except.ok.inj htext)
  obtain ⟨msg, hmsg, hmessage⟩ := Except.bind_eq_ok.mp hmessage
  have hbytes := CppString.ofBytes_ok hmsg
  obtain ⟨middle, hretrieve, hmessage⟩ := Except.bind_eq_ok.mp hmessage
  have hdelivers := Inbound.step_delivers _ _ _ hs.delivers hretrieve
  obtain ⟨hsystem, hreceived, -⟩ := Inbound.step_eq_ok hretrieve
  have hordered := System.step_ordered _ _ _ hs.ordered hsystem
  have hwritten := System.step_written hs.ordered hs.written hsystem
  have hsilent := System.retrieve_silent hs.silent hsystem
  have hreceived : middle.received = s.inbound.received := hreceived.trans (List.append_nil _)
  -- the whole content is taken
  have htaken : s.system.taken (.retrieve s.system.conn.inputBuffer.readableBytes) =
      s.system.conn.inputBuffer.readable := by
    rw [System.taken, ← hinput.readable_length]
    exact List.take_length
  have hempty : middle.system.conn.inputBuffer.readable = [] := by
    have hfeeds := (System.step_feeds hs.ordered.invariant hsystem).bytes
    rw [htaken] at hfeeds
    exact List.append_cancel_left hfeeds
  have hsame : middle.system = { s.system with conn := middle.system.conn } ∧
      middle.system.conn.state = s.system.conn.state := by
    rw [← Except.ok.inj hsystem]
    exact ⟨rfl, rfl⟩
  obtain ⟨hsame, hstate⟩ := hsame
  have hexecuted : middle.system.executed = s.system.executed := by rw [hsame]
  have hevents : middle.system.events = s.system.events := by rw [hsame]
  dsimp only at hmessage
  rw [hstate] at hmessage
  split at hmessage
  next reply hanswer =>
    obtain ⟨inbound, hsend, hmessage⟩ := Except.bind_eq_ok.mp hmessage
    obtain rfl := Except.ok.inj hmessage
    have hsentDelivers := Inbound.step_delivers _ _ _ hdelivers hsend
    obtain ⟨hsent, hreceivedSame, -⟩ := Inbound.step_eq_ok hsend
    obtain ⟨-, sent, events, hmoves⟩ := System.step_ok hordered.invariant hsent
    have hexecutedSent : inbound.system.executed.map Prod.snd = s.system.executed.map Prod.snd ++
        if s.system.conn.state = .kConnected then [reply.bytes] else [] := by
      obtain ⟨f, -, hnext⟩ := System.step_sendDirect hsent
      rw [hnext]
      dsimp only
      rw [hstate, hexecuted]
      split <;> simp
    refine hs.hears hbytes hsentDelivers (System.step_ordered _ _ _ hordered hsent)
      (System.step_written hordered hwritten hsent) (System.sendDirect_silent hsilent hsent)
      ?_ ?_ ((sendDirect_state hsent).trans hstate) ?_ ?_
    · rw [hreceivedSame, hreceived]
      exact List.append_nil _
    · exact ((System.step_feeds hordered.invariant hsent).bytes.trans (List.append_nil _)).trans
        hempty
    · rw [hexecutedSent, hanswer]
      rfl
    · intro hconnected hmem
      have hsome : sent = [reply.bytes] := by
        have hmessages := hmoves.messages
        rw [hexecutedSent, if_pos hconnected, hexecuted] at hmessages
        exact (List.append_cancel_left hmessages).symm
      rw [hmoves.calls, hevents, List.mem_append] at hmem
      refine hmem.resolve_right (not_writeComplete hmoves.effect ?_)
      rw [hsome]
      exact List.cons_ne_nil _ _
  next hanswer =>
    obtain rfl := Except.ok.inj hmessage
    refine hs.hears hbytes hdelivers hordered hwritten hsilent hreceived hempty hstate ?_ ?_
    · rw [hexecuted, hanswer]
      simp
    · exact fun _ hmem => hevents ▸ hmem

theorem Answers.tell {event : IoEvent} {rest : List IoEvent}
    (hs : s.Answers app ptr (event :: rest)) (htell : s.tell app ptr result event = .ok next) :
    next.Answers app ptr rest := by
  cases event with
  | messageCallback => exact hs.onMessage htell
  | connectionCallback state =>
      simp only [Service.tell] at htell
      split at htell
      next =>
        obtain rfl := Except.ok.inj htell
        exact hs.skip (by rintro ⟨⟩) (by rintro - ⟨⟩)
      next => exact hs.shutdown (by rintro ⟨⟩) htell
  | writeCompleteCallback =>
      simp only [Service.tell] at htell
      split at htell
      next => exact hs.shutdown (by rintro ⟨⟩) htell
      next hleaves =>
        obtain rfl := Except.ok.inj htell
        exact hs.skip (by rintro ⟨⟩) fun hshuts => absurd hshuts hleaves
  | write | shutdownWrite | highWaterMarkCallback | closeCallback =>
      obtain rfl := Except.ok.inj htell
      exact hs.skip (by rintro ⟨⟩) (by rintro - ⟨⟩)

theorem Answers.tells {events : List IoEvent} (hs : s.Answers app ptr events)
    (hrun : run (Service.tell app ptr result) s events = .ok next) : next.Answers app ptr [] := by
  induction events generalizing s with
  | nil =>
      rw [run_nil, Except.ok.injEq] at hrun
      exact hrun ▸ hs
  | cons event rest ih =>
      obtain ⟨middle, htell, hrest⟩ := run_cons_eq_ok.mp hrun
      exact ih (hs.tell htell) hrest

theorem step_answers (s : Service) (action : Action) (next : Service) (hs : s.Answers app ptr [])
    (hstep : s.step app ptr action = .ok next) : next.Answers app ptr [] := by
  obtain ⟨hlibrary, hstep⟩ := Except.guard_eq_ok.mp hstep
  obtain ⟨inbound, hinbound, hrun⟩ := Except.bind_eq_ok.mp hstep
  exact (hs.library hlibrary hinbound).tells hrun

/-! ## After the shutdown -/

/-- The connection has been established and is no longer connected. -/
def Shut (s : Service) : Prop :=
  ¬ (s.system.conn.state = .kConnected ∨ s.system.conn.state = .kConnecting)

/-- No step of the connection opens it again. -/
theorem Shut.inbound {inbound other : Inbound} {action : System.Action}
    (hs : inbound.system.Ordered ptr)
    (hshut : ¬ (inbound.system.conn.state = .kConnected ∨
      inbound.system.conn.state = .kConnecting))
    (hstep : inbound.step ptr action = .ok other) :
    ¬ (other.system.conn.state = .kConnected ∨ other.system.conn.state = .kConnecting) := by
  obtain ⟨hsystem, -⟩ := Inbound.step_eq_ok hstep
  obtain ⟨-, sent, events, hmoves⟩ := System.step_ok hs.invariant hsystem
  exact fun hopen => hshut (hmoves.effect.opens hopen)

/-- A message that `onMessage` is called with on a closed connection is not answered. -/
theorem Shut.onMessage (hs : s.system.Ordered ptr) (hshut : s.Shut)
    (hmessage : s.onMessage app ptr result = .ok next) :
    next.Shut ∧ next.system.executed = s.system.executed := by
  obtain ⟨⟨text, rest⟩, -, hmessage⟩ := Except.bind_eq_ok.mp hmessage
  obtain ⟨msg, -, hmessage⟩ := Except.bind_eq_ok.mp hmessage
  obtain ⟨middle, hretrieve, hmessage⟩ := Except.bind_eq_ok.mp hmessage
  have hmiddle := Shut.inbound hs hshut hretrieve
  obtain ⟨hsystem, -⟩ := Inbound.step_eq_ok hretrieve
  have hsame : middle.system.executed = s.system.executed := by
    rw [← Except.ok.inj hsystem]
    rfl
  dsimp only at hmessage
  split at hmessage
  next reply hanswer =>
    obtain ⟨inbound, hsend, hmessage⟩ := Except.bind_eq_ok.mp hmessage
    obtain rfl := Except.ok.inj hmessage
    have hordered := System.step_ordered _ _ _ hs hsystem
    refine ⟨Shut.inbound hordered hmiddle hsend, ?_⟩
    obtain ⟨hsent, -⟩ := Inbound.step_eq_ok hsend
    obtain ⟨f, -, hnext⟩ := System.step_sendDirect hsent
    rw [system, hnext, ← hsame]
    exact if_neg fun hconnected => hmiddle (Or.inl hconnected)
  next =>
    obtain rfl := Except.ok.inj hmessage
    exact ⟨hmiddle, hsame⟩

theorem Shut.shutdown (hs : s.system.Ordered ptr) (hsilent : s.system.Silent) (hshut : s.Shut)
    (hshutdown : s.shutdown ptr = .ok next) :
    next.Shut ∧ next.system.executed = s.system.executed := by
  obtain ⟨inbound, hstep, hnext⟩ := Except.bind_eq_ok.mp hshutdown
  obtain rfl := Except.ok.inj hnext
  obtain ⟨hsystem, -⟩ := Inbound.step_eq_ok hstep
  exact ⟨Shut.inbound hs hshut hstep, (System.library_silent hsilent rfl hsystem).2⟩

theorem Shut.tell {event : IoEvent} (hs : s.system.Ordered ptr) (hsilent : s.system.Silent)
    (hshut : s.Shut) (htell : s.tell app ptr result event = .ok next) :
    next.Shut ∧ next.system.executed = s.system.executed := by
  cases event with
  | messageCallback => exact hshut.onMessage hs htell
  | connectionCallback state =>
      simp only [Service.tell] at htell
      split at htell
      next =>
        obtain rfl := Except.ok.inj htell
        exact ⟨hshut, rfl⟩
      next => exact hshut.shutdown hs hsilent htell
  | writeCompleteCallback =>
      simp only [Service.tell] at htell
      split at htell
      next => exact hshut.shutdown hs hsilent htell
      next =>
        obtain rfl := Except.ok.inj htell
        exact ⟨hshut, rfl⟩
  | write | shutdownWrite | highWaterMarkCallback | closeCallback =>
      obtain rfl := Except.ok.inj htell
      exact ⟨hshut, rfl⟩

theorem Shut.tells {events : List IoEvent} (hs : s.Answers app ptr events) (hshut : s.Shut)
    (hrun : run (Service.tell app ptr result) s events = .ok next) :
    next.Shut ∧ next.system.executed = s.system.executed := by
  induction events generalizing s with
  | nil =>
      rw [run_nil, Except.ok.injEq] at hrun
      exact hrun ▸ ⟨hshut, rfl⟩
  | cons event rest ih =>
      obtain ⟨middle, htell, hrest⟩ := run_cons_eq_ok.mp hrun
      obtain ⟨hmiddle, hsame⟩ := hshut.tell hs.ordered hs.silent htell
      rw [← hsame]
      exact ih (hs.tell htell) hmiddle hrest

theorem step_shut {executed : List (Option ThreadId × List UInt8)} (s : Service) (action : Action)
    (next : Service) (hs : s.Answers app ptr [] ∧ s.Shut ∧ s.system.executed = executed)
    (hstep : s.step app ptr action = .ok next) :
    next.Answers app ptr [] ∧ next.Shut ∧ next.system.executed = executed := by
  obtain ⟨hanswers, hshut, hexecuted⟩ := hs
  refine ⟨step_answers s action next hanswers hstep, ?_⟩
  obtain ⟨hlibrary, hstep⟩ := Except.guard_eq_ok.mp hstep
  obtain ⟨inbound, hinbound, hrun⟩ := Except.bind_eq_ok.mp hstep
  obtain ⟨hsystem, -⟩ := Inbound.step_eq_ok hinbound
  obtain ⟨hlast, hsame⟩ := Shut.tells (hanswers.library hlibrary hinbound)
    (Shut.inbound hanswers.ordered hshut hinbound) hrun
  refine ⟨hlast, hsame.trans ?_⟩
  rw [← hexecuted]
  exact (System.library_silent hanswers.silent hlibrary hsystem).2

/-! ## Runs -/

/-- Each text is what one read delivered. -/
theorem Answers.texts (hs : s.Answers app ptr []) :
    s.heard.map (·.2.bytes) = s.inbound.received := by
  rw [← hs.heard, hs.settled.2, List.append_nil]

theorem Answers.heeded_prefix (hs : s.Answers app ptr []) :
    s.heeded.map CppString.bytes <+: s.inbound.received := by
  rw [← hs.texts, heeded, List.map_map]
  exact hs.first.map _

/-- A connected connection has heeded every text. -/
theorem Answers.heeded_all (hs : s.Answers app ptr [])
    (hconnected : s.system.conn.state = .kConnected) :
    s.heeded.map CppString.bytes = s.inbound.received := by
  have hall : s.heard.filter (·.1 = .kConnected) = s.heard := by
    rw [List.filter_eq_self]
    exact fun text hmem => decide_eq_true (hs.early (Or.inl hconnected) text hmem)
  rw [← hs.texts, heeded, hall, List.map_map]
  rfl

variable {loop : LoopId} {name : String} {sockfd : Int} {schedule : List Action}

/-- **The echo server.** Its answers are the first reads, one answer a read, and what the socket
has accepted of them is a prefix of what came; while the connection is connected, all that came is
accepted or buffered. Once a write is reported complete the connection is shut down, and nothing
that comes then is echoed. -/
theorem echo_returns (hrun : run (step Application.echoServer ptr) (initial ptr loop name sockfd)
      schedule = .ok s) :
    s.system.executed.map Prod.snd <+: s.inbound.received ∧
      (.writeCompleteCallback ∈ s.system.events → s.system.conn.state ≠ .kConnected ∧
        ∀ later final, run (step Application.echoServer ptr) s later = .ok final →
          final.system.executed = s.system.executed) ∧
      ((∀ event ∈ s.system.events, event.isFault = false) →
        s.system.events.flatMap IoEvent.accepted <+: s.inbound.received.flatten ∧
        (s.system.conn.state = .kConnected →
          s.system.events.flatMap IoEvent.accepted ++ s.system.conn.backlog =
            s.inbound.received.flatten)) := by
  have hs := run_invariant step_answers (initial_answers _ ptr loop name sockfd) hrun
  have hanswered : s.system.executed.map Prod.snd = s.heeded.map CppString.bytes := by
    rw [hs.answered]
    exact congrArg _ (List.filterMap_some)
  have hfirst : s.system.executed.map Prod.snd <+: s.inbound.received := by
    rw [hanswered]
    exact hs.heeded_prefix
  refine ⟨hfirst, fun hmem => ?_, fun hfault => ⟨?_, fun hconnected => ?_⟩⟩
  · have hclosed := (hs.closing rfl hmem).resolve_left List.not_mem_nil
    have hshut : s.Shut := by
      rintro (hconnected | hconnecting)
      · exact hclosed hconnected
      · have hnever : s.system.events = [] := (hs.ordered.invariant.connecting hconnecting).events
        rw [hnever] at hmem
        exact List.not_mem_nil hmem
    refine ⟨hclosed, fun later final hlater => ?_⟩
    exact (run_invariant step_shut ⟨hs, hshut, rfl⟩ hlater).2.2
  · refine (hs.written hfault).trans ?_
    rw [List.flatMap_def]
    exact hfirst.flatten
  · rw [hs.ordered.streams (by rw [hconnected]; rintro ⟨⟩) hfault, List.flatMap_def, hanswered,
      hs.heeded_all hconnected]

/-- One read of each text, on an established connection; every write is accepted whole. -/
def reads : List (List UInt8) → List Action
  | [] => []
  | bytes :: rest => [
      ⟨.poll EPOLLIN, .accepted 0⟩, ⟨.handleEvent, .accepted 0⟩,
      ⟨.callback ⟨.received bytes, .other 0, .accepted 0⟩, .accepted bytes.length⟩] ++ reads rest

def establish : List Action := [⟨.swap, .accepted 0⟩, ⟨.runFunctor (.accepted 0), .accepted 0⟩]

/-- The first answer is reported complete. -/
def echoWhole : List Action :=
  establish ++ reads [[104, 105]] ++
    [⟨.swap, .accepted 0⟩, ⟨.runFunctor (.accepted 0), .accepted 0⟩]

/-- The second read comes after the report. -/
theorem echo_returns_thenRead : ∃ s final,
    run (step Application.echoServer 0) (initial 0 0 "plain" 5) echoWhole = .ok s ∧
      run (step Application.echoServer 0) s (reads [[33]]) = .ok final ∧
      final.inbound.received = [[104, 105], [33]] ∧
      final.system.executed = [(none, [104, 105])] ∧ final.system.conn.state ≠ .kConnected ∧
      final.system.events.flatMap IoEvent.accepted <+: [104, 105, 33] := by
  have hends : ends (fun final => decide (final.inbound.received = [[104, 105], [33]] ∧
      .writeCompleteCallback ∈ final.system.events ∧
      ∀ event ∈ final.system.events, event.isFault = false))
      (run (step Application.echoServer 0) (initial 0 0 "plain" 5) (echoWhole ++ reads [[33]])) =
        true := by
    decide +kernel
  obtain ⟨final, hrun, hcheck⟩ := exists_of_ends hends
  obtain ⟨hreceived, hcomplete, hfault⟩ := of_decide_eq_true hcheck
  have hbefore : ends (fun s => decide (s.system.executed = [(none, [104, 105])] ∧
      .writeCompleteCallback ∈ s.system.events))
      (run (step Application.echoServer 0) (initial 0 0 "plain" 5) echoWhole) = true := by
    decide +kernel
  obtain ⟨s, hfirst, hlater⟩ := run_append.mp hrun
  obtain ⟨other, hother, hcheck⟩ := exists_of_ends hbefore
  obtain rfl := Except.ok.inj (hfirst.symm.trans hother)
  obtain ⟨hexecuted, htold⟩ := of_decide_eq_true hcheck
  have hsilent := ((echo_returns hfirst).2.1 htold).2 _ final hlater
  obtain ⟨-, hclosing, hwritten⟩ := echo_returns hrun
  obtain ⟨hstarts, -⟩ := hwritten hfault
  rw [hreceived] at hstarts
  exact ⟨s, final, hfirst, hlater, hreceived, hsilent.trans hexecuted, (hclosing hcomplete).1,
    hstarts⟩

/-- **The QPS server.** It answers with copies of one response, at most one for each read that
contains the end of a request and so at most one for each request; while the connection is
connected, exactly one for each such read. What the socket has accepted is a prefix of these
copies. -/
theorem qps_answers (hrun : run (step Application.qpsServer ptr) (initial ptr loop name sockfd)
      schedule = .ok s) :
    ∃ count, s.system.executed.map Prod.snd = List.replicate count Application.response.bytes ∧
      count ≤ s.inbound.received.countP (Application.terminator <:+: ·) ∧
      count ≤ occurrences Application.terminator s.inbound.received.flatten ∧
      (s.system.conn.state = .kConnected →
        count = s.inbound.received.countP (Application.terminator <:+: ·)) ∧
      ((∀ event ∈ s.system.events, event.isFault = false) →
        s.system.events.flatMap IoEvent.accepted <+:
          (List.replicate count Application.response.bytes).flatten) := by
  have hs := run_invariant step_answers (initial_answers _ ptr loop name sockfd) hrun
  have hanswered := hs.answered
  rw [Application.qpsServer_answers] at hanswered
  have hle := hs.heeded_prefix.sublist.countP_le (p := (Application.terminator <:+: ·))
  refine ⟨_, hanswered, hle, hle.trans (countP_infix_le (by decide) _), fun hconnected => ?_,
    fun hfault => ?_⟩
  · rw [hs.heeded_all hconnected]
  · rw [← hanswered, ← List.flatMap_def]
    exact hs.written hfault

/-- Two requests in one read, and one that is split between two reads. -/
def splitRequest : List Action :=
  establish ++ reads [Application.terminator ++ Application.terminator, [13, 10], [13, 10]]

theorem qps_answers_splitRequest : ∃ s,
    run (step Application.qpsServer 0) (initial 0 0 "plain" 5) splitRequest = .ok s ∧
      s.system.executed.map Prod.snd = [Application.response.bytes] := by
  have hends : ends (fun s => decide (s.inbound.received =
      [Application.terminator ++ Application.terminator, [13, 10], [13, 10]] ∧
      s.system.conn.state = .kConnected))
      (run (step Application.qpsServer 0) (initial 0 0 "plain" 5) splitRequest) = true := by
    decide +kernel
  obtain ⟨s, hrun, hcheck⟩ := exists_of_ends hends
  obtain ⟨hreceived, hconnected⟩ := of_decide_eq_true hcheck
  obtain ⟨count, hanswers, -, -, hcount, -⟩ := qps_answers hrun
  have hone : count = 1 := by
    rw [hcount hconnected, hreceived]
    decide
  exact ⟨s, hrun, by rw [hanswers, hone]; rfl⟩

end Service

end Muduo
