import Muduo.TcpConnection.Output
import Muduo.TcpServer.Projection
import Muduo.TcpServer.Traced

/-! # The server simulates its connections

Whatever a running server does looks, from each of its connections, like steps of the system of
that connection alone: at most one step for the own functor or callback, one more where the base
loop queues the destruction, and none for everything else. What is seen of the connection is the
same.
-/

open Transition

namespace Muduo

open TcpConnection

/-! ## Single connections -/

namespace TcpConnection

namespace System

/-- The threads whose messages wait, in the order of the queue. -/
def senders (s : System) : List ThreadId := s.tasks.filterMap Task.sender

/-- The waiting messages are those that a thread has sent. -/
def Tagged (s : System) : Prop :=
  ∀ task ∈ s.tasks, task.sender.isSome = true ↔ task.functor.messages ≠ []

variable {s : System} {ptr : ConnId} {f : Frame}

theorem absorb_senders (s : System) (f : Frame) : (s.absorb f).senders = s.senders := by
  have hnone : (f.queued.map fun functor => (⟨functor, none⟩ : Task)).filterMap Task.sender =
      [] := by
    refine List.filterMap_eq_nil_iff.mpr fun task hmem => ?_
    obtain ⟨functor, -, rfl⟩ := List.mem_map.mp hmem
    rfl
  rw [senders, tasks_absorb, List.filterMap_append, hnone, List.append_nil, senders]

theorem Tagged.absorb (hs : s.Tagged) (ptr : ConnId)
    (hfollows : ∀ functor ∈ f.queued, functor.Follows ptr) : (s.absorb f).Tagged := by
  intro task hmem
  rw [tasks_absorb] at hmem
  rcases List.mem_append.mp hmem with hold | hnew
  · exact hs task hold
  · obtain ⟨functor, hfunctor, rfl⟩ := List.mem_map.mp hnew
    simp [(hfollows functor hfunctor).admissible.2.2]

theorem Tagged.queue (hs : s.Tagged) {task : Task}
    (htask : task.sender.isSome = true ↔ task.functor.messages ≠ []) :
    Tagged { s with pendingFunctors := s.pendingFunctors ++ [task] } := by
  intro other hmem
  rw [tasks, ← List.append_assoc] at hmem
  rcases List.mem_append.mp hmem with hold | hnew
  · exact hs other hold
  · obtain rfl := List.mem_singleton.mp hnew
    exact htask

/-- The functor at the head of the batch is executed. -/
theorem runFunctor_executes (ptr : ConnId) (result : WriteResult) {task : Task} {rest : List Task}
    (hfunctors : s.functors = task :: rest) (hidle : s.Idle)
    (hfunctor : onFunctor task.functor result s.frame = .ok f) :
    ∃ next, step ptr s (.runFunctor result) = .ok next ∧ next.conn = f.conn ∧
      next.pendingFunctors = s.pendingFunctors ++ f.queued.map (⟨·, none⟩) ∧
      next.functors = rest ∧ next.active = s.active ∧ next.handlers = s.handlers ∧
      next.events = s.events ++ f.events ∧ next.called = s.called ∧ next.calling = s.calling ∧
      next.executed = s.executed ++ task.functor.messages.map (task.sender, ·) := by
  obtain ⟨functor, sender⟩ := task
  have hframe : frame { s with functors := rest } = s.frame := rfl
  simp only [step, hfunctors, if_pos hidle, execute, hframe, hfunctor, bind, Except.bind, pure,
    Except.pure]
  cases functor <;>
    exact ⟨_, rfl, rfl, rfl, rfl, rfl, rfl, rfl, rfl, rfl, by simp [Functor.messages, absorb]⟩

/-- The executed functor leaves the queue, and with it the thread that waits for its message. -/
theorem Tagged.runFunctor {next : System} (hs : s.Tagged) (ptr : ConnId) {task : Task}
    {rest : List Task} (hfunctors : s.functors = task :: rest)
    (hpending : next.pendingFunctors = s.pendingFunctors ++ f.queued.map (⟨·, none⟩))
    (hrest : next.functors = rest) (hfollows : ∀ functor ∈ f.queued, functor.Follows ptr) :
    next.Tagged ∧ s.senders = task.sender.toList ++ next.senders := by
  let waiting : System := { s with functors := rest }
  have hall : s.tasks = task :: waiting.tasks := by
    rw [tasks, hfunctors]
    rfl
  have hleft : next.tasks = (waiting.absorb f).tasks := by
    rw [tasks, hrest, hpending]
    rfl
  have hwaiting : waiting.Tagged := fun other hmem =>
    hs other (hall ▸ List.mem_cons_of_mem task hmem)
  constructor
  · rw [Tagged, hleft]
    exact hwaiting.absorb ptr hfollows
  · have hkept : next.senders = waiting.senders := by
      rw [senders, hleft]
      exact absorb_senders waiting f
    rw [hkept, senders, hall, List.filterMap_cons, senders]
    cases task.sender <;> rfl

/-- A message and its thread leave the queue together. -/
theorem head_senders {message : Option (List UInt8)} {sender : Option ThreadId}
    {senders rest : List ThreadId} (hsender : sender.isSome = true ↔ message.toList ≠ [])
    (hsenders : senders = sender.toList ++ rest) :
    (if message.isSome then senders.tail else senders) = rest ∧
      (message.map (senders.head?, ·)).toList = message.toList.map (sender, ·) := by
  cases message <;> cases sender <;> simp_all

end System

namespace Inbound

/-- What has been seen of the connection. -/
def trace (t : Inbound) : Trace where
  received := t.received
  retrieved := t.retrieved
  events := t.system.events
  called := t.system.called
  senders := t.system.senders
  executed := t.system.executed

/-- A handled event runs callbacks of the given kind, and nobody but the loop destroys the
connection. -/
def Handles (kind : List Callback → Prop) (t : Inbound) : TcpConnection.System.Action → Prop
  | .handleEvent => kind t.system.conn.channel.handleEventWithGuard
  | .connectDestroyedDirect => False
  | _ => True

variable {ptr : ConnId} {t : Inbound}

/-- A step leaves the trace that its records make up. -/
theorem step_trace (kind : List Callback → Prop) (action : TcpConnection.System.Action)
    (trace : Trace) {after : TcpConnection.System}
    (hstep : TcpConnection.System.step ptr t.system action = .ok after)
    (hhandles : t.Handles kind action)
    (hreceived : trace.received = t.received ++
      if t.system.delivered action = [] then [] else [t.system.delivered action])
    (hretrieved : trace.retrieved = t.retrieved ++ t.system.taken action)
    (hevents : trace.events = after.events) (hcalled : trace.called = after.called)
    (hsenders : trace.senders = after.senders) (hexecuted : trace.executed = after.executed) :
    ∃ u, Reaches (step ptr) (Handles kind) t u ∧ u.system = after ∧ u.trace = trace := by
  have htaken : step ptr t action = .ok {
      system := after
      received := trace.received
      retrieved := trace.retrieved } := by
    rw [step, hstep, hreceived, hretrieved]
    rfl
  refine ⟨_, .single hhandles htaken, rfl, ?_⟩
  rw [Inbound.trace, ← hevents, ← hcalled, ← hsenders, ← hexecuted]

end Inbound

end TcpConnection

namespace System

variable {s next last : System} {ptr conn : ConnId} {loop : LoopId} {action : Action}
  {kind : List Callback → Prop} {t u v : Inbound} {trace : Trace}

/-- The connection has taken steps after which the server looks like it, and this trace has been
seen. -/
structure Reflects (kind : List Callback → Prop) (ptr : ConnId) (next : System) (trace : Trace)
    (t u : Inbound) : Prop where
  reaches : Reaches (Inbound.step ptr) (Inbound.Handles kind) t u
  projects : next.Projects ptr u.system
  tagged : u.system.Tagged
  trace : u.trace = trace
  calling : u.system.calling = t.system.calling

theorem Reflects.rest (hprojects : next.Projects ptr t.system) (htagged : t.system.Tagged) :
    Reflects kind ptr next t.trace t t :=
  ⟨.refl t, hprojects, htagged, rfl, rfl⟩

theorem Reflects.trans (hfirst : Reflects kind ptr next trace t u)
    (hsecond : Reflects kind ptr last u.trace u v) : Reflects kind ptr last trace t v where
  reaches := hfirst.reaches.trans hsecond.reaches
  projects := hsecond.projects
  tagged := hsecond.tagged
  trace := hsecond.trace.trans hfirst.trace
  calling := hsecond.calling.trans hfirst.calling

/-- The connection takes one step. -/
theorem Reflects.step (kind : List Callback → Prop) (action : TcpConnection.System.Action)
    (trace : Trace) {after : TcpConnection.System}
    (hstep : TcpConnection.System.step ptr t.system action = .ok after)
    (hhandles : t.Handles kind action) (hprojects : next.Projects ptr after)
    (htagged : after.Tagged) (hcalling : after.calling = t.system.calling)
    (hreceived : trace.received = t.received ++
      if t.system.delivered action = [] then [] else [t.system.delivered action])
    (hretrieved : trace.retrieved = t.retrieved ++ t.system.taken action)
    (hevents : trace.events = after.events) (hcalled : trace.called = after.called)
    (hsenders : trace.senders = after.senders) (hexecuted : trace.executed = after.executed) :
    ∃ u, Reflects kind ptr next trace t u := by
  obtain ⟨u, hreaches, rfl, htrace⟩ :=
    Inbound.step_trace kind action trace hstep hhandles hreceived hretrieved hevents hcalled
      hsenders hexecuted
  exact ⟨u, hreaches, hprojects, htagged, htrace, hcalling⟩

/-! ## What a step shows -/

/-- The connection a step may show something of. -/
def subject (s : System) : Action → Option ConnId
  | .newConnection .. => some s.accepted
  | .callback loop _ _ => (s.loops loop).handling.map Prod.fst
  | .runFunctor loop _ => (s.loops loop).functors.head?.map Functor.target
  | .sendDirect conn _ _ | .shutdownDirect conn | .user conn _ => some conn
  | .destroyEntry entry =>
      let conn := ((s.server.timerWheel.release entry).entries entry).conn
      if s.Alive conn then some conn else none
  | _ => none

theorem after_of_silent (houtputs : s.outputs conn action = [])
    (hdelivered : s.delivered conn action = []) (htaken : s.taken conn action = [])
    (hmessage : s.message conn action = none) (hdirect : s.direct conn action = none)
    (trace : Trace) : trace.after s action conn = trace := by
  simp [Trace.after, houtputs, hdelivered, htaken, hmessage, hdirect]

theorem after_of_subject_ne (hother : s.subject action ≠ some conn) (trace : Trace) :
    trace.after s action conn = trace := by
  cases action with
  | newConnection sockfd hasWriteCompleteCallback now =>
      have hne : s.accepted ≠ conn := by simpa [subject] using hother
      have houtputs : s.outputs conn (.newConnection sockfd hasWriteCompleteCallback now) = [] :=
        if_neg fun hnew => hne hnew.1.symm
      exact after_of_silent houtputs rfl rfl rfl rfl trace
  | callback loop calls now =>
      cases hhandling : (s.loops loop).handling with
      | none => simp [Trace.after, outputs, delivered, taken, message, direct, hhandling]
      | some handled =>
          obtain ⟨handled, callbacks⟩ := handled
          have hne : handled ≠ conn := by simpa [subject, hhandling] using hother
          cases callbacks <;>
            simp [Trace.after, outputs, delivered, taken, message, direct, hhandling, hne]
  | runFunctor loop result =>
      cases hfunctors : (s.loops loop).functors with
      | nil => simp [Trace.after, outputs, delivered, taken, message, direct, hfunctors]
      | cons functor rest =>
          have hne : functor.target ≠ conn := by simpa [subject, hfunctors] using hother
          have hmessage : s.message conn (.runFunctor loop result) = none := by
            rw [message, hfunctors]
            split
            next target buf _ hhead =>
              obtain ⟨rfl, -⟩ := List.cons.inj hhead
              exact if_neg hne
            next => rfl
          refine after_of_silent ?_ rfl rfl hmessage rfl trace
          rw [outputs, hfunctors]
          exact if_neg hne
  | sendDirect target buf result =>
      have hne : target ≠ conn := by simpa [subject] using hother
      have houtputs : s.outputs conn (.sendDirect target buf result) = [] := if_neg hne
      have hdirect : s.direct conn (.sendDirect target buf result) = none :=
        if_neg fun hsame => hne hsame.1
      exact after_of_silent houtputs rfl rfl rfl hdirect trace
  | shutdownDirect target =>
      have hne : target ≠ conn := by simpa [subject] using hother
      have houtputs : s.outputs conn (.shutdownDirect target) = [] := if_neg hne
      exact after_of_silent houtputs rfl rfl rfl rfl trace
  | user target op =>
      have hne : target ≠ conn := by simpa [subject] using hother
      refine after_of_silent rfl rfl ?_ rfl rfl trace
      cases op with
      | retrieve len => exact if_neg hne
      | setContext | setHighWaterMarkCallback | setWriteCompleteCallback => rfl
  | destroyEntry entry =>
      have houtputs : s.outputs conn (.destroyEntry entry) = [] :=
        if_neg fun hdies => hother (by simp only [subject, hdies.2.1, if_pos hdies.2.2])
      exact after_of_silent houtputs rfl rfl rfl rfl trace
  | poll | handleEvent | endHandling | swap | endFunctors | onTimerTick | keep | drop | queueSend
  | shutdown | testShutdown | testEntryShutdown | storeShutdown | queueShutdown | destructor
  | destroyConnection | wheelDestructor | dropBucket | endDestructor =>
      exact after_of_silent rfl rfl rfl rfl rfl trace

/-- Only other connections are concerned. -/
theorem Reflects.other (hprojects : next.Projects ptr t.system) (htagged : t.system.Tagged)
    (hother : s.subject action ≠ some ptr) :
    Reflects kind ptr next (t.trace.after s action ptr) t t := by
  rw [after_of_subject_ne hother]
  exact .rest hprojects htagged

/-- Nothing is seen of what the connection does. -/
theorem reflects_unseen (hreflects : ∃ u, Reflects kind ptr next t.trace t u)
    (hother : s.subject action ≠ some ptr) :
    ∃ u, Reflects kind ptr next (t.trace.after s action ptr) t u := by
  rw [after_of_subject_ne hother]
  exact hreflects

/-! ## Callbacks into the server -/

/-- The connection is told to queue its destruction. -/
theorem reflects_removal (hprojects : s.Projects ptr t.system) (htagged : t.system.Tagged)
    (conn : ConnId) : ∃ u, Reflects kind ptr (s.removeConnectionInLoop conn) t.trace t u := by
  have hunmapped : (s.unmap conn).Projects ptr t.system := hprojects.of_same rfl rfl
  by_cases hself : conn = ptr
  · subst hself
    have hqueued := hunmapped.queueInLoop_self (.connectDestroyed conn) none (decide_eq_true rfl)
    refine Reflects.step kind .queueConnectDestroyed _ rfl trivial
      (hqueued.of_same rfl rfl) (htagged.queue (by simp [Functor.messages])) rfl ?_ ?_
      rfl rfl ?_ rfl
    · exact (List.append_nil _).symm
    · exact (List.append_nil _).symm
    · simp [Inbound.trace, TcpConnection.System.senders, TcpConnection.System.tasks]
  · have hother : (Functor.connectDestroyed conn).ofConn ptr = false := decide_eq_false hself
    exact ⟨t, .rest ((hunmapped.queueInLoop_of_ne hother).of_same rfl rfl) htagged⟩

theorem reflects_dispatch (kind : List Callback → Prop) {now : Int} {event : IoEvent}
    (hprojects : s.Projects ptr t.system)
    (htagged : t.system.Tagged) (hdispatch : s.dispatch loop conn now event = .ok next) :
    ∃ u, Reflects kind ptr next t.trace t u := by
  rcases dispatch_cases hdispatch with ⟨-, hremove⟩ | ⟨-, hrefresh⟩ | rfl
  · rcases removeConnection_cases hremove with ⟨-, rfl⟩ | ⟨-, rfl⟩
    · exact reflects_removal hprojects htagged conn
    · exact ⟨t, .rest (hprojects.queueInLoop_of_ne rfl) htagged⟩
  · exact ⟨t, .rest (hprojects.refresh hrefresh) htagged⟩
  · exact ⟨t, .rest hprojects htagged⟩

theorem reflects_dispatches (kind : List Callback → Prop) {now : Int} {events : List IoEvent}
    (hprojects : s.Projects ptr t.system) (htagged : t.system.Tagged)
    (hrun : run (dispatch loop conn now) s events = .ok next) :
    ∃ u, Reflects kind ptr next t.trace t u := by
  induction events generalizing s t with
  | nil =>
      obtain rfl := Except.ok.inj hrun
      exact ⟨t, .rest hprojects htagged⟩
  | cons event rest ih =>
      obtain ⟨middle, hdispatch, hrest⟩ := run_cons_eq_ok.mp hrun
      obtain ⟨u, hfirst⟩ := reflects_dispatch kind hprojects htagged hdispatch
      obtain ⟨v, hsecond⟩ := ih hfirst.projects hfirst.tagged hrest
      exact ⟨v, hfirst.trans hsecond⟩

/-! ## Events -/

theorem reflects_callback (hs : s.Invariant) (ht : t.system.Invariant ptr)
    (hprojects : s.Projects ptr t.system) (htagged : t.system.Tagged) {calls : Syscalls} {now : Int}
    (hcallback : s.callback loop calls now = .ok next) :
    ∃ u, Reflects kind ptr next (t.trace.after s (.callback loop calls now) ptr) t u := by
  obtain ⟨conn, callback, rest, f, hhandling, halive, hf, hdispatch⟩ := callback_ok hcallback
  have hleaves : s.Leaves conn f := .of_keeps (onCallback_keeps hf)
  by_cases hself : conn = ptr
  · subst hself
    obtain ⟨-, rfl, -⟩ := hs.of_watches (Or.inr (by rw [hhandling]; rfl))
    have halike := hprojects.frame_alike (hs.records.registry.sound conn halive) ht.sound
    obtain ⟨g, hg, hafter⟩ := onCallback_matches halike callback calls f hf
    have hhandlers : t.system.handlers = callback :: rest := by
      rw [hprojects.shows.handlers, IoLoop.callbacks, hhandling]
      exact if_pos rfl
    have hstep : TcpConnection.System.step conn t.system (.callback calls) =
        .ok { t.system.absorb g with handlers := rest } := by
      simp only [TcpConnection.System.step, hhandlers, hg]
      rfl
    have hdelivered : t.system.delivered (.callback calls) =
        s.delivered conn (.callback (s.own conn) calls now) := by
      simp only [TcpConnection.System.delivered, hhandlers, System.delivered, hhandling,
        ↓reduceIte]
    have houtputs : s.outputs conn (.callback (s.own conn) calls now) = g.events := by
      obtain ⟨context, poller, hagrees⟩ := hafter
      simp only [outputs, hhandling, ↓reduceIte, hf]
      rfl
    have htagged' : (t.system.absorb g).Tagged := by
      refine htagged.absorb conn ?_
      obtain ⟨context, poller, hagrees⟩ := hafter
      exact hleaves.follows
    obtain ⟨u, hfirst⟩ := Reflects.step kind (.callback calls)
      (t.trace.after s (.callback (s.own conn) calls now) conn) hstep trivial
      (hprojects.finishCallback hafter hleaves callback rest) htagged' rfl
      (by rw [hdelivered]; rfl) rfl (by rw [Trace.after, houtputs]; rfl) rfl
      (TcpConnection.System.absorb_senders t.system g).symm
      (by simp [Trace.after, message, direct, Inbound.trace, TcpConnection.System.absorb])
    obtain ⟨v, hsecond⟩ := reflects_dispatches kind hfirst.projects hfirst.tagged
      hdispatch
    exact ⟨v, hfirst.trans hsecond⟩
  · obtain ⟨u, hrest⟩ := reflects_dispatches kind
      (hprojects.finishCallback_of_ne hself hleaves hhandling) htagged hdispatch
    have hother : s.subject (.callback loop calls now) ≠ some ptr := by
      simpa [subject, hhandling] using hself
    rw [after_of_subject_ne hother]
    exact ⟨u, hrest⟩

/-- `epoll_wait` reports some channels. Each has a descriptor of its own, so the connection is
reported at most once. -/
theorem projects_poll {t : TcpConnection.System} (hs : s.Invariant)
    (hbatch : (s.loops loop).Batchless) (hprojects : s.Projects ptr t)
    {events : List (Int × EventMask)}
    (hother : ∀ event ∈ events, event.1 ≠ (s.conns ptr).channel.fd)
    (hpoll : run (fillActiveChannel loop) s events = .ok next) :
    next.Projects ptr t := by
  induction events generalizing s with
  | nil =>
      obtain rfl := Except.ok.inj hpoll
      exact hprojects
  | cons event rest ih =>
      obtain ⟨middle, hfill, hrest⟩ := run_cons_eq_ok.mp hpoll
      obtain ⟨hadvances, -, hstill⟩ := fillActiveChannel_advances hs event hbatch hfill
      have hmiddle := hadvances.invariant hs (fillActiveChannel_guarded event hs.guarded hfill)
      obtain ⟨mask, conn, hkernel, halive, rfl⟩ := fillActiveChannel_ok hfill
      obtain ⟨-, -, hfd, -⟩ := hs.records.registry.owned loop _ conn (Or.inr ⟨mask, hkernel⟩)
      have hne : conn ≠ ptr := by
        rintro rfl
        exact hother event List.mem_cons_self hfd.symm
      have hsame : ((s.setRevents conn event.2).updateLoop loop (IoLoop.activate conn)).conns ptr =
          s.conns ptr := by
        change (s.setRevents conn event.2).conns ptr = s.conns ptr
        rw [setRevents, updateConn_of_ne hne.symm]
      refine ih hmiddle hstill (hprojects.activate_of_ne hne event.2) ?_ hrest
      intro later hmem
      rw [hsame]
      exact hother later (List.mem_cons_of_mem event hmem)

theorem reflects_poll (hs : s.Invariant) (hbatch : (s.loops loop).Batchless)
    (ht : t.system.Invariant ptr)
    (hidle : s.own ptr = loop → t.system.Idle ∧ t.system.functors = [])
    (hprojects : s.Projects ptr t.system) (htagged : t.system.Tagged)
    {events : List (Int × EventMask)} (hnodup : (events.map Prod.fst).Nodup)
    (hpoll : run (fillActiveChannel loop) s events = .ok next) :
    ∃ u, Reflects kind ptr next t.trace t u := by
  induction events generalizing s with
  | nil =>
      obtain rfl := Except.ok.inj hpoll
      exact ⟨t, .rest hprojects htagged⟩
  | cons event rest ih =>
      obtain ⟨middle, hfill, hrest⟩ := run_cons_eq_ok.mp hpoll
      obtain ⟨hadvances, -, hstill⟩ := fillActiveChannel_advances hs event hbatch hfill
      have hmiddle := hadvances.invariant hs (fillActiveChannel_guarded event hs.guarded hfill)
      obtain ⟨hnew, hrestNodup⟩ := List.nodup_cons.mp hnodup
      obtain ⟨mask, conn, hkernel, halive, rfl⟩ := fillActiveChannel_ok hfill
      obtain ⟨-, rfl, hfd, -⟩ := hs.records.registry.owned loop _ conn (Or.inr ⟨mask, hkernel⟩)
      by_cases hself : conn = ptr
      · subst hself
        obtain ⟨hbetween, hempty⟩ := hidle rfl
        have halike := hprojects.frame_alike (hs.records.registry.sound conn halive) ht.sound
        have hknown : (t.system.poller.kernel t.system.conn.channel.fd).isSome = true := by
          have hsame : t.system.poller.kernel (s.conns conn).channel.fd =
              (s.loops (s.own conn)).poller.kernel (s.conns conn).channel.fd :=
            halike.agrees.kernel
          rw [hprojects.channel, hsame, hfd]
          exact Option.isSome_iff_exists.mpr ⟨_, hkernel⟩
        have hstep : TcpConnection.System.step conn t.system (.poll event.2) = .ok _ :=
          if_pos ⟨hbetween, hempty, hknown⟩
        have hothers : ∀ later ∈ rest, later.1 ≠ (((s.setRevents conn event.2).updateLoop
            (s.own conn) (IoLoop.activate conn)).conns conn).channel.fd := by
          intro later hmem heq
          refine hnew (List.mem_map.mpr ⟨later, hmem, heq.trans ?_⟩)
          rw [← hfd, updateLoop, setRevents]
          dsimp only
          rw [updateConn_self]
        have hfinal := projects_poll hmiddle hstill (hprojects.activate hbetween.1 event.2)
          hothers hrest
        exact Reflects.step kind _ _ hstep trivial hfinal htagged rfl (List.append_nil _).symm
          (List.append_nil _).symm rfl rfl rfl rfl
      · refine ih hmiddle hstill (fun hown => hidle ?_) (hprojects.activate_of_ne hself event.2)
          hrestNodup hrest
        rw [← hown, own_updateLoop, own, own, setRevents, updateConn_of_ne (Ne.symm hself)]

/-- The events of the connection that are handled run callbacks of the given kind. -/
def Handles (kind : List Callback → Prop) (ptr : ConnId) (s : System) : Action → Prop
  | .handleEvent loop => (s.loops loop).activeChannels.head? = some ptr →
      kind (s.conns ptr).channel.handleEventWithGuard
  | _ => True

instance (kind : List Callback → Prop) [DecidablePred kind] (ptr : ConnId) (s : System) :
    (action : Action) → Decidable (s.Handles kind ptr action) := by
  rintro ⟨⟩ <;> dsimp only [Handles] <;> infer_instance

theorem reflects_handleEvent (hs : s.Invariant) (hprojects : s.Projects ptr t.system)
    (htagged : t.system.Tagged) (hkind : s.Handles kind ptr (.handleEvent loop))
    (hhandling : (s.loops loop).handling = none) (hhandle : s.handleEvent loop = .ok next) :
    ∃ u, Reflects kind ptr next t.trace t u := by
  obtain ⟨conn, rest, hactive, halive, rfl⟩ := handleEvent_ok hhandle
  by_cases hself : conn = ptr
  · subst hself
    obtain ⟨-, rfl, -⟩ := hs.of_watches (Or.inl (by rw [hactive]; exact List.mem_cons_self))
    have hhead : (s.loops (s.own conn)).activeChannels.head? = some conn := by
      rw [hactive, List.head?_cons]
    obtain ⟨hreported, hhandled⟩ := hprojects.handleEvent hactive
    have hpermitted : t.Handles kind .handleEvent := by
      rw [Inbound.Handles, hprojects.channel]
      exact hkind hhead
    have hstep : TcpConnection.System.step conn t.system .handleEvent = .ok _ := if_pos hreported
    exact Reflects.step kind _ _ hstep hpermitted hhandled htagged rfl
      (List.append_nil _).symm (List.append_nil _).symm rfl rfl rfl rfl
  · exact ⟨t, .rest (hprojects.handleEvent_of_ne hself hactive hhandling) htagged⟩

/-! ## Calls from outside -/

/-- `shutdown`, on the thread of the loop or on another one. -/
theorem reflects_shutdown (kind : List Callback → Prop) (hs : s.Invariant)
    (ht : t.system.Invariant ptr) (hprojects : s.Projects ptr t.system)
    (htagged : t.system.Tagged) (halive : s.Alive ptr) (inLoopThread : Bool) :
    ∃ u, Reflects kind ptr (s.shutdown ptr inLoopThread)
      { t.trace with events := t.trace.events ++
        (TcpConnection.shutdown ptr inLoopThread (s.frame ptr)).events } t u := by
  have hsound := hs.records.registry.sound ptr halive
  have hafter := shutdown_alike (hprojects.frame_alike hsound ht.sound) ptr inLoopThread
  have hleaves : s.Leaves ptr (TcpConnection.shutdown ptr inLoopThread (s.frame ptr)) :=
    .of_performs (shutdown_performs hsound inLoopThread).1
  have htagged' : (t.system.absorb
      (TcpConnection.shutdown ptr inLoopThread t.system.frame)).Tagged := by
    refine htagged.absorb ptr ?_
    rw [hafter.queued]
    exact hleaves.follows
  have hshutdown := hprojects.absorb hafter hleaves
  rw [← hafter.events]
  cases inLoopThread with
  | true =>
      exact Reflects.step kind .shutdownDirect _ rfl trivial hshutdown htagged' rfl
        (List.append_nil _).symm (List.append_nil _).symm rfl rfl
        (TcpConnection.System.absorb_senders ..).symm rfl
  | false =>
      exact Reflects.step kind .shutdown _ rfl trivial hshutdown htagged' rfl
        (List.append_nil _).symm (List.append_nil _).symm rfl rfl
        (TcpConnection.System.absorb_senders ..).symm rfl

/-- On another thread `shutdown` makes no call. -/
theorem shutdown_events (s : System) (conn : ConnId) :
    (TcpConnection.shutdown conn false (s.frame conn)).events = [] := by
  rcases shutdown_queues conn (s.frame conn) with ⟨-, hsame⟩ | ⟨-, hqueues⟩
  · rw [hsame]
    rfl
  · rw [hqueues]
    rfl

theorem projects_shutdown (hs : s.Invariant) (hprojects : s.Projects ptr t.system)
    (halive : s.Alive conn) (hother : conn ≠ ptr) (inLoopThread : Bool) :
    (s.shutdown conn inLoopThread).Projects ptr t.system := by
  have hsound := hs.records.registry.sound conn halive
  exact hprojects.absorb_of_ne hother (.of_performs (shutdown_performs hsound inLoopThread).1)

theorem reflects_sendDirect (hs : s.Invariant) (ht : t.system.Invariant ptr)
    (hprojects : s.Projects ptr t.system) (htagged : t.system.Tagged) (halive : s.Alive conn)
    {buf : CppString} {result : WriteResult} {f : Frame}
    (hf : TcpConnection.send conn true buf.bytes result (s.frame conn) = .ok f) :
    ∃ u, Reflects kind ptr (s.absorb conn f)
      (t.trace.after s (.sendDirect conn buf result) ptr) t u := by
  have hleaves : s.Leaves conn f := .of_keeps (send_keeps hf)
  by_cases hself : conn = ptr
  · subst hself
    have hsound := hs.records.registry.sound conn halive
    have halike := hprojects.frame_alike hsound ht.sound
    obtain ⟨g, hg, hafter⟩ := send_matches halike true buf.bytes result f hf
    have hstep : TcpConnection.System.step conn t.system (.sendDirect buf result) =
        .ok { t.system.absorb g with
          executed := if t.system.conn.state = .kConnected then
            t.system.executed ++ [(none, buf.bytes)] else t.system.executed } :=
      Except.bind_eq_ok.mpr ⟨g, hg, rfl⟩
    have hstate : t.system.conn.state = (s.conns conn).state := halike.state
    have htagged' : (t.system.absorb g).Tagged := by
      refine htagged.absorb conn ?_
      rw [hafter.queued]
      exact hleaves.follows
    have houtputs : s.outputs conn (.sendDirect conn buf result) = g.events := by
      rw [outputs, if_pos rfl, hf, hafter.events]
      rfl
    have hexecuted : (t.trace.after s (.sendDirect conn buf result) conn).executed =
        if t.system.conn.state = .kConnected then
          t.system.executed ++ [(none, buf.bytes)] else t.system.executed := by
      rw [hstate]
      split
      next hconnected =>
        simp [Trace.after, Inbound.trace, message, direct, hconnected]
      next hclosed =>
        simp [Trace.after, Inbound.trace, message, direct, hclosed]
    have hsent := (hprojects.absorb hafter hleaves).of_fields (u := { t.system.absorb g with
      executed := if t.system.conn.state = .kConnected then
        t.system.executed ++ [(none, buf.bytes)] else t.system.executed }) rfl rfl rfl rfl rfl
    refine Reflects.step kind _ _ hstep trivial hsent htagged' rfl rfl rfl ?_ rfl
      (TcpConnection.System.absorb_senders ..).symm hexecuted
    rw [Trace.after, houtputs]
    rfl
  · refine ⟨t, .other (hprojects.absorb_of_ne hself hleaves) htagged ?_⟩
    simpa [subject] using hself

/-- User code sets something on a connection or takes bytes out of it. -/
theorem reflects_user (ht : t.system.Invariant ptr) (hprojects : s.Projects ptr t.system)
    (htagged : t.system.Tagged) (conn : ConnId) (op : UserOp) :
    ∃ u, Reflects kind ptr (s.updateConn conn op.apply)
      (t.trace.after s (.user conn op) ptr) t u := by
  by_cases hself : conn = ptr
  · subst hself
    have hinput : t.system.conn.inputBuffer = (s.conns conn).inputBuffer := by
      rw [hprojects.object]
      rfl
    cases op with
    | setContext context =>
        have hsilent : t.trace.after s (.user conn (.setContext context)) conn = t.trace :=
          after_of_silent rfl rfl rfl rfl rfl t.trace
        rw [hsilent]
        refine ⟨t, .rest (hprojects.of_shows ?_ rfl hprojects.shows) htagged⟩
        rw [updateConn_self]
        rfl
    | setHighWaterMarkCallback =>
        exact Reflects.step kind .setHighWaterMarkCallback _ rfl trivial
          (hprojects.updateConn rfl rfl) htagged rfl rfl rfl (List.append_nil _) rfl rfl
          (by simp [Trace.after, message, direct, Inbound.trace])
    | setWriteCompleteCallback =>
        exact Reflects.step kind .setWriteCompleteCallback _ rfl trivial
          (hprojects.updateConn rfl rfl) htagged rfl rfl rfl (List.append_nil _) rfl rfl
          (by simp [Trace.after, message, direct, Inbound.trace])
    | retrieve len =>
        refine Reflects.step kind (.retrieve len) _ rfl trivial (hprojects.updateConn rfl rfl)
          htagged rfl rfl ?_ (List.append_nil _) rfl rfl
          (by simp [Trace.after, message, direct, Inbound.trace])
        simp [Trace.after, taken, TcpConnection.System.taken, Inbound.trace, hinput]
  · refine ⟨t, .other (hprojects.of_shows ?_ rfl hprojects.shows) htagged ?_⟩
    · rw [updateConn_of_ne (Ne.symm hself)]
      rfl
    · simpa [subject] using hself

/-! ## Functors -/

theorem ofConn_home {functor : Functor} (hof : functor.ofConn ptr = true) :
    functor.target = ptr ∧ s.home functor = s.own ptr := by
  cases functor with
  | removeConnectionInLoop conn => cases hof
  | connectEstablished | connectDestroyed | sendInLoop | shutdownInLoop | writeCompleteCallback
  | highWaterMarkCallback =>
      obtain rfl := of_decide_eq_true hof
      exact ⟨rfl, rfl⟩

/-- A functor of the server or of another connection. -/
theorem reflects_runFunctor_of_ne (hprojects : s.Projects ptr t.system)
    (htagged : t.system.Tagged) {functor : Functor} {rest : List Functor} {result : WriteResult}
    (hfunctors : (s.loops loop).functors = functor :: rest) (hother : functor.ofConn ptr = false)
    (hexecute : (s.updateLoop loop (IoLoop.startFunctor functor rest)).execute loop functor result =
      .ok next) :
    ∃ u, Reflects kind ptr next (t.trace.after s (.runFunctor loop result) ptr) t u := by
  have hstart := hprojects.startFunctor_of_ne hfunctors hother
  rcases execute_cases hexecute with ⟨conn, rfl, rfl⟩ | ⟨hmember, f, hf, hnext⟩
  · have hsilent : t.trace.after s (.runFunctor loop result) ptr = t.trace := by
      have houtputs : s.outputs ptr (.runFunctor loop result) = [] := by
        rw [outputs, hfunctors]
        exact ite_self _
      have hmessage : s.message ptr (.runFunctor loop result) = none := by
        rw [message, hfunctors]
      exact after_of_silent houtputs rfl rfl hmessage rfl t.trace
    rw [hsilent]
    exact reflects_removal hstart htagged conn
  · have hne : functor.target ≠ ptr := by
      intro htarget
      cases functor with
      | removeConnectionInLoop conn => exact hmember conn rfl
      | connectEstablished | connectDestroyed | sendInLoop | shutdownInLoop
      | writeCompleteCallback | highWaterMarkCallback =>
          exact absurd htarget (of_decide_eq_false hother)
    have habsorb := hstart.absorb_of_ne hne (.of_keeps (onFunctor_keeps hf))
    have hsubject : s.subject (.runFunctor loop result) ≠ some ptr := by
      simpa [subject, hfunctors] using hne
    rcases hnext with rfl | ⟨milestone, rfl⟩
    · exact ⟨t, .other habsorb htagged hsubject⟩
    · exact ⟨t, .other (habsorb.of_same rfl rfl) htagged hsubject⟩

/-- A functor of the connection. -/
theorem reflects_runFunctor_self (hs : s.Invariant) (ht : t.system.Invariant ptr)
    (hprojects : s.Projects ptr t.system) (htagged : t.system.Tagged) {functor : Functor}
    {rest : List Functor} {result : WriteResult}
    (hfunctors : (s.loops loop).functors = functor :: rest) (halive : s.Alive functor.target)
    (hof : functor.ofConn ptr = true)
    (hexecute : (s.updateLoop loop (IoLoop.startFunctor functor rest)).execute loop functor result =
      .ok next) :
    ∃ u, Reflects kind ptr next (t.trace.after s (.runFunctor loop result) ptr) t u := by
  obtain ⟨htarget, hhome⟩ := ofConn_home (s := s) hof
  obtain rfl : loop = s.own ptr := (hs.waits hfunctors).1.trans hhome
  obtain ⟨task, tasks, htasks, rfl, hstart⟩ := hprojects.startFunctor hfunctors hof
  rcases execute_cases hexecute with ⟨conn, hremoval, -⟩ | ⟨-, f, hf, hnext⟩
  · rw [hremoval] at hof
    cases hof
  have hframe : (s.updateLoop (s.own ptr) (IoLoop.startFunctor task.functor rest)).frame ptr =
      s.frame ptr := frame_updateLoop rfl ptr
  have hkeeps := onFunctor_keeps hf
  rw [htarget] at halive hkeeps hnext
  rw [htarget, hframe] at hf
  have halike := hprojects.frame_alike (hs.records.registry.sound ptr halive) ht.sound
  obtain ⟨g, hg, hafter⟩ := onFunctor_matches halike task.functor result f hf
  have hleaves := Leaves.of_keeps hkeeps
  have hidle : t.system.Idle := by
    refine hprojects.shows.idle fun hwatches => ?_
    have hbatch := (hs.records.rounds.batches _ ptr hwatches).2
    rw [hfunctors] at hbatch
    cases hbatch
  obtain ⟨after, hstep, hconn, hpending, hrest, hactive, hhandlers, hevents, hcalled, hcalling,
    hexecuted⟩ := TcpConnection.System.runFunctor_executes ptr result htasks hidle hg
  have hprojected : next.Projects ptr after := by
    have habsorb := (hstart.absorb hafter hleaves).of_fields hconn hpending hrest hactive hhandlers
    rcases hnext with rfl | ⟨milestone, rfl⟩
    · exact habsorb
    · exact habsorb.of_same rfl rfl
  obtain ⟨htagged', hsenders⟩ : after.Tagged ∧
      t.system.senders = task.sender.toList ++ after.senders := by
    refine htagged.runFunctor ptr htasks hpending hrest ?_
    rw [hafter.queued]
    exact hleaves.follows
  have hmessage : (s.message ptr (.runFunctor (s.own ptr) result)).toList =
      task.functor.messages := by
    rw [message, hfunctors]
    cases hfunctor : task.functor with
    | sendInLoop target buf =>
        rw [hfunctor] at htarget
        exact congrArg Option.toList (if_pos htarget)
    | _ => rfl
  have houtputs : s.outputs ptr (.runFunctor (s.own ptr) result) = g.events := by
    rw [outputs, hfunctors]
    refine (if_pos htarget).trans ?_
    rw [hf, hafter.events]
    rfl
  have hsender := htagged task (by simp [TcpConnection.System.tasks, htasks])
  rw [← hmessage] at hsender
  obtain ⟨htail, hhead⟩ := TcpConnection.System.head_senders hsender hsenders
  refine Reflects.step kind _ _ hstep trivial hprojected htagged' hcalling rfl rfl ?_
    hcalled.symm htail ?_
  · rw [hevents, Trace.after, houtputs]
    rfl
  · rw [hexecuted, ← hmessage, ← hhead]
    exact List.append_nil _

theorem reflects_runFunctor (hs : s.Invariant) (ht : t.system.Invariant ptr)
    (hprojects : s.Projects ptr t.system) (htagged : t.system.Tagged) {result : WriteResult}
    (hrun : s.runFunctor loop result = .ok next) :
    ∃ u, Reflects kind ptr next (t.trace.after s (.runFunctor loop result) ptr) t u := by
  obtain ⟨functor, rest, hfunctors, halive, hexecute⟩ := runFunctor_ok hrun
  cases hof : functor.ofConn ptr with
  | true => exact reflects_runFunctor_self hs ht hprojects htagged hfunctors halive hof hexecute
  | false => exact reflects_runFunctor_of_ne hprojects htagged hfunctors hof hexecute

/-! ## Steps -/

theorem projects_construct (hprojects : s.Projects ptr t.system) (hconn : ptr < s.accepted)
    (sockfd : Int) (hasWriteCompleteCallback : Bool) :
    (s.construct sockfd hasWriteCompleteCallback).Projects ptr t.system := by
  refine hprojects.of_shows ?_ rfl hprojects.shows
  rw [construct_conns _ _ hconn]
  rfl

/-- Another connection is accepted. -/
theorem projects_newConnection (hprojects : s.Projects ptr t.system) (hconn : ptr < s.accepted)
    {sockfd now : Int} {hasWriteCompleteCallback : Bool}
    (hnew : s.newConnection sockfd hasWriteCompleteCallback now = .ok next) :
    next.Projects ptr t.system := by
  unfold newConnection at hnew
  obtain ⟨middle, hrefresh, hnew⟩ := Except.bind_eq_ok.mp hnew
  have hmiddle := (projects_construct hprojects hconn sockfd hasWriteCompleteCallback).refresh
    hrefresh
  have hother : s.accepted ≠ ptr := Nat.ne_of_gt hconn
  split at hnew
  next =>
    unfold connectEstablished at hnew
    obtain ⟨f, hf, hnew⟩ := Except.bind_eq_ok.mp hnew
    obtain rfl := Except.ok.inj hnew
    exact (hmiddle.absorb_of_ne hother (.of_keeps (connectEstablished_keeps hf))).of_same rfl rfl
  next =>
    obtain rfl := Except.ok.inj hnew
    exact hmiddle.queueInLoop_of_ne (decide_eq_false hother)

theorem reflects_swap (hprojects : s.Projects ptr t.system) (htagged : t.system.Tagged)
    (hidle : (s.loops loop).Idle) :
    ∃ u, Reflects kind ptr (s.updateLoop loop IoLoop.swapFunctors) t.trace t u := by
  by_cases hown : s.own ptr = loop
  · subst hown
    have hbetween : t.system.Idle := hprojects.shows.idle (hidle.not_watches ptr)
    have hbatch := hprojects.shows.batchless hidle.2.2.2
    have hstep : TcpConnection.System.step ptr t.system .swap = .ok _ :=
      if_pos ⟨hbetween, hbatch⟩
    have htasks : t.system.pendingFunctors ++ [] = t.system.tasks := by
      rw [TcpConnection.System.tasks, hbatch, List.append_nil, List.nil_append]
    refine Reflects.step kind _ _ hstep trivial hprojects.swapFunctors ?_ rfl
      (List.append_nil _).symm (List.append_nil _).symm rfl rfl ?_ rfl
    · intro task hmem
      exact htagged task (htasks ▸ hmem)
    · exact congrArg (List.filterMap Task.sender) htasks.symm
  · exact ⟨t, .rest (hprojects.updateLoop fun hsame => absurd hsame hown) htagged⟩

/-- An entry of the wheel dies. -/
theorem reflects_destroyEntry (hs : s.Invariant) (ht : t.system.Invariant ptr)
    (hprojects : s.Projects ptr t.system) (htagged : t.system.Tagged) {entry : EntryId}
    (hstep : step s (.destroyEntry entry) = .ok next) :
    ∃ u, Reflects kind ptr next (t.trace.after s (.destroyEntry entry) ptr) t u := by
  obtain ⟨-, hstep⟩ := Except.guard_eq_ok.mp hstep
  have hwheel : (s.withWheel (s.server.timerWheel.release entry)).Invariant :=
    (withWheel_advances hs _).invariant hs (hs.guarded.withWheel _)
  have hreleased : (s.withWheel (s.server.timerWheel.release entry)).Projects ptr t.system :=
    hprojects.of_same rfl rfl
  have hsilent (hnone : s.outputs ptr (.destroyEntry entry) = []) :
      t.trace.after s (.destroyEntry entry) ptr = t.trace :=
    after_of_silent hnone rfl rfl rfl rfl t.trace
  split at hstep
  next howned =>
    obtain rfl := Except.ok.inj hstep
    rw [hsilent (if_neg fun hdies => absurd (howned.symm.trans hdies.1) Bool.noConfusion)]
    exact ⟨t, .rest hreleased htagged⟩
  next hdies =>
    obtain rfl := Except.ok.inj hstep
    unfold destroyEntry
    split
    next halive =>
      by_cases hself : ((s.server.timerWheel.release entry).entries entry).conn = ptr
      · have hreflects := reflects_shutdown kind hwheel ht hreleased htagged
          (hself ▸ halive) (decide (s.own ptr = baseLoop))
        have houtputs : s.outputs ptr (.destroyEntry entry) = (TcpConnection.shutdown ptr
            (decide (s.own ptr = baseLoop)) (s.frame ptr)).events :=
          if_pos ⟨Bool.eq_false_of_not_eq_true hdies, hself, hself ▸ halive⟩
        have hafter : t.trace.after s (.destroyEntry entry) ptr = { t.trace with
            events := t.trace.events ++ (TcpConnection.shutdown ptr
              (decide (s.own ptr = baseLoop)) (s.frame ptr)).events } := by
          rw [← houtputs]
          simp [Trace.after, delivered, taken, message, direct]
        rw [hafter, hself]
        exact hreflects
      · refine ⟨t, .other (projects_shutdown hwheel hreleased halive hself _) htagged ?_⟩
        have hsubject : s.subject (.destroyEntry entry) =
            some ((s.server.timerWheel.release entry).entries entry).conn := if_pos halive
        rw [hsubject]
        exact fun hsame => hself (Option.some.inj hsame)
    next hdead =>
      have hsubject : s.subject (.destroyEntry entry) = none := if_neg hdead
      exact ⟨t, .other hreleased htagged (by simp [hsubject])⟩

/-- Every step of a running server is matched by steps of the connection. -/
theorem step_reflects (hs : s.Invariant) (ht : t.system.Invariant ptr)
    (hprojects : s.Projects ptr t.system) (htagged : t.system.Tagged) (hconn : ptr < s.accepted)
    (hregular : s.Regular action) (hkind : s.Handles kind ptr action)
    (hsent : action.queuesSend = false) (hstep : step s action = .ok next) :
    ∃ u, Reflects kind ptr next (t.trace.after s action ptr) t u := by
  cases action with
  | newConnection sockfd hasWriteCompleteCallback now =>
      obtain ⟨-, hstep⟩ := Except.guard_eq_ok.mp hstep
      refine ⟨t, .other (projects_newConnection hprojects hconn hstep) htagged ?_⟩
      exact fun hsubject => Nat.ne_of_gt hconn (Option.some.inj hsubject)
  | poll loop events =>
      obtain ⟨⟨-, hidle, hnodup⟩, hstep⟩ := Except.guard_eq_ok.mp hstep
      refine reflects_unseen ?_ (by simp [subject])
      refine reflects_poll hs hidle.2.2 ht (fun hown => ?_) hprojects htagged hnodup hstep
      subst hown
      exact ⟨hprojects.shows.idle (hidle.not_watches ptr),
        hprojects.shows.batchless hidle.2.2.2⟩
  | handleEvent loop =>
      obtain ⟨⟨-, hhandling, -⟩, hstep⟩ := Except.guard_eq_ok.mp hstep
      refine reflects_unseen ?_ (by simp [subject])
      exact reflects_handleEvent hs hprojects htagged hkind hhandling hstep
  | callback loop calls now =>
      obtain ⟨-, hstep⟩ := Except.guard_eq_ok.mp hstep
      exact reflects_callback hs ht hprojects htagged hstep
  | endHandling loop =>
      obtain ⟨conn, hhandling, rfl⟩ := endHandling_ok hstep
      exact ⟨t, .other (hprojects.endHandling hhandling) htagged (by simp [subject])⟩
  | swap loop =>
      obtain ⟨⟨-, hidle⟩, hstep⟩ := Except.guard_eq_ok.mp hstep
      obtain rfl := Except.ok.inj hstep
      exact reflects_unseen (reflects_swap hprojects htagged hidle) (by simp [subject])
  | runFunctor loop result =>
      obtain ⟨-, hstep⟩ := Except.guard_eq_ok.mp hstep
      exact reflects_runFunctor hs ht hprojects htagged hstep
  | endFunctors loop =>
      obtain ⟨-, hstep⟩ := Except.guard_eq_ok.mp hstep
      obtain rfl := Except.ok.inj hstep
      refine ⟨t, .other (hprojects.updateLoop fun hown => ?_) htagged (by simp [subject])⟩
      have hshows := hprojects.shows
      rw [hown] at hshows
      exact hshows.of_same rfl rfl rfl rfl
  | onTimerTick =>
      obtain ⟨-, hstep⟩ := Except.guard_eq_ok.mp hstep
      split at hstep
      next => cases hstep
      next =>
        obtain rfl := Except.ok.inj hstep
        exact ⟨t, .other (hprojects.of_same rfl rfl) htagged (by simp [subject])⟩
  | destroyEntry entry => exact reflects_destroyEntry hs ht hprojects htagged hstep
  | keep conn | drop conn =>
      obtain ⟨-, hstep⟩ := Except.guard_eq_ok.mp hstep
      obtain rfl := Except.ok.inj hstep
      exact ⟨t, .other (hprojects.of_same rfl rfl) htagged (by simp [subject])⟩
  | queueSend conn buf => cases hsent
  | sendDirect conn buf result =>
      obtain ⟨⟨halive, -⟩, hstep⟩ := Except.guard_eq_ok.mp hstep
      obtain ⟨f, hf, hstep⟩ := Except.bind_eq_ok.mp hstep
      obtain rfl := Except.ok.inj hstep
      exact reflects_sendDirect hs ht hprojects htagged halive hf
  | shutdown conn =>
      obtain ⟨halive, hstep⟩ := Except.guard_eq_ok.mp hstep
      obtain rfl := Except.ok.inj hstep
      refine reflects_unseen ?_ (by simp [subject])
      by_cases hself : conn = ptr
      · subst hself
        have hreflects := reflects_shutdown kind hs ht hprojects htagged halive false
        rw [shutdown_events, List.append_nil] at hreflects
        exact hreflects
      · exact ⟨t, .rest (projects_shutdown hs hprojects halive hself false) htagged⟩
  | shutdownDirect conn =>
      obtain ⟨⟨halive, -⟩, hstep⟩ := Except.guard_eq_ok.mp hstep
      obtain rfl := Except.ok.inj hstep
      by_cases hself : conn = ptr
      · subst hself
        have houtputs : s.outputs conn (.shutdownDirect conn) =
            (TcpConnection.shutdown conn true (s.frame conn)).events := if_pos rfl
        have hafter : t.trace.after s (.shutdownDirect conn) conn = { t.trace with
            events := t.trace.events ++
              (TcpConnection.shutdown conn true (s.frame conn)).events } := by
          rw [← houtputs]
          simp [Trace.after, delivered, taken, message, direct]
        rw [hafter]
        exact reflects_shutdown kind hs ht hprojects htagged halive true
      · refine ⟨t, .other (projects_shutdown hs hprojects halive hself true) htagged ?_⟩
        simpa [subject] using hself
  | user conn op =>
      obtain ⟨-, hstep⟩ := Except.guard_eq_ok.mp hstep
      obtain rfl := Except.ok.inj hstep
      exact reflects_user ht hprojects htagged conn op
  | testShutdown | testEntryShutdown | storeShutdown | queueShutdown => exact hregular.elim
  | destructor | destroyConnection | wheelDestructor | dropBucket | endDestructor =>
      exact hregular.elim

/-! ## Accepting the connection -/

section Birth

variable (kind) {sockfd now : Int} {hasWriteCompleteCallback : Bool}

/-- The connection as it is accepted. -/
def newborn (s : System) (sockfd : Int) (hasWriteCompleteCallback : Bool) : Inbound :=
  Inbound.initial s.accepted s.server.threadPool.getNextLoop.1
    (connName s.server.name s.server.ipPort s.server.nextConnId) sockfd hasWriteCompleteCallback
    false

/-- Before its establishment is queued or runs, no loop has anything to do for it. -/
theorem projects_newborn (hs : s.Invariant) :
    (s.construct sockfd hasWriteCompleteCallback).Projects s.accepted
      { (s.newborn sockfd hasWriteCompleteCallback).system with pendingFunctors := [] } := by
  obtain ⟨htasks, hwatches⟩ :=
    hs.unborn ((s.construct sockfd hasWriteCompleteCallback).own s.accepted)
  have hnone {functors : List Functor} (hsubset : functors ⊆
      (s.loops ((s.construct sockfd hasWriteCompleteCallback).own s.accepted)).tasks) :
      functors.filter (Functor.ofConn s.accepted) = [] := by
    refine List.filter_eq_nil_iff.mpr fun functor hmem hof => ?_
    exact htasks functor (hsubset hmem) (ofConn_home (s := s) hof).1
  refine ⟨?_, ⟨?_, ?_, ?_, ?_⟩⟩
  · rw [construct_new]
    rfl
  · exact (hnone (List.subset_append_right _ _)).symm
  · exact (hnone (List.subset_append_left _ _)).symm
  · exact List.count_eq_zero.mpr fun hmem => hwatches (Or.inl hmem)
  · exact (IoLoop.callbacks_eq_nil hwatches).symm

theorem newborn_sound (s : System) (sockfd : Int) (hasWriteCompleteCallback : Bool) :
    (s.newborn sockfd hasWriteCompleteCallback).system.frame.Sound s.accepted :=
  (TcpConnection.System.initial_invariant ..).sound

/-- The base loop establishes a connection of its own at once. -/
theorem reflects_established {middle : System}
    (hmiddle : middle.Projects s.accepted
      { (s.newborn sockfd hasWriteCompleteCallback).system with pendingFunctors := [] })
    (hsound : (middle.frame s.accepted).Sound s.accepted)
    (hestablish : middle.connectEstablished baseLoop s.accepted = .ok next) :
    ∃ u, Reflects kind s.accepted next
      { Trace.empty with events := [.connectionCallback .kConnected] }
      (s.newborn sockfd hasWriteCompleteCallback) u := by
  obtain ⟨f, hf, hestablish⟩ := Except.bind_eq_ok.mp hestablish
  obtain rfl := Except.ok.inj hestablish
  have hborn := s.newborn_sound sockfd hasWriteCompleteCallback
  have halike := hmiddle.frame_alike hsound hborn
  obtain ⟨g, hg, hafter⟩ := connectEstablished_matches halike f hf
  obtain ⟨h, hh, -, -, -, -, -, hcalls, -⟩ :=
    connectEstablished_ok hborn rfl Buffer.initial_readable
  obtain rfl := Except.ok.inj (hh.symm.trans hg)
  -- the loop of the connection swaps its queue and runs the only functor
  let swapped : Inbound := { s.newborn sockfd hasWriteCompleteCallback with
    system := { (s.newborn sockfd hasWriteCompleteCallback).system with
      functors := [⟨.connectEstablished s.accepted, none⟩], pendingFunctors := [] } }
  have hswap : Inbound.step s.accepted (s.newborn sockfd hasWriteCompleteCallback) .swap =
      .ok swapped := rfl
  obtain ⟨after, hstep, hconn, hpending, hrest, hactive, hhandlers, hevents, hcalled, hcalling,
    hexecuted⟩ := TcpConnection.System.runFunctor_executes (s := swapped.system)
      s.accepted (.accepted 0) rfl ⟨rfl, rfl⟩ hg
  have hleaves : middle.Leaves s.accepted f := .of_keeps (connectEstablished_keeps hf)
  have htagged : swapped.system.Tagged := by
    intro task hmem
    obtain rfl := List.mem_singleton.mp hmem
    simp [Functor.messages]
  obtain ⟨htagged', hsenders⟩ := htagged.runFunctor s.accepted rfl hpending hrest (by
    rw [hafter.queued]
    exact hleaves.follows)
  have hprojects := (hmiddle.absorb hafter hleaves).of_fields hconn hpending hrest hactive
    hhandlers
  have hrecorded : ((middle.absorb s.accepted f).record baseLoop s.accepted
      .established).Projects s.accepted after := hprojects.of_same rfl rfl
  obtain ⟨u, hu⟩ := Reflects.step (t := swapped) kind (.runFunctor (.accepted 0))
    { Trace.empty with events := [.connectionCallback .kConnected] } hstep trivial
    hrecorded htagged' hcalling rfl rfl
    (by rw [hevents, hcalls]; rfl) hcalled.symm hsenders hexecuted.symm
  exact ⟨u, (Reaches.single trivial hswap).trans hu.reaches, hu.projects, hu.tagged, hu.trace,
    hu.calling⟩

theorem reflects_newConnection (hs : s.Invariant)
    (hfd : ∀ conn < s.accepted, s.Alive conn → (s.conns conn).channel.fd ≠ sockfd)
    (hbounded : s.accepted < 2 ^ 32)
    (hnew : s.newConnection sockfd hasWriteCompleteCallback now = .ok next) :
    ∃ u, Reflects kind s.accepted next
      (Trace.empty.after s (.newConnection sockfd hasWriteCompleteCallback now) s.accepted)
      (s.newborn sockfd hasWriteCompleteCallback) u := by
  obtain ⟨middle, hrefresh, hnew⟩ := Except.bind_eq_ok.mp hnew
  have hmiddle : middle.Projects s.accepted
      { (s.newborn sockfd hasWriteCompleteCallback).system with pendingFunctors := [] } :=
    (projects_newborn hs).refresh hrefresh
  have hown : middle.own s.accepted = s.server.threadPool.getNextLoop.1 :=
    (congrArg TcpConnection.loop hmiddle.object).symm
  have hsilent (houtputs : s.outputs s.accepted
      (.newConnection sockfd hasWriteCompleteCallback now) = []) :
      Trace.empty.after s (.newConnection sockfd hasWriteCompleteCallback now) s.accepted =
        .empty :=
    after_of_silent houtputs rfl rfl rfl rfl .empty
  split at hnew
  next hbase =>
    obtain ⟨hrecords, haccepted, -, hstage⟩ :=
      refresh_records (construct_records sockfd hasWriteCompleteCallback hs hfd) hrefresh
    obtain ⟨-, hself⟩ := stage_construct sockfd hasWriteCompleteCallback hs hbounded
    have hmapped : middle.Mapped s.accepted :=
      of_decide_eq_true (congrArg Stage.mapped ((hstage s.accepted).trans hself))
    have halive : middle.Alive s.accepted := ⟨haccepted ▸ Nat.lt_succ_self _, Or.inl hmapped⟩
    have houtputs : s.outputs s.accepted (.newConnection sockfd hasWriteCompleteCallback now) =
        [.connectionCallback .kConnected] := if_pos ⟨rfl, hown.symm.trans hbase⟩
    have hafter : Trace.empty.after s (.newConnection sockfd hasWriteCompleteCallback now)
        s.accepted = { Trace.empty with events := [.connectionCallback .kConnected] } := by
      rw [← houtputs]
      rfl
    rw [hafter]
    exact reflects_established kind hmiddle (hrecords.registry.sound s.accepted halive) hnew
  next hsub =>
    obtain rfl := Except.ok.inj hnew
    rw [hsilent (if_neg fun hbase => hsub (hown.trans hbase.2))]
    have hqueued := hmiddle.queueInLoop_self (.connectEstablished s.accepted) none
      (decide_eq_true rfl)
    have htagged : (s.newborn sockfd hasWriteCompleteCallback).system.Tagged := by
      intro task hmem
      obtain rfl := List.mem_singleton.mp hmem
      simp [Functor.messages]
    exact ⟨s.newborn sockfd hasWriteCompleteCallback, .refl _, hqueued, htagged, rfl, rfl⟩

end Birth

end System

end Muduo
