import Muduo.TcpConnection.Callbacks
import Muduo.TcpServer.Simulation
import Muduo.TcpServer.Steady

/-! # Every connection on its own

However many loops, connections and user threads a running server has, each of its connections
is in a state that it also reaches alone, and the same has been seen of it. So what holds of every
run of one connection holds of every connection of a server.
-/

open Transition

namespace Muduo

open TcpConnection

namespace TracedServer

variable {s next : TracedServer} {ptr conn : ConnId} {thread : ThreadId} {action : Action}
  {kind : List Callback → Prop} {t : Inbound}

/-- The message for the connection that is about to be queued. -/
def messageFor (conn : ConnId) : Option (ConnId × CppString) → Option (List UInt8)
  | some (target, buf) => if target = conn then some buf.bytes else none
  | none => none

/-- The server looks like this system of the connection. -/
structure Follows (s : TracedServer) (ptr : ConnId) (t : Inbound) : Prop where
  projects : s.system.Projects ptr t.system
  delivers : t.Delivers ptr
  tagged : t.system.Tagged
  trace : t.trace = s.traces ptr
  calling : ∀ thread, t.system.calling thread = messageFor ptr (s.calling thread)

/-- The server's own steps are as in `System.Regular`. -/
def Regular (s : TracedServer) : Action → Prop
  | .server action => s.system.Regular action
  | _ => True

/-- Besides, the events of the connection that are handled run callbacks of the given kind. -/
def Admits (kind : List Callback → Prop) (ptr : ConnId) (s : TracedServer) : Action → Prop
  | .server action => s.system.Regular action ∧ s.system.Handles kind ptr action
  | _ => True

/-! ## Steps -/

theorem step_server {action : System.Action} (hstep : step s (.server action) = .ok next) :
    action.queuesSend = false ∧ ∃ system, s.system.step action = .ok system ∧ next = { s with
      system
      traces := fun conn => (s.traces conn).after s.system action conn } := by
  obtain ⟨hsent, hstep⟩ := Except.guard_eq_ok.mp hstep
  obtain ⟨system, hsystem, hstep⟩ := Except.bind_eq_ok.mp hstep
  exact ⟨hsent, system, hsystem, (Except.ok.inj hstep).symm⟩

theorem reaches_delivers (ht : t.Delivers ptr) {u : Inbound}
    (hreaches : Reaches (Inbound.step ptr) (Inbound.Handles kind) t u) : u.Delivers ptr :=
  hreaches.invariant (fun s action next hs _ hstep => Inbound.step_delivers s action next hs hstep)
    ht

/-- A step of the system. -/
theorem server_follows {action : System.Action} (hs : s.system.Invariant)
    (hconn : ptr < s.system.accepted) (hfollows : s.Follows ptr t)
    (hregular : s.system.Regular action) (hkind : s.system.Handles kind ptr action)
    (hstep : step s (.server action) = .ok next) :
    ∃ u, Reaches (Inbound.step ptr) (Inbound.Handles kind) t u ∧ next.Follows ptr u := by
  obtain ⟨hsent, system, hsystem, rfl⟩ := step_server hstep
  obtain ⟨u, hreflects⟩ := System.step_reflects hs hfollows.delivers.invariant hfollows.projects
    hfollows.tagged hconn hregular hkind hsent hsystem
  refine ⟨u, hreflects.reaches, hreflects.projects,
    reaches_delivers hfollows.delivers hreflects.reaches, hreflects.tagged, ?_, ?_⟩
  · rw [hreflects.trace, hfollows.trace]
  · rw [hreflects.calling]
    exact hfollows.calling

/-- A call of one thread begins or ends. -/
theorem messageFor_update {calling : ThreadId → Option (List UInt8)}
    (hcalling : ∀ thread, calling thread = messageFor ptr (s.calling thread))
    (call : Option (ConnId × CppString)) (other : ThreadId) :
    Function.update calling thread (messageFor ptr call) other =
      messageFor ptr (Function.update s.calling thread call other) := by
  by_cases hsame : other = thread
  · rw [hsame, Function.update_self, Function.update_self]
  · rw [Function.update_of_ne hsame, Function.update_of_ne hsame, hcalling]

/-- The call concerns another connection. -/
theorem messageFor_update_of_ne {calling : ThreadId → Option (List UInt8)}
    (hcalling : ∀ thread, calling thread = messageFor ptr (s.calling thread))
    {call : Option (ConnId × CppString)}
    (hsame : messageFor ptr call = messageFor ptr (s.calling thread)) (other : ThreadId) :
    calling other = messageFor ptr (Function.update s.calling thread call other) := by
  rw [← messageFor_update hcalling, hsame, ← hcalling, Function.update_eq_self]

/-- Another thread calls `send`. -/
theorem send_follows {buf : CppString} (hfollows : s.Follows ptr t)
    (hstep : step s (.send thread conn buf) = .ok next) :
    ∃ u, Reaches (Inbound.step ptr) (Inbound.Handles kind) t u ∧ next.Follows ptr u := by
  obtain ⟨⟨-, hnone⟩, hstep⟩ := Except.guard_eq_ok.mp hstep
  split at hstep
  next hconnected =>
    obtain rfl := Except.ok.inj hstep
    by_cases hself : conn = ptr
    · subst hself
      have hidle : t.system.calling thread = none := by rw [hfollows.calling, hnone, messageFor]
      have hstate : t.system.conn.state = .kConnected := by
        rw [hfollows.projects.object]
        exact hconnected
      have hsend : TcpConnection.System.step conn t.system (.send thread buf) = .ok _ :=
        (if_pos hidle).trans (if_pos hstate)
      obtain ⟨u, hreaches, hsystem, htrace⟩ := Inbound.step_trace kind _
        { t.trace with called := t.trace.called ++ [(thread, buf.bytes)] } hsend trivial
        (List.append_nil _).symm (List.append_nil _).symm rfl rfl rfl rfl
      refine ⟨u, hreaches, ?_, reaches_delivers hfollows.delivers hreaches, ?_, ?_, fun other => ?_⟩
      · rw [hsystem]
        exact hfollows.projects.of_fields rfl rfl rfl rfl rfl
      · rw [hsystem]
        exact hfollows.tagged
      · rw [htrace, hfollows.trace]
        dsimp only
        rw [Function.update_self]
      · rw [hsystem, ← messageFor_update hfollows.calling, messageFor, if_pos rfl]
    · refine ⟨t, .refl t, hfollows.projects, hfollows.delivers, hfollows.tagged, ?_,
        fun other => ?_⟩
      · rw [hfollows.trace]
        exact (Function.update_of_ne (Ne.symm hself) ..).symm
      · refine messageFor_update_of_ne hfollows.calling ?_ other
        rw [hnone]
        exact if_neg hself
  next =>
    obtain rfl := Except.ok.inj hstep
    exact ⟨t, .refl t, hfollows⟩

/-- It queues its message. -/
theorem queueSend_follows (hfollows : s.Follows ptr t)
    (hstep : step s (.queueSend thread) = .ok next) :
    ∃ u, Reaches (Inbound.step ptr) (Inbound.Handles kind) t u ∧ next.Follows ptr u := by
  simp only [step] at hstep
  split at hstep
  next conn buf hcalling =>
    obtain ⟨system, hsystem, hstep⟩ := Except.bind_eq_ok.mp hstep
    obtain rfl := Except.ok.inj hstep
    obtain ⟨-, hsystem⟩ := Except.guard_eq_ok.mp hsystem
    obtain rfl := Except.ok.inj hsystem
    by_cases hself : conn = ptr
    · subst hself
      have hcall : t.system.calling thread = some buf.bytes := by
        rw [hfollows.calling, hcalling, messageFor, if_pos rfl]
      have hqueue : TcpConnection.System.step conn t.system (.queueSend thread) = .ok {
          t.system with
          calling := Function.update t.system.calling thread none
          pendingFunctors :=
            t.system.pendingFunctors ++ [⟨.sendInLoop conn buf.bytes, some thread⟩] } := by
        simp only [TcpConnection.System.step, hcall]
      obtain ⟨u, hreaches, hsystem, htrace⟩ := Inbound.step_trace kind _
        { t.trace with senders := t.trace.senders ++ [thread] } hqueue trivial
        (List.append_nil _).symm (List.append_nil _).symm rfl rfl
        (by simp [Inbound.trace, TcpConnection.System.senders, TcpConnection.System.tasks]) rfl
      refine ⟨u, hreaches, ?_, reaches_delivers hfollows.delivers hreaches, ?_, ?_, fun other => ?_⟩
      · rw [hsystem]
        have hof : (Functor.sendInLoop conn buf.bytes).ofConn conn = true := decide_eq_true rfl
        exact (hfollows.projects.queueInLoop_self _ (some thread) hof).of_fields rfl rfl rfl rfl rfl
      · rw [hsystem]
        exact hfollows.tagged.queue (by simp [Functor.messages])
      · rw [htrace, hfollows.trace]
        dsimp only
        rw [Function.update_self]
      · rw [hsystem, ← messageFor_update hfollows.calling, messageFor]
    · refine ⟨t, .refl t, hfollows.projects.queueInLoop_of_ne (decide_eq_false hself),
        hfollows.delivers, hfollows.tagged, ?_, fun other => ?_⟩
      · rw [hfollows.trace]
        exact (Function.update_of_ne (Ne.symm hself) ..).symm
      · refine messageFor_update_of_ne hfollows.calling ?_ other
        rw [hcalling]
        exact (if_neg hself).symm
  next => cases hstep

/-! ## Connections that are not accepted yet -/

structure Invariant (s : TracedServer) : Prop where
  system : s.system.Invariant
  unseen : ∀ conn, s.system.accepted ≤ conn → s.traces conn = .empty
  calling : ∀ thread conn buf, s.calling thread = some (conn, buf) → conn < s.system.accepted

theorem initial_invariant (listenAddr : InetAddress) (nameArg : String)
    (timeout numThreads : Nat) :
    (initial listenAddr nameArg timeout numThreads).Invariant where
  system := System.initial_invariant listenAddr nameArg timeout numThreads
  unseen := fun _ _ => rfl
  calling := fun _ _ _ hcalling => by cases hcalling

theorem accepted_le {s next : System} {action : System.Action} (hstep : s.step action = .ok next) :
    s.accepted ≤ next.accepted := by
  cases action with
  | newConnection sockfd hasWriteCompleteCallback now =>
      obtain ⟨-, hstep⟩ := Except.guard_eq_ok.mp hstep
      rw [(System.newConnection_steady hstep).accepted]
      exact Nat.le_succ _
  | _ => exact Nat.le_of_eq (System.step_steady (by simp) hstep).accepted.symm

/-- A step shows nothing of later connections. -/
theorem subject_lt {s next : System} {action : System.Action} (hs : s.Invariant)
    (hstep : s.step action = .ok next) (hsubject : s.subject action = some conn) :
    conn < next.accepted := by
  cases action with
  | newConnection sockfd hasWriteCompleteCallback now =>
      obtain ⟨-, hstep⟩ := Except.guard_eq_ok.mp hstep
      obtain rfl := Option.some.inj hsubject
      rw [(System.newConnection_steady hstep).accepted]
      exact Nat.lt_succ_self _
  | callback loop calls now =>
      exact Nat.lt_of_lt_of_le (hs.watched (Or.inr hsubject)).1 (accepted_le hstep)
  | runFunctor loop result =>
      cases hfunctors : (s.loops loop).functors with
      | nil => simp [System.subject, hfunctors] at hsubject
      | cons functor rest =>
          simp only [System.subject, hfunctors, List.head?_cons, Option.map_some,
            Option.some.injEq] at hsubject
          obtain ⟨-, -, hmem⟩ := hs.waits hfunctors
          have htarget := (hs.guarded.wellformed.queued _ functor
            ((s.loops _).tasks_subset_queued hmem)).2
          exact Nat.lt_of_lt_of_le (hsubject ▸ htarget) (accepted_le hstep)
  | sendDirect target buf result | shutdownDirect target =>
      obtain ⟨⟨halive, -⟩, -⟩ := Except.guard_eq_ok.mp hstep
      obtain rfl := Option.some.inj hsubject
      exact Nat.lt_of_lt_of_le halive.1 (accepted_le hstep)
  | user target op =>
      obtain ⟨halive, -⟩ := Except.guard_eq_ok.mp hstep
      obtain rfl := Option.some.inj hsubject
      exact Nat.lt_of_lt_of_le halive.1 (accepted_le hstep)
  | destroyEntry entry =>
      simp only [System.subject, Option.ite_none_right_eq_some, Option.some.injEq] at hsubject
      obtain ⟨halive, rfl⟩ := hsubject
      exact Nat.lt_of_lt_of_le halive.1 (accepted_le hstep)
  | _ => cases hsubject

theorem step_invariant (s : TracedServer) (action : Action) (next : TracedServer)
    (hs : s.Invariant) (hregular : s.Regular action) (hstep : step s action = .ok next) :
    next.Invariant := by
  cases action with
  | server action =>
      obtain ⟨hsent, system, hsystem, rfl⟩ := step_server hstep
      have haccepted := accepted_le hsystem
      refine ⟨System.step_invariant _ _ _ hs.system hregular hsystem, fun conn hconn => ?_,
        fun thread conn buf hcalling =>
          Nat.lt_of_lt_of_le (hs.calling thread conn buf hcalling) haccepted⟩
      dsimp only
      rw [hs.unseen conn (Nat.le_trans haccepted hconn)]
      refine System.after_of_subject_ne (fun hsubject => ?_) .empty
      exact absurd (subject_lt hs.system hsystem hsubject) (Nat.not_lt_of_le hconn)
  | send thread conn buf =>
      obtain ⟨⟨halive, -⟩, hstep⟩ := Except.guard_eq_ok.mp hstep
      split at hstep
      next =>
        obtain rfl := Except.ok.inj hstep
        refine ⟨hs.system, fun other hother => ?_, fun other target sent hcalling => ?_⟩
        · have hne : other ≠ conn := by
            rintro rfl
            exact absurd halive.1 (Nat.not_lt_of_le hother)
          exact (Function.update_of_ne hne ..).trans (hs.unseen other hother)
        · dsimp only at hcalling
          by_cases hsame : other = thread
          · rw [hsame, Function.update_self] at hcalling
            obtain ⟨rfl, -⟩ := Prod.mk.inj (Option.some.inj hcalling)
            exact halive.1
          · rw [Function.update_of_ne hsame] at hcalling
            exact hs.calling other target sent hcalling
      next =>
        obtain rfl := Except.ok.inj hstep
        exact hs
  | queueSend thread =>
      simp only [step] at hstep
      split at hstep
      next conn buf hcalled =>
        obtain ⟨system, hsystem, hstep⟩ := Except.bind_eq_ok.mp hstep
        obtain rfl := Except.ok.inj hstep
        have haccepted := accepted_le hsystem
        have hconn := hs.calling thread conn buf hcalled
        have hsent : s.system.Regular (.queueSend conn buf) := trivial
        refine ⟨System.step_invariant _ _ _ hs.system hsent hsystem, fun other hother => ?_,
          fun other target sent hcalling => ?_⟩
        · have hold := Nat.le_trans haccepted hother
          have hne : other ≠ conn := by
            rintro rfl
            exact absurd hconn (Nat.not_lt_of_le hold)
          exact (Function.update_of_ne hne ..).trans (hs.unseen other hold)
        · dsimp only at hcalling
          by_cases hsame : other = thread
          · rw [hsame, Function.update_self] at hcalling
            cases hcalling
          · rw [Function.update_of_ne hsame] at hcalling
            exact Nat.lt_of_lt_of_le (hs.calling other target sent hcalling) haccepted
      next => cases hstep

/-! ## Runs -/

/-- Alone, the connection can come to where it is in the server, and the same has been seen. -/
def Mirrors (kind : List Callback → Prop) (ptr : ConnId) (s : TracedServer) : Prop :=
  ptr < s.system.accepted → ∃ loop name sockfd hasWriteCompleteCallback t,
    Reaches (Inbound.step ptr) (Inbound.Handles kind)
      (Inbound.initial ptr loop name sockfd hasWriteCompleteCallback false) t ∧ s.Follows ptr t

/-- The connection is accepted in this step. -/
theorem accept_mirrors {action : System.Action} (hs : s.Invariant)
    (hregular : s.system.Regular action) (hstep : step s (.server action) = .ok next)
    (hold : ¬ ptr < s.system.accepted) : next.Mirrors kind ptr := by
  intro hconn
  obtain ⟨-, system, hsystem, rfl⟩ := step_server hstep
  have hnew : ∃ sockfd hasWriteCompleteCallback now,
      action = .newConnection sockfd hasWriteCompleteCallback now := by
    by_contra hother
    have hsteady := System.step_steady (fun sockfd hasWriteCompleteCallback now heq =>
      hother ⟨sockfd, hasWriteCompleteCallback, now, heq⟩) hsystem
    exact hold (hsteady.accepted ▸ hconn)
  obtain ⟨sockfd, hasWriteCompleteCallback, now, rfl⟩ := hnew
  obtain ⟨⟨-, -, -, -, hfd⟩, hnew⟩ := Except.guard_eq_ok.mp hsystem
  simp only [List.mem_range] at hfd
  have haccepted : system.accepted = s.system.accepted + 1 :=
    (System.newConnection_steady hnew).accepted
  have hlast : ptr < s.system.accepted + 1 := haccepted ▸ hconn
  obtain rfl : ptr = s.system.accepted :=
    Nat.le_antisymm (Nat.le_of_lt_succ hlast) (Nat.le_of_not_lt hold)
  have hbounded : s.system.accepted + 1 < 2 ^ 31 := hregular
  have hfew : s.system.accepted < 2 ^ 32 := by omega
  obtain ⟨u, hreflects⟩ := System.reflects_newConnection kind hs.system hfd hfew hnew
  have hdelivers := reaches_delivers (Inbound.initial_delivers ..) hreflects.reaches
  refine ⟨_, _, _, _, u, hreflects.reaches, hreflects.projects, hdelivers, hreflects.tagged, ?_,
    fun thread => ?_⟩
  · rw [hreflects.trace]
    dsimp only
    rw [hs.unseen _ (Nat.le_refl _)]
  · rw [hreflects.calling]
    dsimp only
    cases hcalling : s.calling thread with
    | none => rfl
    | some call =>
        have hlt := hs.calling thread call.1 call.2 hcalling
        exact (if_neg (Nat.ne_of_lt hlt)).symm

theorem step_mirrors (s : TracedServer) (action : Action) (next : TracedServer)
    (hs : s.Invariant ∧ s.Mirrors kind ptr) (hadmits : s.Admits kind ptr action)
    (hstep : step s action = .ok next) : next.Invariant ∧ next.Mirrors kind ptr := by
  obtain ⟨hinvariant, hmirrors⟩ := hs
  have hregular : s.Regular action := by
    cases action with
    | server action => exact hadmits.1
    | send | queueSend => trivial
  refine ⟨step_invariant s action next hinvariant hregular hstep, ?_⟩
  by_cases hold : ptr < s.system.accepted
  · intro _
    obtain ⟨loop, name, sockfd, hasWriteCompleteCallback, t, hreaches, hfollows⟩ := hmirrors hold
    have hmatched : ∃ u, Reaches (Inbound.step ptr) (Inbound.Handles kind) t u ∧
        next.Follows ptr u := by
      cases action with
      | server action =>
          exact server_follows hinvariant.system hold hfollows hadmits.1 hadmits.2 hstep
      | send thread conn buf => exact send_follows hfollows hstep
      | queueSend thread => exact queueSend_follows hfollows hstep
    obtain ⟨u, hmore, hnext⟩ := hmatched
    exact ⟨loop, name, sockfd, hasWriteCompleteCallback, u, hreaches.trans hmore, hnext⟩
  · cases action with
    | server action => exact accept_mirrors hinvariant hregular hstep hold
    | send thread conn buf =>
        obtain ⟨-, hstep⟩ := Except.guard_eq_ok.mp hstep
        split at hstep
        next =>
          obtain rfl := Except.ok.inj hstep
          exact fun hconn => absurd hconn hold
        next =>
          obtain rfl := Except.ok.inj hstep
          exact hmirrors
    | queueSend thread =>
        simp only [step] at hstep
        split at hstep
        next conn buf hcalling =>
          obtain ⟨system, hsystem, hstep⟩ := Except.bind_eq_ok.mp hstep
          obtain rfl := Except.ok.inj hstep
          obtain ⟨-, hsystem⟩ := Except.guard_eq_ok.mp hsystem
          obtain rfl := Except.ok.inj hsystem
          exact fun hconn => absurd hconn hold
        next => cases hstep

variable {listenAddr : InetAddress} {nameArg : String} {timeout numThreads : Nat}
  {schedule : List Action}

theorem run_mirrors (hadmits : EveryStep step (Admits kind ptr)
      (initial listenAddr nameArg timeout numThreads) schedule)
    (hrun : run step (initial listenAddr nameArg timeout numThreads) schedule = .ok s) :
    s.Mirrors kind ptr := by
  have hinitial : (initial listenAddr nameArg timeout numThreads).Invariant ∧
      (initial listenAddr nameArg timeout numThreads).Mirrors kind ptr :=
    ⟨initial_invariant .., fun hconn => absurd hconn (Nat.not_lt_zero _)⟩
  exact (run_invariant_of_everyStep step_mirrors hinitial hadmits hrun).2

/-- Any callbacks may run. -/
theorem admits_of_regular {state : TracedServer} (ptr : ConnId)
    (hregular : EveryStep step Regular state schedule) :
    EveryStep step (Admits (fun _ => True) ptr) state schedule := by
  refine hregular.imp (fun _ _ _ (_ : True) _ _ => trivial) ?_ trivial
  intro s action _ hregular
  cases action with
  | server action =>
      refine ⟨hregular, ?_⟩
      cases action with
      | handleEvent loop => exact fun _ => trivial
      | _ => trivial
  | send | queueSend => trivial

/-- **Isolation of the connections.** Whatever a server with its loops and threads does, each of
its connections is in a state to which it also comes alone, with the same queue, the same calls
under way and the same trace. -/
theorem connections_isolated (hregular : EveryStep step Regular
      (initial listenAddr nameArg timeout numThreads) schedule)
    (hrun : run step (initial listenAddr nameArg timeout numThreads) schedule = .ok s)
    (hconn : ptr < s.system.accepted) :
    ∃ loop name sockfd hasWriteCompleteCallback actions t,
      run (Inbound.step ptr) (Inbound.initial ptr loop name sockfd hasWriteCompleteCallback false)
        actions = .ok t ∧ s.Follows ptr t := by
  obtain ⟨loop, name, sockfd, hasWriteCompleteCallback, t, ⟨actions, -, halone⟩, hfollows⟩ :=
    run_mirrors (admits_of_regular ptr hregular) hrun hconn
  exact ⟨loop, name, sockfd, hasWriteCompleteCallback, actions, t, halone, hfollows⟩

/-- Two clients of a server with one sub-loop. A thread sends to the first, of which the socket
takes one byte only, while both are read. -/
def twoClients : List Action :=
  [.server (.newConnection 5 false 0), .server (.newConnection 6 false 0), .server (.swap 1),
    .server (.runFunctor 1 (.accepted 0)), .server (.runFunctor 1 (.accepted 0)),
    .server (.endFunctors 1), .send 7 0 ⟨[65, 66], by decide⟩,
    .server (.poll 1 [(6, EPOLLIN), (5, EPOLLIN)]), .server (.handleEvent 1),
    .server (.callback 1 ⟨.received [67], .other 0, .accepted 0⟩ 0), .server (.endHandling 1),
    .queueSend 7, .server (.handleEvent 1),
    .server (.callback 1 ⟨.received [68, 69], .other 0, .accepted 0⟩ 0), .server (.endHandling 1),
    .server (.swap 1), .server (.runFunctor 1 (.accepted 1)), .server (.user 0 (.retrieve 1))]

def oneSubLoop : TracedServer := initial ⟨fun _ => 0, 80⟩ "" 1 1

theorem twoClients_traces : ∃ s, run step oneSubLoop twoClients = .ok s ∧ s.system.accepted = 2 ∧
    (s.system.conns 0).state = .kConnected ∧ (s.system.conns 0).backlog = [66] ∧
    s.traces 0 = ⟨[[68, 69]], [68],
      [.connectionCallback .kConnected, .messageCallback, .write [65, 66] (.accepted 1)],
      [(7, [65, 66])], [], [(some 7, [65, 66])]⟩ ∧
    s.traces 1 = ⟨[[67]], [], [.connectionCallback .kConnected, .messageCallback], [], [], []⟩ := by
  have hends : ends (fun s => decide (s.system.accepted = 2 ∧
      (s.system.conns 0).state = .kConnected ∧ (s.system.conns 0).backlog = [66] ∧
      s.traces 0 = ⟨[[68, 69]], [68],
        [.connectionCallback .kConnected, .messageCallback, .write [65, 66] (.accepted 1)],
        [(7, [65, 66])], [], [(some 7, [65, 66])]⟩ ∧
      s.traces 1 = ⟨[[67]], [], [.connectionCallback .kConnected, .messageCallback], [], [], []⟩))
      (run step oneSubLoop twoClients) = true := by
    decide +kernel
  obtain ⟨s, hrun, hcheck⟩ := exists_of_ends hends
  exact ⟨s, hrun, of_decide_eq_true hcheck⟩

instance (s : TracedServer) : DecidablePred s.Regular := fun action =>
  match action with
  | .server action => inferInstanceAs (Decidable (s.system.Regular action))
  | .send .. | .queueSend _ => inferInstanceAs (Decidable True)

theorem twoClients_regular : EveryStep step Regular oneSubLoop twoClients := by decide +kernel

theorem connections_isolated_twoClients : ∃ s loop name sockfd hasWriteCompleteCallback actions t,
    run step oneSubLoop twoClients = .ok s ∧
      run (Inbound.step 0) (Inbound.initial 0 loop name sockfd hasWriteCompleteCallback false)
        actions = .ok t ∧ t.system.conn.backlog = [66] ∧ t.received = [[68, 69]] ∧
      t.system.executed = [(some 7, [65, 66])] := by
  obtain ⟨s, hrun, haccepted, -, hbacklog, htrace, -⟩ := twoClients_traces
  have hconn : 0 < s.system.accepted := by
    rw [haccepted]
    exact Nat.two_pos
  obtain ⟨loop, name, sockfd, hasWriteCompleteCallback, actions, t, halone, hfollows⟩ :=
    connections_isolated twoClients_regular hrun hconn
  have hseen := hfollows.trace.trans htrace
  refine ⟨s, loop, name, sockfd, hasWriteCompleteCallback, actions, t, hrun, halone, ?_,
    congrArg Trace.received hseen, congrArg Trace.executed hseen⟩
  rw [hfollows.projects.object]
  exact hbacklog

/-! ## What holds of one connection holds of all -/

/-- What the steps of one connection preserve holds where it comes alone. -/
theorem reaches_system {invariant : TcpConnection.System → Prop}
    {condition : TcpConnection.System → TcpConnection.System.Action → Prop}
    (hpreserved : ∀ state action next, invariant state → condition state action →
      TcpConnection.System.step ptr state action = .ok next → invariant next)
    (himplies : ∀ (t : Inbound) (action : TcpConnection.System.Action), t.Handles kind action →
      condition t.system action) {u : Inbound} (ht : invariant t.system)
    (hreaches : Reaches (Inbound.step ptr) (Inbound.Handles kind) t u) : invariant u.system := by
  obtain ⟨actions, hevery, hrun⟩ := hreaches
  have hkept (t : Inbound) (action : TcpConnection.System.Action) (next : Inbound)
      (ht : (invariant ∘ Inbound.system) t) (hhandles : t.Handles kind action)
      (hstep : Inbound.step ptr t action = .ok next) : (invariant ∘ Inbound.system) next :=
    hpreserved _ _ _ ht (himplies t action hhandles) (Inbound.step_eq_ok hstep).1
  exact run_invariant_of_everyStep hkept ht hevery hrun

/-- **Output of a server.** While a connection is open and no write to it has failed for good, the
bytes its socket has accepted and those still buffered are the executed messages in order,
and the messages of each thread are executed in the order of its calls. -/
theorem output_streams (hregular : EveryStep step Regular
      (initial listenAddr nameArg timeout numThreads) schedule)
    (hrun : run step (initial listenAddr nameArg timeout numThreads) schedule = .ok s)
    (hconn : ptr < s.system.accepted) :
    ((s.system.conns ptr).Established →
      (∀ event ∈ (s.traces ptr).events, event.isFault = false) →
      (s.traces ptr).events.flatMap IoEvent.accepted ++ (s.system.conns ptr).backlog =
        (s.traces ptr).executed.flatMap Prod.snd) ∧
    ∀ thread, ((s.traces ptr).executed.filter (·.1 = some thread)).map Prod.snd <+:
      ((s.traces ptr).called.filter (·.1 = thread)).map Prod.snd := by
  obtain ⟨loop, name, sockfd, hasWriteCompleteCallback, t, hreaches, hfollows⟩ :=
    run_mirrors (admits_of_regular ptr hregular) hrun hconn
  have hordered : t.system.Ordered ptr :=
    reaches_system (fun state action next hs (_ : True) hstep =>
        TcpConnection.System.step_ordered state action next hs hstep) (fun _ _ _ => trivial)
      (TcpConnection.System.initial_ordered ..) hreaches
  rw [← hfollows.trace]
  refine ⟨fun hopen hfault => ?_, fun thread => ?_⟩
  · have hobject := hfollows.projects.object
    have hstate : t.system.conn.state = (s.system.conns ptr).state := by
      rw [hobject]
      rfl
    have hbacklog : t.system.conn.backlog = (s.system.conns ptr).backlog := by
      rw [hobject]
      rfl
    rw [← hbacklog]
    refine hordered.streams (fun hclosed => ?_) hfault
    rw [hstate] at hclosed
    rcases hopen with hconnected | hdisconnecting
    · rw [hconnected] at hclosed
      cases hclosed
    · rw [hdisconnecting] at hclosed
      cases hclosed
  · have hall := hordered.inOrder thread
    rw [List.append_assoc] at hall
    exact ⟨_, hall⟩

theorem output_streams_twoClients : ∃ s, run step oneSubLoop twoClients = .ok s ∧
    (s.traces 0).events.flatMap IoEvent.accepted ++ [66] = [65, 66] ∧
    [[65, 66]] <+: ((s.traces 0).called.filter (·.1 = 7)).map Prod.snd := by
  obtain ⟨s, hrun, haccepted, hconnected, hbacklog, htrace, -⟩ := twoClients_traces
  have hconn : 0 < s.system.accepted := by
    rw [haccepted]
    exact Nat.two_pos
  obtain ⟨hstream, horder⟩ := output_streams twoClients_regular hrun hconn
  have hexecuted : (s.traces 0).executed = [(some 7, [65, 66])] := by rw [htrace]
  have hfault : ∀ event ∈ (s.traces 0).events, event.isFault = false := by
    rw [htrace]
    decide
  have hbytes := hstream (Or.inl hconnected) hfault
  have hsent := horder 7
  rw [hbacklog, hexecuted] at hbytes
  rw [hexecuted] at hsent
  exact ⟨s, hrun, hbytes, hsent⟩

/-- **Input of a server.** The bytes that user code has taken from a connection, followed by those
in its `inputBuffer_`, are the bytes its reads have delivered, in order; and the user has been
called once for each read that delivered some. -/
theorem input_streams (hregular : EveryStep step Regular
      (initial listenAddr nameArg timeout numThreads) schedule)
    (hrun : run step (initial listenAddr nameArg timeout numThreads) schedule = .ok s)
    (hconn : ptr < s.system.accepted) :
    (s.traces ptr).retrieved ++ (s.system.conns ptr).inputBuffer.readable =
        (s.traces ptr).received.flatten ∧
      (s.traces ptr).events.count .messageCallback = (s.traces ptr).received.length := by
  obtain ⟨loop, name, sockfd, hasWriteCompleteCallback, t, -, hfollows⟩ :=
    run_mirrors (admits_of_regular ptr hregular) hrun hconn
  have hinput : t.system.conn.inputBuffer = (s.system.conns ptr).inputBuffer := by
    rw [hfollows.projects.object]
    rfl
  rw [← hfollows.trace, ← hinput]
  exact ⟨hfollows.delivers.stream, hfollows.delivers.told⟩

theorem input_streams_twoClients : ∃ s, run step oneSubLoop twoClients = .ok s ∧
    (s.system.conns 0).inputBuffer.readable = [69] ∧
    (s.system.conns 1).inputBuffer.readable = [67] := by
  obtain ⟨s, hrun, haccepted, -, -, hfirst, hsecond⟩ := twoClients_traces
  have hconn : 1 < s.system.accepted := by
    rw [haccepted]
    exact Nat.one_lt_two
  obtain ⟨hstream, -⟩ := input_streams twoClients_regular hrun (Nat.lt_of_succ_lt hconn)
  obtain ⟨hother, -⟩ := input_streams twoClients_regular hrun hconn
  rw [hfirst] at hstream
  rw [hsecond] at hother
  exact ⟨s, hrun, (List.cons.inj hstream).2, hother⟩

/-- The handled event runs at most one callback that may close the connection or deliver a
message. -/
def OneReaction (callbacks : List Callback) : Prop :=
  (TcpConnection.reactions callbacks).length ≤ 1

instance : DecidablePred OneReaction := fun _ => inferInstanceAs (Decidable (_ ≤ _))

/-- **Callbacks of a server.** If every event of a connection that is handled runs one such callback
at most, its user is told that it is up, then of its messages, then once that it is down; and the
server is asked at most once to remove it. -/
theorem callbacks_lawful_of_oneReaction (hadmits : EveryStep step (Admits OneReaction ptr)
      (initial listenAddr nameArg timeout numThreads) schedule)
    (hrun : run step (initial listenAddr nameArg timeout numThreads) schedule = .ok s)
    (hconn : ptr < s.system.accepted) :
    Lawful (s.traces ptr).events ∧
      ((s.system.conns ptr).state = .kDisconnected →
        .connectionCallback .kDisconnected ∈ (s.traces ptr).events) := by
  obtain ⟨loop, name, sockfd, hasWriteCompleteCallback, t, hreaches, hfollows⟩ :=
    run_mirrors hadmits hrun hconn
  have hsingle : t.system.Single ptr := by
    refine reaches_system TcpConnection.System.step_single (fun t action hhandles => ?_)
      (TcpConnection.System.initial_single ..) hreaches
    cases action with
    | handleEvent => exact hhandles
    | connectDestroyedDirect => exact hhandles.elim
    | _ => trivial
  have hstate : t.system.conn.state = (s.system.conns ptr).state := by
    rw [hfollows.projects.object]
    rfl
  rw [← hfollows.trace]
  refine ⟨hsingle.told.lawful, fun hclosed => ?_⟩
  obtain ⟨messages, hstory⟩ := hsingle.told.disconnected (hstate.trans hclosed)
  have hdown : .connectionCallback .kDisconnected ∈
      t.system.events.filter IoEvent.isUserCallback := by
    rw [hstory]
    exact List.mem_append_right _ List.mem_cons_self
  exact List.mem_of_mem_filter hdown

instance (kind : List Callback → Prop) [DecidablePred kind] (ptr : ConnId) (s : TracedServer) :
    DecidablePred (s.Admits kind ptr) := fun action =>
  match action with
  | .server _ => inferInstanceAs (Decidable (_ ∧ _))
  | .send .. | .queueSend _ => inferInstanceAs (Decidable True)

theorem callbacks_lawful_of_oneReaction_twoClients : ∃ s,
    run step oneSubLoop twoClients = .ok s ∧ Lawful (s.traces 1).events := by
  obtain ⟨s, hrun, haccepted, -⟩ := twoClients_traces
  have hconn : 1 < s.system.accepted := by
    rw [haccepted]
    exact Nat.one_lt_two
  have hadmits : EveryStep step (Admits OneReaction 1) oneSubLoop twoClients := by decide +kernel
  exact ⟨s, hrun, (callbacks_lawful_of_oneReaction hadmits hrun hconn).1⟩

end TracedServer

end Muduo
