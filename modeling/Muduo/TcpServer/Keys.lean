import Muduo.TcpServer.Steady

/-! # The keys of `connections_`

`nextConnId_` is an `int`, and the names of connections tell their numbers modulo 2^32. The
server never compares a new name with the keys in use: a connection that is still mapped
2^32 accepts later loses its key, and whichever of the two is removed first takes the key of
the other one away.
-/

open Transition

namespace Muduo

namespace System

variable {s middle next : System} {conn other : ConnId}

/-! ## Numbers and names -/

/-- Names tell numbers modulo 2^32, and a key is the name of its connection. -/
structure Keyed (s : System) : Prop where
  ipPort : s.server.ipPort.length ≤ InetAddress.maxLength
  nextConnId : s.server.nextConnId = BitVec.ofNat 32 (s.accepted + 1)
  names : ∀ conn < s.accepted, (s.conns conn).name =
    connName s.server.name s.server.ipPort (BitVec.ofNat 32 (conn + 1))
  keys : ∀ key conn, s.server.connections key = some conn →
    conn < s.accepted ∧ (s.conns conn).name = key

theorem initial_keyed (listenAddr : InetAddress) (nameArg : String) (timeout numThreads : Nat) :
    (initial listenAddr nameArg timeout numThreads).Keyed where
  ipPort := listenAddr.toIpPort_length
  nextConnId := rfl
  names := nofun
  keys := nofun

theorem Keyed.steady (hs : s.Keyed) (hsteady : Steady s next) : next.Keyed where
  ipPort := by
    rw [hsteady.ipPort]
    exact hs.ipPort
  nextConnId := by
    rw [hsteady.nextConnId, hsteady.accepted]
    exact hs.nextConnId
  names := by
    rw [hsteady.accepted, hsteady.name, hsteady.ipPort]
    intro conn hconn
    rw [hsteady.names]
    exact hs.names conn hconn
  keys := by
    intro key conn hmapped
    rw [hsteady.accepted, hsteady.names]
    exact hs.keys key conn (hsteady.connections key conn hmapped)

theorem Keyed.construct (hs : s.Keyed) (sockfd : Int) (hasWriteCompleteCallback : Bool) :
    (s.construct sockfd hasWriteCompleteCallback).Keyed where
  ipPort := hs.ipPort
  nextConnId := by
    simp only [System.construct, hs.nextConnId]
    exact BitVec.ofNat_add_ofNat _ _
  names := by
    intro conn hconn
    rcases Nat.lt_succ_iff_lt_or_eq.mp hconn with hold | rfl
    · rw [construct_conns _ _ hold]
      exact hs.names conn hold
    · rw [construct_new]
      exact congrArg (connName s.server.name s.server.ipPort) hs.nextConnId
  keys := by
    intro key conn hmapped
    simp only [System.construct, Function.update_apply] at hmapped
    split at hmapped
    next hkey =>
      obtain rfl := Option.some.inj hmapped
      rw [construct_new]
      exact ⟨Nat.lt_succ_self _, hkey.symm⟩
    next =>
      obtain ⟨hold, hname⟩ := hs.keys key conn hmapped
      rw [construct_conns _ _ hold]
      exact ⟨Nat.lt_succ_of_lt hold, hname⟩

theorem step_keyed (s : System) (action : Action) (next : System) (hs : s.Keyed)
    (hstep : step s action = .ok next) : next.Keyed := by
  by_cases hnew : ∃ sockfd hasWriteCompleteCallback now,
      action = .newConnection sockfd hasWriteCompleteCallback now
  · obtain ⟨sockfd, hasWriteCompleteCallback, now, rfl⟩ := hnew
    obtain ⟨-, hstep⟩ := Except.guard_eq_ok.mp hstep
    exact (hs.construct _ _).steady (newConnection_steady hstep)
  · refine hs.steady (step_steady (fun sockfd hasWriteCompleteCallback now heq => ?_) hstep)
    exact hnew ⟨sockfd, hasWriteCompleteCallback, now, heq⟩

theorem ofNat_succ_eq_iff {first second : Nat} :
    BitVec.ofNat 32 (first + 1) = BitVec.ofNat 32 (second + 1) ↔
      first % 2 ^ 32 = second % 2 ^ 32 := by
  rw [← BitVec.toNat_inj, BitVec.toNat_ofNat, BitVec.toNat_ofNat]
  omega

/-- Two connections share a name when as many accepts lie between them as there are
numbers. -/
theorem Keyed.name_eq_iff (hs : s.Keyed) (hconn : conn < s.accepted) (hother : other < s.accepted) :
    (s.conns conn).name = (s.conns other).name ↔ conn % 2 ^ 32 = other % 2 ^ 32 := by
  rw [hs.names conn hconn, hs.names other hother, (connName_injective _ hs.ipPort).eq_iff,
    ofNat_succ_eq_iff]

/-! ## Insertion and removal -/

/-- The name that `newConnection` builds next. -/
def nextName (s : System) : String :=
  connName s.server.name s.server.ipPort s.server.nextConnId

theorem Keyed.name_eq_nextName_iff (hs : s.Keyed) (hconn : conn < s.accepted) :
    (s.conns conn).name = s.nextName ↔ conn % 2 ^ 32 = s.accepted % 2 ^ 32 := by
  rw [hs.names conn hconn, nextName, hs.nextConnId, (connName_injective _ hs.ipPort).eq_iff,
    ofNat_succ_eq_iff]

/-- A new connection does not replace another one, and removing a connection erases no other
one. -/
structure KeysDistinct (s : System) : Prop where
  fresh : s.server.connections s.nextName = none
  inserts : ∀ sockfd hasWriteCompleteCallback, ∀ other < s.accepted, s.Mapped other →
    (s.construct sockfd hasWriteCompleteCallback).Mapped other
  erases : ∀ conn, s.Alive conn → ∀ other, s.Mapped other → other ≠ conn →
    (s.removeConnectionInLoop conn).Mapped other

/-- No connection of `connections_` has the number of the next one, or of another living
one, modulo 2^32. -/
structure NumbersApart (s : System) : Prop where
  next : ∀ other < s.accepted, s.Mapped other → other % 2 ^ 32 ≠ s.accepted % 2 ^ 32
  living : ∀ conn, s.Alive conn → ∀ other, s.Mapped other → other ≠ conn →
    conn % 2 ^ 32 ≠ other % 2 ^ 32

theorem Keyed.fresh_iff (hs : s.Keyed) : s.server.connections s.nextName = none ↔
    ∀ other < s.accepted, s.Mapped other → other % 2 ^ 32 ≠ s.accepted % 2 ^ 32 := by
  constructor
  · intro hfresh other hother hmapped hnumber
    rw [Mapped, (hs.name_eq_nextName_iff hother).mpr hnumber, hfresh] at hmapped
    cases hmapped
  · intro hapart
    by_contra hused
    obtain ⟨other, hmapped⟩ := Option.ne_none_iff_exists'.mp hused
    obtain ⟨hother, hname⟩ := hs.keys _ _ hmapped
    refine hapart other hother ?_ ((hs.name_eq_nextName_iff hother).mp hname)
    rw [Mapped, hname]
    exact hmapped

/-- A key that is not in use stays with its connection. -/
theorem construct_keeps (hfresh : s.server.connections s.nextName = none) (sockfd : Int)
    (hasWriteCompleteCallback : Bool) (hother : other < s.accepted) (hmapped : s.Mapped other) :
    (s.construct sockfd hasWriteCompleteCallback).Mapped other := by
  have hname : (s.conns other).name ≠ s.nextName := by
    intro hname
    rw [Mapped, hname, hfresh] at hmapped
    cases hmapped
  rw [Mapped, construct_conns _ _ hother]
  exact (Function.update_of_ne hname _ _).trans hmapped

/-- Only the removal of a connection with the same name erases a key. -/
theorem removeConnectionInLoop_mapped_iff (hmapped : s.Mapped other) :
    (s.removeConnectionInLoop conn).Mapped other ↔
      (s.conns other).name ≠ (s.conns conn).name := by
  have hconnections : (s.removeConnectionInLoop conn).server.connections =
      Function.update s.server.connections (s.conns conn).name none := rfl
  have hconns : (s.removeConnectionInLoop conn).conns = s.conns := rfl
  rw [Mapped, hconnections, hconns, Function.update_apply]
  split
  next hname => exact iff_of_false (by rintro ⟨⟩) (fun hother => hother hname)
  next hname => exact iff_of_true hmapped hname

theorem Keyed.erases_iff (hs : s.Keyed) (halive : s.Alive conn) (hmapped : s.Mapped other) :
    (s.removeConnectionInLoop conn).Mapped other ↔ conn % 2 ^ 32 ≠ other % 2 ^ 32 := by
  obtain ⟨hother, -⟩ := hs.keys _ _ hmapped
  rw [removeConnectionInLoop_mapped_iff hmapped, ne_comm, ne_eq, hs.name_eq_iff halive.1 hother]

theorem Keyed.keysDistinct_iff (hs : s.Keyed) : s.KeysDistinct ↔ s.NumbersApart := by
  constructor
  · intro hdistinct
    refine ⟨hs.fresh_iff.mp hdistinct.fresh, fun conn halive other hmapped hother => ?_⟩
    exact (hs.erases_iff halive hmapped).mp (hdistinct.erases conn halive other hmapped hother)
  · intro hapart
    have hfresh := hs.fresh_iff.mpr hapart.next
    refine ⟨hfresh, fun sockfd hasWriteCompleteCallback other hother hmapped =>
      construct_keeps hfresh sockfd hasWriteCompleteCallback hother hmapped,
      fun conn halive other hmapped hother => ?_⟩
    exact (hs.erases_iff halive hmapped).mpr (hapart.living conn halive other hmapped hother)

/-- **Keys of connections.** In every run, with any number of accepts and any order of
removals, the keys stay distinct if and only if the numbers of the connections in use stay
distinct modulo 2^32. -/
theorem keysDistinct_iff_numbersApart (listenAddr : InetAddress) (nameArg : String)
    (timeout numThreads : Nat) (schedule : List Action) :
    EveryState step KeysDistinct (initial listenAddr nameArg timeout numThreads) schedule ↔
      EveryState step NumbersApart (initial listenAddr nameArg timeout numThreads) schedule :=
  everyState_congr step_keyed (fun _ hs => hs.keysDistinct_iff)
    (initial_keyed listenAddr nameArg timeout numThreads)

/-- In particular the keys are distinct until 2^32 connections have been accepted. -/
theorem Keyed.keysDistinct (hs : s.Keyed) (hfew : s.accepted < 2 ^ 32) : s.KeysDistinct := by
  rw [hs.keysDistinct_iff]
  refine ⟨fun other hother _ => ?_, fun conn halive other hmapped hother => ?_⟩
  · rw [Nat.mod_eq_of_lt (lt_trans hother hfew), Nat.mod_eq_of_lt hfew]
    exact Nat.ne_of_lt hother
  · obtain ⟨hlt, -⟩ := hs.keys _ _ hmapped
    rw [Nat.mod_eq_of_lt (lt_trans halive.1 hfew), Nat.mod_eq_of_lt (lt_trans hlt hfew)]
    exact hother.symm

/-! ## The numbers come round -/

/-- A server without sub-loops and without an idle timeout. -/
def plainServer : System := initial ⟨fun _ => 0, 80⟩ "" 0 0

/-- A connection is accepted, its peer hangs up, and it is removed and destroyed. -/
def comeAndGo : List Action :=
  [.newConnection 4 false 0, .poll baseLoop [(4, EPOLLHUP)], .handleEvent baseLoop,
    .callback baseLoop ⟨.received [], .other 0, .accepted 0⟩ 0, .endHandling baseLoop,
    .swap baseLoop, .runFunctor baseLoop (.accepted 0), .endFunctors baseLoop]

/-- A loop with nothing to do. -/
def idleLoop (poller : EpollPoller ConnId) : IoLoop := { IoLoop.create with poller }

/-- Nothing goes on, and only the first connection is there. -/
structure Resting (s : System) : Prop where
  running : s.lifetime = .running
  threads : s.server.threadPool.numThreads = 0
  timeout : s.server.idleTimeout = 0
  expired : s.server.timerWheel.expired = []
  references : s.references = []
  calls : s.calls = []
  loop : ∃ poller, s.loops baseLoop = idleLoop poller ∧ poller.kernel 4 = none
  only : ∀ key conn, s.server.connections key = some conn → conn = 0
  first : s.Mapped 0
  fd : (s.conns 0).channel.fd = 3

/-- The visit of one more connection has come this far. -/
structure Visit (s next : System) (conn : TcpConnection) (loop : IoLoop)
    (value : Option ConnId) : Prop where
  running : next.lifetime = .running
  threads : next.server.threadPool.numThreads = 0
  timeout : next.server.idleTimeout = 0
  expired : next.server.timerWheel.expired = []
  references : next.references = []
  calls : next.calls = []
  accepted : next.accepted = s.accepted + 1
  conns : next.conns = Function.update s.conns s.accepted conn
  loop : next.loops baseLoop = loop
  connections : next.server.connections = Function.update s.server.connections s.nextName value

section Visit

variable {visitor : TcpConnection} {loop : IoLoop} {value : Option ConnId}

theorem Visit.visitor_eq (hvisit : Visit s middle visitor loop value) :
    middle.conns s.accepted = visitor := by
  rw [hvisit.conns, Function.update_self]

theorem Visit.runs (hvisit : Visit s middle visitor loop value) : middle.Runs baseLoop := by
  refine ⟨base_mem_loopIds middle, fun _ => ?_⟩
  simp [BaseBusy, hvisit.running, hvisit.expired, hvisit.calls]

theorem Visit.alive (hvisit : Visit s middle visitor loop (some s.accepted))
    (hname : visitor.name = s.nextName) : middle.Alive s.accepted := by
  refine ⟨hvisit.accepted ▸ Nat.lt_succ_self _, Or.inl ?_⟩
  rw [Mapped, hvisit.visitor_eq, hname, hvisit.connections, Function.update_self]

theorem Visit.updateConn (hvisit : Visit s middle visitor loop value)
    (change : TcpConnection → TcpConnection) :
    Visit s (middle.updateConn s.accepted change) (change visitor) loop value :=
  { hvisit with
    conns := by
      rw [System.updateConn, hvisit.visitor_eq, hvisit.conns]
      exact Function.update_idem .. }

theorem Visit.updateLoop (hvisit : Visit s middle visitor loop value)
    (change : IoLoop → IoLoop) :
    Visit s (middle.updateLoop baseLoop change) visitor (change loop) value :=
  { hvisit with
    loop := by rw [updateLoop_self, hvisit.loop] }

theorem Visit.absorb (hvisit : Visit s middle visitor loop value) (hown : visitor.loop = baseLoop)
    (f : Frame) : Visit s (middle.absorb s.accepted f) f.conn { loop with
      poller := f.poller
      pendingFunctors := loop.pendingFunctors ++ f.queued } value := by
  have hbase : middle.own s.accepted = baseLoop := by
    rw [own, hvisit.visitor_eq, hown]
  rw [System.absorb, hbase]
  exact (hvisit.updateConn fun _ => f.conn).updateLoop _

theorem Visit.record (hvisit : Visit s middle visitor loop value) (place : LoopId)
    (conn : ConnId) (milestone : Milestone) :
    Visit s (middle.record place conn milestone) visitor loop value := { hvisit with }

theorem Visit.unmap (hvisit : Visit s middle visitor loop value)
    (hname : visitor.name = s.nextName) :
    Visit s (middle.unmap s.accepted) visitor loop none :=
  { hvisit with
    connections := by
      rw [System.unmap, hvisit.visitor_eq, hname, hvisit.connections]
      exact Function.update_idem .. }

theorem Visit.frame (hvisit : Visit s middle visitor loop value)
    (hown : visitor.loop = baseLoop) :
    middle.frame s.accepted = ⟨visitor, loop.poller, [], []⟩ := by
  rw [System.frame, own, hvisit.visitor_eq, hown, hvisit.loop]

end Visit

/-- The visitor at work. -/
def opened (name : String) : TcpConnection :=
  { TcpConnection.create baseLoop name 4 false false with
    state := .kConnected
    channel := ⟨4, Channel.kReadEvent, 0, .kAdded, true⟩ }

/-- The poller that knows it. -/
def registered (conn : ConnId) (poller : EpollPoller ConnId) : EpollPoller ConnId :=
  { poller with
    channels := Function.update poller.channels 4 (some conn)
    kernel := Function.update poller.kernel 4 (some ⟨Channel.kReadEvent, conn⟩) }

theorem connectEstablished_create (conn : ConnId) (name : String) {poller : EpollPoller ConnId}
    (hfree : poller.kernel 4 = none) :
    TcpConnection.connectEstablished conn
        ⟨TcpConnection.create baseLoop name 4 false false, poller, [], []⟩ =
      .ok ⟨opened name, registered conn poller, [], [.connectionCallback .kConnected]⟩ := by
  have hadd : epollCtl poller.kernel .add 4 ⟨Channel.kReadEvent, conn⟩ =
      some (Function.update poller.kernel 4 (some ⟨Channel.kReadEvent, conn⟩)) := by
    simp only [epollCtl, hfree]
  have hupdate : EpollPoller.update
      { poller with channels := Function.update poller.channels 4 (some conn) } .add conn
      ⟨4, Channel.kReadEvent, 0, .kAdded, true⟩ = .ok (registered conn poller) := by
    simp only [EpollPoller.update, hadd, registered]
  have hchannel : Channel.enableReading poller conn ⟨4, 0, 0, .kNew, true⟩ =
      .ok (registered conn poller, ⟨4, Channel.kReadEvent, 0, .kAdded, true⟩) := by
    unfold Channel.enableReading Channel.setEvents EpollPoller.updateChannel
    exact Except.bind_eq_ok.mpr ⟨_, hupdate, rfl⟩
  unfold TcpConnection.connectEstablished Frame.onChannel
  exact Except.bind_eq_ok.mpr ⟨_, Except.bind_eq_ok.mpr ⟨_, hchannel, rfl⟩, rfl⟩

/-- The peer hangs up. -/
def hungUp (name : String) : TcpConnection :=
  { opened name with channel := ⟨4, Channel.kReadEvent, EPOLLHUP, .kAdded, true⟩ }

/-- The visitor, closed but not destroyed. -/
def closed (name : String) : TcpConnection :=
  { opened name with
    state := .kDisconnected
    channel := ⟨4, Channel.kNoneEvent, EPOLLHUP, .kDeleted, true⟩ }

theorem handleEventWithGuard_hungUp :
    Channel.handleEventWithGuard ⟨4, Channel.kReadEvent, EPOLLHUP, .kAdded, true⟩ = [.close] := by
  decide

theorem handleClose_hungUp (conn : ConnId) (name : String) (poller : EpollPoller ConnId) :
    ∃ next, TcpConnection.handleClose conn ⟨hungUp name, registered conn poller, [], []⟩ =
        .ok ⟨closed name, next, [],
          [.connectionCallback .kDisconnected, .closeCallback]⟩ ∧ next.kernel 4 = none :=
  ⟨_, rfl, rfl⟩

theorem connectDestroyed_closed (conn : ConnId) (name : String) {poller : EpollPoller ConnId}
    (hfree : poller.kernel 4 = none) :
    ∃ f, TcpConnection.connectDestroyed conn ⟨closed name, poller, [], []⟩ = .ok f ∧
      f.poller.kernel 4 = none ∧ f.queued = [] :=
  ⟨_, rfl, hfree, rfl⟩

/-- No other connection exists. -/
theorem Resting.alive (hs : s.Resting) (halive : s.Alive conn) : conn = 0 := by
  obtain ⟨poller, hloop, -⟩ := hs.loop
  obtain ⟨-, hmapped | hreference | ⟨call, hcall, -⟩ | ⟨place, hplace, hheld⟩⟩ := halive
  · exact hs.only _ _ hmapped
  · simp [hs.references] at hreference
  · simp [hs.calls] at hcall
  · have hbase : place = baseLoop := by simpa [loopIds, hs.threads, baseLoop] using hplace
    rw [hbase, hloop] at hheld
    simp [IoLoop.held, IoLoop.queued, idleLoop, IoLoop.create] at hheld

theorem Resting.construct (hs : s.Resting) {poller : EpollPoller ConnId}
    (hloop : s.loops baseLoop = idleLoop poller) :
    Visit s (s.construct 4 false) (TcpConnection.create baseLoop s.nextName 4 false false)
      (idleLoop poller) (some s.accepted) := by
  have hpool : s.server.threadPool.getNextLoop = (baseLoop, s.server.threadPool) :=
    if_pos hs.threads
  have hconstruct : s.construct 4 false = { s with
      server := { s.server with
        nextConnId := s.server.nextConnId + 1
        connections := Function.update s.server.connections s.nextName (some s.accepted) }
      accepted := s.accepted + 1
      conns := Function.update s.conns s.accepted
        (TcpConnection.create baseLoop s.nextName 4 false false) } := by
    unfold System.construct
    rw [hpool]
    rfl
  rw [hconstruct]
  exact ⟨hs.running, hs.threads, hs.timeout, hs.expired, hs.references, hs.calls, rfl, rfl, hloop,
    rfl⟩

theorem Resting.accept (hs : s.Resting) : ∃ next poller,
    step s (.newConnection 4 false 0) = .ok next ∧ Visit s next (opened s.nextName)
      (idleLoop (registered s.accepted poller)) (some s.accepted) := by
  obtain ⟨poller, hloop, hfree⟩ := hs.loop
  have hvisit := hs.construct hloop
  have hguard : s.lifetime = .running ∧ s.Runs baseLoop ∧ (s.loops baseLoop).handling = none ∧
      (s.loops baseLoop).Batchless ∧
      ∀ conn ∈ List.range s.accepted, s.Alive conn → (s.conns conn).channel.fd ≠ 4 := by
    refine ⟨hs.running, ⟨base_mem_loopIds s, fun _ => ?_⟩, ?_, ?_, fun conn _ halive => ?_⟩
    · simp [BaseBusy, hs.running, hs.expired, hs.calls]
    · rw [hloop]
      rfl
    · rw [hloop]
      exact ⟨rfl, rfl⟩
    · rw [hs.alive halive, hs.fd]
      decide
  have hrefresh : (s.construct 4 false).refresh s.accepted 0 = .ok (s.construct 4 false) :=
    if_neg (by rw [hvisit.timeout]; exact Nat.lt_irrefl 0)
  have hown : (s.construct 4 false).own s.accepted = baseLoop := by
    rw [own, hvisit.visitor_eq]
    rfl
  have hestablish : (s.construct 4 false).connectEstablished baseLoop s.accepted =
      .ok (((s.construct 4 false).absorb s.accepted ⟨opened s.nextName,
        registered s.accepted poller, [], [.connectionCallback .kConnected]⟩).record baseLoop
          s.accepted .established) := by
    refine Except.bind_eq_ok.mpr ⟨_, ?_, rfl⟩
    rw [hvisit.frame rfl]
    exact connectEstablished_create s.accepted s.nextName hfree
  refine ⟨_, poller, ?_, (hvisit.absorb rfl ⟨opened s.nextName, registered s.accepted poller, [],
    [.connectionCallback .kConnected]⟩).record baseLoop s.accepted .established⟩
  refine Except.guard_eq_ok.mpr ⟨hguard, Except.bind_eq_ok.mpr ⟨_, hrefresh, ?_⟩⟩
  rw [if_pos hown]
  exact hestablish

section Leaving

variable {poller : EpollPoller ConnId}

/-- The loop that handles the visitor's event. -/
def busyLoop (conn : ConnId) (callbacks : List Callback) (poller : EpollPoller ConnId) : IoLoop :=
  { idleLoop poller with handling := some (conn, callbacks), guard := some conn }

theorem Visit.poll (hvisit : Visit s middle (opened s.nextName)
    (idleLoop (registered s.accepted poller)) (some s.accepted)) :
    ∃ next, step middle (.poll baseLoop [(4, EPOLLHUP)]) = .ok next ∧
      Visit s next (hungUp s.nextName)
        ((idleLoop (registered s.accepted poller)).activate s.accepted) (some s.accepted) := by
  have hkernel : (middle.loops baseLoop).poller.kernel 4 =
      some ⟨Channel.kReadEvent, s.accepted⟩ := by
    rw [hvisit.loop]
    rfl
  have hfill : fillActiveChannel baseLoop middle (4, EPOLLHUP) =
      .ok ((middle.setRevents s.accepted EPOLLHUP).updateLoop baseLoop
        (IoLoop.activate s.accepted)) := by
    unfold fillActiveChannel
    rw [hkernel]
    exact if_pos (hvisit.alive rfl)
  refine ⟨_, Except.guard_eq_ok.mpr ⟨⟨hvisit.runs, ?_, by simp⟩, ?_⟩,
    (hvisit.updateConn fun c => { c with channel := { c.channel with revents := EPOLLHUP } }
      ).updateLoop (IoLoop.activate s.accepted)⟩
  · rw [hvisit.loop]
    exact ⟨rfl, rfl, rfl, rfl⟩
  · exact run_cons_eq_ok.mpr ⟨_, hfill, rfl⟩

theorem Visit.handleEvent (hvisit : Visit s middle (hungUp s.nextName)
    ((idleLoop (registered s.accepted poller)).activate s.accepted) (some s.accepted)) :
    ∃ next, step middle (.handleEvent baseLoop) = .ok next ∧ Visit s next (hungUp s.nextName)
      (busyLoop s.accepted [.close] (registered s.accepted poller)) (some s.accepted) := by
  have hactive : (middle.loops baseLoop).activeChannels = [s.accepted] := by
    rw [hvisit.loop]
    rfl
  have hcallbacks : (hungUp s.nextName).channel.handleEventWithGuard = [.close] :=
    handleEventWithGuard_hungUp
  have hhandle : middle.handleEvent baseLoop = .ok (middle.updateLoop baseLoop fun ioLoop =>
      { ioLoop with
        activeChannels := []
        handling := some (s.accepted, [.close])
        guard := some s.accepted }) := by
    unfold System.handleEvent
    rw [hactive]
    dsimp only
    rw [if_pos (hvisit.alive rfl), hvisit.visitor_eq, hcallbacks]
    rfl
  refine ⟨_, Except.guard_eq_ok.mpr ⟨⟨hvisit.runs, ?_, ?_⟩, hhandle⟩, hvisit.updateLoop _⟩
  · rw [hvisit.loop]
    rfl
  · rw [hvisit.loop]
    exact ⟨rfl, rfl⟩

/-- The close callback removes the connection at once: its loop is the base loop. -/
theorem Visit.close (hvisit : Visit s middle (hungUp s.nextName)
    (busyLoop s.accepted [.close] (registered s.accepted poller)) (some s.accepted)) :
    ∃ next left, step middle (.callback baseLoop ⟨.received [], .other 0, .accepted 0⟩ 0) =
        .ok next ∧ left.kernel 4 = none ∧ Visit s next (closed s.nextName)
          { busyLoop s.accepted [] left with
            pendingFunctors := [.connectDestroyed s.accepted] } none := by
  obtain ⟨left, hclose, hfree⟩ := handleClose_hungUp s.accepted s.nextName poller
  have hhandling : (middle.loops baseLoop).handling = some (s.accepted, [.close]) := by
    rw [hvisit.loop]
    rfl
  let f : Frame := ⟨closed s.nextName, left, [],
    [.connectionCallback .kDisconnected, .closeCallback]⟩
  let finished := middle.finishCallback baseLoop s.accepted .close [] f
  have hfinish : Visit s finished (closed s.nextName) (busyLoop s.accepted [] left)
      (some s.accepted) :=
    ((hvisit.absorb rfl f).record baseLoop s.accepted (.handled .close)).updateLoop
      ({ · with handling := some (s.accepted, []) })
  have hown : finished.own s.accepted = baseLoop := congrArg TcpConnection.loop hfinish.visitor_eq
  have hremove : finished.removeConnection baseLoop s.accepted =
      .ok (finished.removeConnectionInLoop s.accepted) := by
    unfold removeConnection
    rw [if_neg (by rw [hfinish.running]; decide), if_pos rfl]
  have hcallback : middle.callback baseLoop ⟨.received [], .other 0, .accepted 0⟩ 0 =
      .ok (finished.removeConnectionInLoop s.accepted) := by
    unfold callback
    rw [hhandling]
    dsimp only
    rw [if_pos (hvisit.alive rfl), hvisit.frame rfl]
    exact Except.bind_eq_ok.mpr ⟨f, hclose, run_cons_eq_ok.mpr ⟨finished, rfl,
      run_cons_eq_ok.mpr ⟨_, hremove, rfl⟩⟩⟩
  refine ⟨_, left, Except.guard_eq_ok.mpr ⟨hvisit.runs, hcallback⟩, hfree, ?_⟩
  unfold removeConnectionInLoop queueInLoop
  rw [hown]
  exact ((hfinish.unmap rfl).updateLoop fun ioLoop => { ioLoop with
    pendingFunctors := ioLoop.pendingFunctors ++ [.connectDestroyed s.accepted] }).record _ _ _

/-- The rest of the round destroys the connection. -/
theorem Visit.leave (hvisit : Visit s middle (closed s.nextName)
      { busyLoop s.accepted [] poller with pendingFunctors := [.connectDestroyed s.accepted] } none)
    (hfree : poller.kernel 4 = none) :
    ∃ next visitor left, run step middle [.endHandling baseLoop, .swap baseLoop,
        .runFunctor baseLoop (.accepted 0), .endFunctors baseLoop] = .ok next ∧
      left.kernel 4 = none ∧ Visit s next visitor (idleLoop left) none := by
  obtain ⟨f, hdestroy, hleft, hqueued⟩ := connectDestroyed_closed s.accepted s.nextName hfree
  let ended := middle.updateLoop baseLoop ({ · with handling := none, guard := none })
  let swapped := ended.updateLoop baseLoop IoLoop.swapFunctors
  let started := swapped.updateLoop baseLoop
    (IoLoop.startFunctor (.connectDestroyed s.accepted) [])
  let ran := (started.absorb s.accepted f).record baseLoop s.accepted .destroyed
  have hended : Visit s ended _ _ none :=
    hvisit.updateLoop ({ · with handling := none, guard := none })
  have hswapped : Visit s swapped _ _ none := hended.updateLoop IoLoop.swapFunctors
  have hstarted : Visit s started _ _ none :=
    hswapped.updateLoop (IoLoop.startFunctor (.connectDestroyed s.accepted) [])
  have hran : Visit s ran _ _ none := (hstarted.absorb rfl f).record baseLoop s.accepted .destroyed
  have hend : step middle (.endHandling baseLoop) = .ok ended := by
    have hhandling : (middle.loops baseLoop).handling = some (s.accepted, []) := by
      rw [hvisit.loop]
      rfl
    simp only [step, hhandling]
    exact if_pos hvisit.runs
  have hswap : step ended (.swap baseLoop) = .ok swapped := by
    refine Except.guard_eq_ok.mpr ⟨⟨hended.runs, ?_⟩, rfl⟩
    rw [hended.loop]
    exact ⟨rfl, rfl, rfl, rfl⟩
  have hfunctors : (swapped.loops baseLoop).functors = [.connectDestroyed s.accepted] := by
    rw [hswapped.loop]
    rfl
  have halive : swapped.Alive (Functor.connectDestroyed s.accepted).target := by
    refine .of_held (hswapped.accepted ▸ Nat.lt_succ_self _) (base_mem_loopIds swapped)
      (mem_held.mpr (Or.inr ⟨.connectDestroyed s.accepted, ?_, rfl⟩))
    exact functors_subset_queued _ (by rw [hfunctors]; exact List.mem_singleton_self _)
  have hrunFunctor : step swapped (.runFunctor baseLoop (.accepted 0)) = .ok ran := by
    refine Except.guard_eq_ok.mpr ⟨hswapped.runs, ?_⟩
    unfold runFunctor
    rw [hfunctors]
    dsimp only
    rw [if_pos halive]
    refine Except.bind_eq_ok.mpr ⟨f, ?_, rfl⟩
    exact (congrArg (TcpConnection.connectDestroyed s.accepted) (hstarted.frame rfl)).trans hdestroy
  have hdone : step ran (.endFunctors baseLoop) =
      .ok (ran.updateLoop baseLoop IoLoop.destroyBatch) := by
    refine Except.guard_eq_ok.mpr ⟨⟨hran.runs, ?_⟩, rfl⟩
    rw [hran.loop]
    rfl
  refine ⟨_, f.conn, f.poller, run_cons_eq_ok.mpr ⟨ended, hend, run_cons_eq_ok.mpr ⟨swapped, hswap,
    run_cons_eq_ok.mpr ⟨ran, hrunFunctor, run_cons_eq_ok.mpr ⟨_, hdone, rfl⟩⟩⟩⟩, hleft, ?_⟩
  have hvisited := hran.updateLoop IoLoop.destroyBatch
  rw [hqueued] at hvisited
  exact hvisited

end Leaving

/-- The server rests again, one number further. -/
theorem Resting.comeAndGo (hs : s.Resting) (hkeyed : s.Keyed)
    (hnumber : s.accepted % 2 ^ 32 ≠ 0) : ∃ next, run step s comeAndGo = .ok next ∧
      next.Resting ∧ next.accepted = s.accepted + 1 := by
  obtain ⟨hfirst, hname⟩ := hkeyed.keys _ _ hs.first
  have hother : (s.conns 0).name ≠ s.nextName := by
    rw [ne_eq, hkeyed.name_eq_nextName_iff hfirst]
    exact fun heq => hnumber heq.symm
  obtain ⟨accepted, poller, haccept, hvisit⟩ := hs.accept
  obtain ⟨polled, hpoll, hvisit⟩ := hvisit.poll
  obtain ⟨handled, hhandle, hvisit⟩ := hvisit.handleEvent
  obtain ⟨closed, left, hclose, hfree, hvisit⟩ := hvisit.close
  obtain ⟨next, visitor, rest, hleave, hfree, hvisit⟩ := hvisit.leave hfree
  have hconns : next.conns 0 = s.conns 0 := by
    rw [hvisit.conns, Function.update_of_ne (Nat.ne_of_lt hfirst)]
  refine ⟨next, run_cons_eq_ok.mpr ⟨accepted, haccept, run_cons_eq_ok.mpr ⟨polled, hpoll,
    run_cons_eq_ok.mpr ⟨handled, hhandle, run_cons_eq_ok.mpr ⟨closed, hclose, hleave⟩⟩⟩⟩,
    ⟨hvisit.running, hvisit.threads, hvisit.timeout, hvisit.expired, hvisit.references,
      hvisit.calls, ⟨rest, hvisit.loop, hfree⟩, fun key conn hmapped => ?_, ?_, ?_⟩,
    hvisit.accepted⟩
  · rw [hvisit.connections, Function.update_apply] at hmapped
    split at hmapped
    next => cases hmapped
    next => exact hs.only key conn hmapped
  · rw [Mapped, hconns, hvisit.connections, Function.update_of_ne hother]
    exact hs.first
  · rw [hconns]
    exact hs.fd

/-- As many connections, one after the other. -/
def visits (count : Nat) : List Action := (List.replicate count comeAndGo).flatten

theorem Resting.visits (hs : s.Resting) (hkeyed : s.Keyed) {count : Nat}
    (hcount : s.accepted + count ≤ 2 ^ 32) : ∃ next, run step s (visits count) = .ok next ∧
      next.Resting ∧ next.Keyed ∧ next.accepted = s.accepted + count := by
  induction count generalizing s with
  | zero => exact ⟨s, rfl, hs, hkeyed, rfl⟩
  | succ count ih =>
      have hfirst : 0 < s.accepted := (hkeyed.keys _ _ hs.first).1
      have hnumber : s.accepted % 2 ^ 32 ≠ 0 := by
        rw [Nat.mod_eq_of_lt (by omega)]
        exact Nat.ne_of_gt hfirst
      obtain ⟨middle, hvisit, hmiddle, haccepted⟩ := hs.comeAndGo hkeyed hnumber
      obtain ⟨next, hrest, hnext, hnames, htotal⟩ :=
        ih hmiddle (run_invariant step_keyed hkeyed hvisit) (by omega)
      have hsplit : System.visits (count + 1) = System.comeAndGo ++ System.visits count := by
        rw [System.visits, List.replicate_succ, List.flatten_cons, System.visits]
      exact ⟨next, hsplit ▸ run_append.mpr ⟨middle, hvisit, hrest⟩, hnext, hnames, by omega⟩

/-- The first connection stays. -/
theorem plainServer_accepts : ∃ s, step plainServer (.newConnection 3 false 0) = .ok s ∧
    s.Resting ∧ s.accepted = 1 := by
  refine ⟨_, rfl, ⟨rfl, rfl, rfl, rfl, rfl, rfl, ⟨_, rfl, rfl⟩, fun key conn hmapped => ?_, ?_,
    rfl⟩, rfl⟩
  · change Function.update (fun _ => none) plainServer.nextName (some 0) key = some conn at hmapped
    rw [Function.update_apply] at hmapped
    split at hmapped
    next => exact (Option.some.inj hmapped).symm
    next => cases hmapped
  · exact Function.update_self plainServer.nextName (some 0) fun _ => none

/-- The first connection stays while all other numbers come and go. The next connection is
given its name, and replaces it. -/
theorem keysDistinct_false : ∃ s,
    run step plainServer (.newConnection 3 false 0 :: visits (2 ^ 32 - 1)) = .ok s ∧
    s.Mapped 0 ∧ s.server.connections s.nextName = some 0 ∧
    ¬ (s.construct 4 false).Mapped 0 ∧ ¬ s.KeysDistinct := by
  obtain ⟨start, hstart, hresting, hone⟩ := plainServer_accepts
  have hkeyed : start.Keyed := step_keyed _ _ _ (initial_keyed _ _ _ _) hstart
  have hcount : start.accepted + (2 ^ 32 - 1) ≤ 2 ^ 32 := by omega
  obtain ⟨s, hvisits, hs, hnames, haccepted⟩ := hresting.visits hkeyed hcount
  have htotal : s.accepted = 2 ^ 32 := by omega
  obtain ⟨hfirst, -⟩ := hnames.keys _ _ hs.first
  have hname : (s.conns 0).name = s.nextName := by
    rw [hnames.name_eq_nextName_iff hfirst, htotal]
    rfl
  have hused : s.server.connections s.nextName = some 0 := hname ▸ hs.first
  refine ⟨s, run_cons_eq_ok.mpr ⟨start, hstart, hvisits⟩, hs.first, hused, fun hmapped => ?_,
    fun hdistinct => ?_⟩
  · rw [Mapped, construct_conns _ _ hfirst, hname] at hmapped
    have hreplaced : (s.construct 4 false).server.connections s.nextName = some s.accepted :=
      Function.update_self ..
    rw [hreplaced, htotal] at hmapped
    cases hmapped
  · have hfresh := hdistinct.fresh
    rw [hused] at hfresh
    cases hfresh

end System

end Muduo
