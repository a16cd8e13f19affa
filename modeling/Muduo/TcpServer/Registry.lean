import Muduo.TcpServer.References

/-! # Registration of the connections

Every connection that is alive has up-to-date records in the poller of its loop,
under a descriptor of its own. The pollers refer to no other connections than
those whose channel says so.
-/

namespace Muduo

/-- A record of the poller at this descriptor points to the connection. -/
def EpollPoller.Refers (p : EpollPoller ConnId) (fd : Int) (conn : ConnId) : Prop :=
  p.channels fd = some conn ∨ ∃ mask, p.kernel fd = some ⟨mask, conn⟩

/-- The records of a tracked channel point to it only, and only when it is not new. -/
theorem EpollPoller.Tracks.refers {p : EpollPoller ConnId} {self conn : ConnId} {c : Channel}
    (htracks : p.Tracks self c) (hrefers : p.Refers c.fd conn) :
    conn = self ∧ c.index ≠ .kNew := by
  unfold Tracks Registered at htracks
  unfold Refers at hrefers
  cases hindex : c.index <;> rw [hindex] at htracks <;> simp_all

theorem EpollPoller.SameExcept.refers {p next : EpollPoller ConnId} {fd other : Int}
    (hsame : p.SameExcept next fd) (hother : other ≠ fd) {conn : ConnId} :
    next.Refers other conn ↔ p.Refers other conn := by
  unfold Refers
  rw [hsame.channels other hother, hsame.kernel other hother]

namespace System

variable {s next : System} {conn : ConnId}

/-! ## Who is alive -/

theorem Alive.of_held {loop : LoopId} (hconn : conn < s.accepted) (hloop : loop ∈ s.loopIds)
    (hheld : conn ∈ (s.loops loop).held) : s.Alive conn :=
  ⟨hconn, Or.inr (Or.inr (Or.inr ⟨loop, hloop, hheld⟩))⟩

theorem mem_held {loop : IoLoop} :
    conn ∈ loop.held ↔ loop.guard = some conn ∨ Captured loop.queued conn := by
  simp [IoLoop.held, Captured, List.mem_filterMap]

/-- Only connections that are alive gain a reference. -/
theorem Grows.alive {added : LoopId → List Functor} (hgrows : Grows s next added)
    (hadded : ∀ loop conn, Captured (added loop) conn → s.Alive conn)
    (hguard : ∀ loop conn, (next.loops loop).guard = some conn →
      (s.loops loop).guard = some conn ∨ s.Alive conn)
    (hreferences : ∀ conn ∈ next.references, conn ∈ s.references ∨ s.Alive conn)
    (hcalls : next.calls ⊆ s.calls) (halive : next.Alive conn) : s.Alive conn := by
  obtain ⟨hconn, hholder⟩ := halive
  rw [hgrows.accepted] at hconn
  rcases hholder with hmapped | hreference | ⟨call, hcall, hcaller⟩ | ⟨loop, hloop, hheld⟩
  · exact ⟨hconn, Or.inl ((hgrows.mapped conn).mp hmapped)⟩
  · rcases hreferences conn hreference with hold | hnew
    · exact ⟨hconn, Or.inr (Or.inl hold)⟩
    · exact hnew
  · exact ⟨hconn, Or.inr (Or.inr (Or.inl ⟨call, hcalls hcall, hcaller⟩))⟩
  · rw [hgrows.loopIds] at hloop
    rcases mem_held.mp hheld with hlocked | ⟨functor, hmem, hholds⟩
    · rcases hguard loop conn hlocked with hold | hnew
      · exact .of_held hconn hloop (mem_held.mpr (Or.inl hold))
      · exact hnew
    · rcases hgrows.mem_queued.mp hmem with hold | hnew
      · exact .of_held hconn hloop (mem_held.mpr (Or.inr ⟨functor, hold, hholds⟩))
      · exact hadded loop conn ⟨functor, hnew, hholds⟩

/-- A loop that drops references keeps nobody else alive. -/
theorem alive_updateLoop {loop : LoopId} {change : IoLoop → IoLoop}
    (hheld : (change (s.loops loop)).held ⊆ (s.loops loop).held)
    (halive : (s.updateLoop loop change).Alive conn) : s.Alive conn := by
  refine halive.imp_right (Or.imp_right (Or.imp_right (Or.imp_right ?_)))
  rintro ⟨other, hloop, hmem⟩
  refine ⟨other, hloop, ?_⟩
  by_cases hother : other = loop
  · subst other
    rw [updateLoop_self] at hmem
    exact hheld hmem
  · rw [updateLoop_of_ne hother] at hmem
    exact hmem

theorem alive_unmap {removed : ConnId} (halive : (s.unmap removed).Alive conn) : s.Alive conn := by
  refine halive.imp_right (Or.imp_left fun hmapped => ?_)
  unfold Mapped at hmapped ⊢
  simp only [unmap, Function.update_apply] at hmapped
  split at hmapped
  · cases hmapped
  · exact hmapped

/-- A connection that keeps its name stays mapped. -/
theorem alive_updateConn {changed : ConnId} {change : TcpConnection → TcpConnection}
    (hname : (change (s.conns changed)).name = (s.conns changed).name) :
    (s.updateConn changed change).Alive conn ↔ s.Alive conn := by
  have hmapped : (s.updateConn changed change).Mapped conn ↔ s.Mapped conn := by
    unfold Mapped
    by_cases hother : conn = changed
    · subst changed
      rw [updateConn_self, hname]
      rfl
    · rw [updateConn_of_ne hother]
      rfl
  exact and_congr_right fun _ => or_congr hmapped Iff.rfl

/-- Accepting a connection keeps nobody else alive, even when their names collide. -/
theorem alive_construct (sockfd : Int) (hasWriteCompleteCallback : Bool)
    (hconn : conn < s.accepted)
    (halive : (s.construct sockfd hasWriteCompleteCallback).Alive conn) : s.Alive conn := by
  have hids : (s.construct sockfd hasWriteCompleteCallback).loopIds = s.loopIds := by
    have hthreads : s.server.threadPool.getNextLoop.2.numThreads =
        s.server.threadPool.numThreads := by
      unfold EventLoopThreadPool.getNextLoop
      split <;> rfl
    unfold loopIds
    rw [← hthreads]
    rfl
  obtain ⟨-, hmapped | hreference | hcall | ⟨loop, hloop, hheld⟩⟩ := halive
  · unfold Mapped at hmapped
    rw [construct_conns _ _ hconn] at hmapped
    simp only [construct, Function.update_apply] at hmapped
    split at hmapped
    next => exact absurd (Option.some.inj hmapped) (Nat.ne_of_gt hconn)
    next => exact ⟨hconn, Or.inl hmapped⟩
  · exact ⟨hconn, Or.inr (Or.inl hreference)⟩
  · exact ⟨hconn, Or.inr (Or.inr (Or.inl hcall))⟩
  · exact .of_held hconn (hids ▸ hloop) hheld

theorem held_subset {before after : IoLoop} (hguard : after.guard = before.guard)
    (hqueued : after.queued ⊆ before.queued) : after.held ⊆ before.held := by
  intro conn hmem
  rw [mem_held] at hmem ⊢
  rw [hguard] at hmem
  exact hmem.imp_right (·.mono hqueued)

/-! ## The registry -/

structure Registry (s : System) : Prop where
  sound : ∀ conn, s.Alive conn → (s.frame conn).Sound conn
  fds : ∀ first second, s.Alive first → s.Alive second →
    (s.conns first).channel.fd = (s.conns second).channel.fd → first = second
  owned : ∀ loop fd conn, (s.loops loop).poller.Refers fd conn →
    conn < s.accepted ∧ s.own conn = loop ∧ (s.conns conn).channel.fd = fd ∧
      (s.conns conn).channel.index ≠ .kNew

theorem initial_registry (listenAddr : InetAddress) (nameArg : String)
    (timeout numThreads : Nat) : (initial listenAddr nameArg timeout numThreads).Registry where
  sound := fun _ halive => absurd halive.1 (Nat.not_lt_zero _)
  fds := fun _ _ halive => absurd halive.1 (Nat.not_lt_zero _)
  owned := by
    intro loop fd conn hrefers
    simp [initial, IoLoop.create, EpollPoller.create, EpollPoller.Refers] at hrefers

theorem Registry.of_same (hs : s.Registry) (hconns : next.conns = s.conns)
    (haccepted : next.accepted = s.accepted)
    (hpollers : ∀ loop, (next.loops loop).poller = (s.loops loop).poller)
    (halive : ∀ conn, next.Alive conn → s.Alive conn) : next.Registry := by
  refine ⟨fun conn hconn => ?_, fun first second hfirst hsecond => ?_, fun loop fd conn => ?_⟩
  · have hframe : next.frame conn = s.frame conn := by
      simp only [frame, own, hconns, hpollers]
    rw [hframe]
    exact hs.sound conn (halive conn hconn)
  · rw [hconns]
    exact hs.fds first second (halive first hfirst) (halive second hsecond)
  · rw [hpollers, haccepted, own, hconns]
    exact hs.owned loop fd conn

theorem Sound.of_conn {f next : Frame} (hf : f.Sound conn) (hconn : next.conn = f.conn)
    (hpoller : next.poller = f.poller) : next.Sound conn := by
  refine ⟨?_, ?_, ?_, ?_⟩ <;> simp only [hconn, hpoller]
  · exact hf.input
  · exact hf.output
  · exact hf.tracks
  · exact hf.mask

/-- A member function keeps no other connection alive. -/
theorem alive_absorb (halive : s.Alive conn) {f : Frame} (hkeeps : (s.frame conn).Extends f)
    (hfollows : ∀ functor ∈ f.queued, functor.Follows conn) {other : ConnId}
    (hother : (s.absorb conn f).Alive other) : s.Alive other := by
  have hgrows : Grows s (s.absorb conn f) (only (s.own conn) f.queued) :=
    grows_absorb hkeeps.loop hkeeps.name
  refine hgrows.alive ?_ ?_ (fun _ => Or.inl) (List.Subset.refl _) hother
  · rintro loop captured ⟨functor, hmem, hcaptured⟩
    have htarget := (hfollows functor (mem_only.mp hmem).2).admissible.1.1
    have hsame : captured = conn := by
      cases functor <;> simp_all [Functor.captured, Functor.target]
    exact hsame ▸ halive
  · intro loop locked hlocked
    have hsame : ((s.absorb conn f).loops loop).guard = (s.loops loop).guard :=
      updateLoop_same (s := s.updateConn conn fun _ => f.conn) IoLoop.guard rfl loop
    exact Or.inl (hsame.symm.trans hlocked)

theorem fd_absorb {f : Frame} (hkeeps : (s.frame conn).Extends f) (other : ConnId) :
    ((s.absorb conn f).conns other).channel.fd = (s.conns other).channel.fd := by
  by_cases hother : other = conn
  · subst other
    rw [absorb_self]
    exact hkeeps.fd
  · rw [absorb_of_ne hother]

/-- The records of the other connections of the same poller are under other descriptors. -/
theorem Registry.sound_absorb (hs : s.Registry) (halive : s.Alive conn) {f : Frame}
    (hkeeps : (s.frame conn).Extends f) {other : ConnId} (hother : s.Alive other)
    (hdifferent : other ≠ conn) : ((s.absorb conn f).frame other).Sound other := by
  have hbefore := hs.sound other hother
  have htracks := hbefore.tracks
  have hown := (grows_absorb hkeeps.loop hkeeps.name).own other
  refine ⟨?_, ?_, ?_, ?_⟩ <;> simp only [frame, absorb_of_ne hdifferent]
  · exact hbefore.input
  · exact hbefore.output
  · rw [hown]
    by_cases hloop : s.own other = s.own conn
    · -- living connections have different descriptors
      rw [hloop, absorb_poller]
      rw [frame, hloop] at htracks
      refine hkeeps.poller.tracks (fun heq => hdifferent ?_) htracks
      exact hs.fds other conn hother halive heq
    · rw [absorb_loops_of_ne hloop]
      exact htracks
  · exact hbefore.mask

/-- A member function updates the records of its own connection. -/
theorem Registry.absorb (hs : s.Registry) (halive : s.Alive conn) {f : Frame}
    (hsound : f.Sound conn) (hkeeps : (s.frame conn).Extends f)
    (hfollows : ∀ functor ∈ f.queued, functor.Follows conn) : (s.absorb conn f).Registry := by
  have hgrows : Grows s (s.absorb conn f) (only (s.own conn) f.queued) :=
    grows_absorb hkeeps.loop hkeeps.name
  have hsurvives {other : ConnId} (hother : (s.absorb conn f).Alive other) : s.Alive other :=
    alive_absorb halive hkeeps hfollows hother
  refine ⟨fun other hother => ?_, fun first second hfirst hsecond => ?_,
    fun loop fd other hrefers => ?_⟩
  · by_cases hsame : other = conn
    · subst other
      refine Sound.of_conn hsound (absorb_self ..) ?_
      rw [frame, hgrows.own, absorb_poller]
    · exact hs.sound_absorb halive hkeeps (hsurvives hother) hsame
  · rw [fd_absorb hkeeps, fd_absorb hkeeps]
    exact hs.fds first second (hsurvives hfirst) (hsurvives hsecond)
  · rw [hgrows.own, fd_absorb hkeeps]
    by_cases hloop : loop = s.own conn
    · subst hloop
      rw [absorb_poller] at hrefers
      by_cases hdescriptor : fd = (s.conns conn).channel.fd
      · have hnew : f.conn.channel.fd = fd := hkeeps.fd.trans hdescriptor.symm
        obtain ⟨rfl, hindex⟩ := hsound.tracks.refers (hnew ▸ hrefers)
        rw [absorb_self]
        exact ⟨halive.1, rfl, hdescriptor.symm, hindex⟩
      · rw [hkeeps.poller.refers hdescriptor] at hrefers
        obtain ⟨hlt, hown, hsame, hindex⟩ := hs.owned _ fd other hrefers
        have hother : other ≠ conn := fun heq => hdescriptor (by rw [← hsame, heq])
        rw [absorb_of_ne hother]
        exact ⟨hlt, hown, hsame, hindex⟩
    · rw [absorb_loops_of_ne hloop] at hrefers
      obtain ⟨hlt, hown, hsame, hindex⟩ := hs.owned loop fd other hrefers
      have hother : other ≠ conn := fun heq => hloop (by rw [← hown, heq])
      rw [absorb_of_ne hother]
      exact ⟨hlt, hown, hsame, hindex⟩

/-- Settings do not concern the registration. -/
theorem Registry.updateConn (hs : s.Registry) {change : TcpConnection → TcpConnection}
    (hloop : (change (s.conns conn)).loop = (s.conns conn).loop)
    (hname : (change (s.conns conn)).name = (s.conns conn).name)
    (hfd : (change (s.conns conn)).channel.fd = (s.conns conn).channel.fd)
    (hindex : (change (s.conns conn)).channel.index = (s.conns conn).channel.index)
    (hsound : (s.frame conn).Sound conn →
      Frame.Sound conn { s.frame conn with conn := change (s.conns conn) }) :
    (s.updateConn conn change).Registry := by
  have hgrows : Grows s (s.updateConn conn change) fun _ => [] := grows_updateConn hloop hname
  have hsurvives (other : ConnId) (hother : (s.updateConn conn change).Alive other) :
      s.Alive other :=
    hgrows.alive (fun _ _ => not_captured_nil.elim) (fun _ _ => Or.inl) (fun _ => Or.inl)
      (List.Subset.refl _) hother
  have hchannel (other : ConnId) : ((s.updateConn conn change).conns other).channel.fd =
        (s.conns other).channel.fd ∧ ((s.updateConn conn change).conns other).channel.index =
        (s.conns other).channel.index := by
    by_cases hother : other = conn
    · subst other
      rw [updateConn_self]
      exact ⟨hfd, hindex⟩
    · rw [updateConn_of_ne hother]
      exact ⟨rfl, rfl⟩
  refine ⟨fun other hother => ?_, fun first second hfirst hsecond => ?_,
    fun loop fd other hrefers => ?_⟩
  · have hbefore := hs.sound other (hsurvives other hother)
    by_cases hsame : other = conn
    · subst other
      refine Sound.of_conn (hsound hbefore) (updateConn_self ..) ?_
      rw [frame, hgrows.own]
      rfl
    · refine Sound.of_conn hbefore (updateConn_of_ne hsame ..) ?_
      rw [frame, hgrows.own]
      rfl
  · rw [(hchannel first).1, (hchannel second).1]
    exact hs.fds first second (hsurvives first hfirst) (hsurvives second hsecond)
  · rw [hgrows.own, (hchannel other).1, (hchannel other).2]
    exact hs.owned loop fd other hrefers

end System

end Muduo
