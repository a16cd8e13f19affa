import Muduo.AsyncLogging.Complete

/-! # The buffers of the backend thread

`buffer1` is given away in every round, and `buffer2` when the producers have used up
`nextBuffer_`. They use it up only by filling a buffer, so a round that gives both away has
taken over at least two, and the refill finds one for each. Nothing depends on the lengths
of the lines.
-/

open Transition

namespace Muduo

namespace AsyncLogging

variable {s next : AsyncLogging} {action : Action}

/-! ## Owners -/

/-- The buffers that pointers own, by the order of their allocation. -/
def ids (pointers : List BufferPtr) : List Nat :=
  pointers.flatMap fun p => (p.map FixedBuffer.id).toList

theorem ids_append (first second : List BufferPtr) :
    ids (first ++ second) = ids first ++ ids second := List.flatMap_append

theorem ids_cons (p : BufferPtr) (rest : List BufferPtr) :
    ids (p :: rest) = (p.map FixedBuffer.id).toList ++ ids rest := rfl

@[simp] theorem ids_nil : ids [] = [] := rfl

theorem append_id (b : FixedBuffer) (logline : List UInt8) :
    (b.append logline).id = b.id := by
  unfold FixedBuffer.append
  split <;> rfl

/-- Every pointer of the logger and of its backend thread. -/
def pointers (s : AsyncLogging) : List BufferPtr :=
  [s.currentBuffer, s.nextBuffer, s.backend.buffer1, s.backend.buffer2] ++ s.buffers ++
    s.backend.buffersToWrite

/-- Every allocated buffer has at most one owner, and no other one has any. -/
def Distinct (s : AsyncLogging) : Prop :=
  ∀ id, (ids s.pointers).count id ≤ if id < s.allocated then 1 else 0

/-- Buffers change hands, and new ones are given the next numbers. -/
theorem Distinct.of_count (hdistinct : s.Distinct)
    (hcount : ∀ id, (ids next.pointers).count id ≤ (ids s.pointers).count id +
      if s.allocated ≤ id ∧ id < next.allocated then 1 else 0)
    (hallocated : s.allocated ≤ next.allocated) : next.Distinct := by
  intro id
  have hold := hdistinct id
  have hnew := hcount id
  split_ifs at hold hnew ⊢ <;> omega

theorem count_pointers (s : AsyncLogging) (id : Nat) : (ids s.pointers).count id =
    (ids [s.currentBuffer]).count id + (ids [s.nextBuffer]).count id +
      (ids [s.backend.buffer1]).count id + (ids [s.backend.buffer2]).count id +
      (ids s.buffers).count id + (ids s.backend.buffersToWrite).count id := by
  simp only [pointers, ids_append, ids_cons, List.count_append, ids_nil, List.count_nil]
  omega

theorem count_concat (buffers : List BufferPtr) (p : BufferPtr) (id : Nat) :
    (ids (buffers ++ [p])).count id = (ids buffers).count id + (ids [p]).count id := by
  rw [ids_append, List.count_append]

/-- A buffer that was just allocated. -/
theorem count_create (allocated : Nat) (logline : List UInt8) (id : Nat) :
    (ids [some ((FixedBuffer.create allocated).append logline)]).count id =
      if allocated = id then 1 else 0 := by
  simp [ids, append_id, FixedBuffer.create, List.count_singleton]

theorem Distinct.append (hdistinct : s.Distinct) {logline : List UInt8}
    (happend : s.append logline = .ok next) : next.Distinct := by
  have hsame (buffer : FixedBuffer) : ids [some (buffer.append logline)] = ids [some buffer] := by
    simp [ids, append_id]
  have hnull : ids [none] = [] := rfl
  obtain ⟨current, hcurrent, ⟨-, rfl⟩ | ⟨nextBuffer, hnext, rfl⟩ | ⟨hnext, rfl⟩⟩ :=
    append_cases happend
  · refine hdistinct.of_count (fun id => ?_) (le_refl _)
    rw [count_pointers, count_pointers, hcurrent, hsame]
    exact Nat.le_add_right _ _
  · refine hdistinct.of_count (fun id => ?_) (le_refl _)
    rw [count_pointers, count_pointers, hcurrent, hnext, hsame, hnull, count_concat, List.count_nil]
    dsimp only
    omega
  · refine hdistinct.of_count (fun id => ?_) (Nat.le_add_right _ _)
    rw [count_pointers, count_pointers, hcurrent, hnext, hnull, count_concat, count_create,
      List.count_nil]
    dsimp only
    split_ifs <;> omega

theorem Distinct.exchange (hdistinct : s.Distinct) : s.exchange.Distinct := by
  have hnull : ids [none] = [] := rfl
  rcases exchange_cases s with ⟨hnext, hexchange⟩ | ⟨-, hexchange⟩ <;> rw [hexchange]
  · refine hdistinct.of_count (fun id => ?_) (le_refl _)
    rw [count_pointers, count_pointers, hnext, hnull, count_concat, List.count_nil]
    dsimp only
    omega
  · refine hdistinct.of_count (fun id => ?_) (le_refl _)
    rw [count_pointers, count_pointers, hnull, count_concat, List.count_nil]
    dsimp only
    omega

theorem count_takeBack {spare p : BufferPtr} {buffersToWrite rest : List BufferPtr}
    (htake : takeBack spare buffersToWrite = .ok (p, rest)) (id : Nat) :
    (ids [p]).count id + (ids rest).count id =
      (ids [spare]).count id + (ids buffersToWrite).count id := by
  rcases takeBack_cases htake with ⟨buffer, rfl, rfl, rfl⟩ | ⟨buffer, rfl, rfl, rfl⟩
  · rfl
  · have hreset : ids [some buffer.reset] = ids [some buffer] := rfl
    have hnull : ids [none] = [] := rfl
    rw [count_concat, hreset, hnull, List.count_nil]
    omega

theorem count_kept (buffersToWrite : List BufferPtr) (id : Nat) :
    (ids (kept buffersToWrite)).count id ≤ (ids buffersToWrite).count id := by
  unfold kept
  split
  · conv_rhs => rw [← List.take_append_drop 2 buffersToWrite]
    rw [ids_append, List.count_append]
    exact Nat.le_add_right _ _
  · exact le_refl _

theorem Distinct.refill (hdistinct : s.Distinct) (hrefill : s.refill = .ok next) :
    next.Distinct := by
  obtain ⟨buffer1, buffer2, rest, last, hfirst, hsecond, rfl⟩ := refill_cases hrefill
  refine hdistinct.of_count (fun id => ?_) (le_refl _)
  have hkept := count_kept s.backend.buffersToWrite id
  have hfirst := count_takeBack hfirst id
  have hsecond := count_takeBack hsecond id
  rw [count_pointers, count_pointers, ids_nil, List.count_nil]
  dsimp only
  omega

theorem Distinct.fopen (hdistinct : s.Distinct) {success : Bool}
    (hopen : s.fopen success = .ok next) : next.Distinct := by
  obtain ⟨-, hopen⟩ := Except.guard_eq_ok.mp hopen
  obtain rfl := Except.ok.inj hopen
  refine hdistinct.of_count (fun id => ?_) (Nat.le_add_right _ _)
  have hcreate (allocated : Nat) : (ids [some (FixedBuffer.create allocated)]).count id =
      if allocated = id then 1 else 0 := by
    simp [ids, FixedBuffer.create, List.count_singleton]
  rw [count_pointers, count_pointers, hcreate, hcreate]
  dsimp only
  split_ifs <;> omega

/-! ## Rounds -/

/-- The critical section of the final flush does not run. -/
def BeforeFlush (s : AsyncLogging) : Action → Prop
  | .backend _ => s.backend.point ≠ .finalFlush
  | _ => True

instance (s : AsyncLogging) : (action : Action) → Decidable (s.BeforeFlush action)
  | .backend _ => inferInstanceAs (Decidable (_ ≠ _))
  | .append _ | .start | .stop | .join => .isTrue trivial

/-- The invariant of the rounds. The spare buffers that a round has given away are matched
by the buffers it has taken over. -/
structure Recycles (s : AsyncLogging) : Prop where
  backend : s.backend.Law
  looping : s.backend.point.flushed = false
  current : s.currentBuffer.isSome
  buffers : ∀ p ∈ s.buffers, p.isSome
  spare : s.nextBuffer = none → s.buffers ≠ []
  joinable : s.joinable = false → s.backend.point = .notStarted
  distinct : s.Distinct

theorem create_recycles : create.Recycles where
  backend := ⟨rfl, rfl⟩
  looping := rfl
  current := rfl
  buffers := nofun
  spare := nofun
  joinable := fun _ => rfl
  distinct := by
    intro id
    have hids : ids create.pointers = [0, 1] := rfl
    have hallocated : create.allocated = 2 := rfl
    rw [hids, hallocated]
    simp only [List.count_cons, List.count_nil, beq_iff_eq]
    split_ifs <;> omega

/-- Only filling a buffer uses up `nextBuffer_`. -/
theorem Recycles.append (hs : s.Recycles) {logline : List UInt8}
    (happend : s.append logline = .ok next) : next.Recycles := by
  have hdistinct := hs.distinct.append happend
  have hmoved := owned_concat hs.buffers hs.current
  obtain ⟨current, -, ⟨-, rfl⟩ | ⟨nextBuffer, -, rfl⟩ | ⟨-, rfl⟩⟩ := append_cases happend
  · exact ⟨hs.backend, hs.looping, rfl, hs.buffers, hs.spare, hs.joinable, hdistinct⟩
  · exact ⟨hs.backend, hs.looping, rfl, hmoved, fun _ => by simp, hs.joinable, hdistinct⟩
  · exact ⟨hs.backend, hs.looping, rfl, hmoved, fun _ => by simp, hs.joinable, hdistinct⟩

theorem Recycles.joinable_of_started (hs : s.Recycles) (hstarted : s.backend.point ≠ .notStarted) :
    s.joinable = true := by
  by_contra hjoined
  exact hstarted (hs.joinable (Bool.eq_false_of_not_eq_true hjoined))

theorem Recycles.exchange (hs : s.Recycles) (hpoint : s.backend.point = .critical) :
    s.exchange.Recycles := by
  have hready := hs.backend
  rw [Backend.Law, hpoint] at hready
  have hdistinct := hs.distinct.exchange
  have htaken := exchange_taken hready hs.current hs.buffers hs.spare
  have hjoinable := hs.joinable_of_started (by simp [hpoint])
  obtain ⟨buffer1, hbuffer1, -⟩ := hready.buffer1
  obtain ⟨buffer2, hbuffer2, -⟩ := hready.buffer2
  rcases exchange_cases s with ⟨-, hexchange⟩ | ⟨hnext, hexchange⟩ <;>
    rw [hexchange, hready.buffersToWrite] at htaken hdistinct <;>
    rw [hexchange, hready.buffersToWrite]
  · exact ⟨htaken, rfl, by simp [hbuffer1], by simp, by simp [hbuffer2], by simp [hjoinable],
      hdistinct⟩
  · exact ⟨htaken, rfl, by simp [hbuffer1], by simp, fun hnull => absurd hnull hnext,
      by simp [hjoinable], hdistinct⟩

/-- A step that leaves the shared buffers where they are. -/
theorem Recycles.of_backend (hs : s.Recycles) (hnext : next.Distinct)
    (hbackend : next.backend.Law) (hlooping : next.backend.point.flushed = false)
    (hshared : next.currentBuffer = s.currentBuffer ∧ next.nextBuffer = s.nextBuffer ∧
      next.buffers = s.buffers)
    (hjoinable : next.joinable = false → next.backend.point = .notStarted) : next.Recycles := by
  obtain ⟨hcurrent, hspare, hbuffers⟩ := hshared
  refine ⟨hbackend, hlooping, ?_, ?_, ?_, hjoinable, hnext⟩
  · rw [hcurrent]
    exact hs.current
  · rw [hbuffers]
    exact hs.buffers
  · rw [hspare, hbuffers]
    exact hs.spare

theorem Recycles.backendStep (hs : s.Recycles) {success : Bool}
    (hbefore : s.BeforeFlush (.backend success)) (hbackend : s.backendStep success = .ok next) :
    next.Recycles := by
  have hlaw := hs.backend
  have hlooping := hs.looping
  have hjoinable (hstarted : s.backend.point ≠ .notStarted) : s.joinable = true :=
    hs.joinable_of_started hstarted
  cases backendStep_cases.mp hbackend with
  | fopen hpoint hopen =>
      have hdistinct := hs.distinct.fopen hopen
      obtain rfl := fopen_cases hopen
      rw [Backend.Law, hpoint] at hlaw
      exact hs.of_backend hdistinct ⟨FixedBuffer.create_isEmpty _, FixedBuffer.create_isEmpty _,
        hlaw.1, hlaw.2⟩ rfl ⟨rfl, rfl, rfl⟩ (by simp [hjoinable, hpoint])
  | test hpoint =>
      rw [Backend.Law, hpoint] at hlaw
      have hready : Backend.Ready { s.backend with
          point := if s.running then .critical else .finalFlush } :=
        ⟨hlaw.buffer1, hlaw.buffer2, hlaw.buffersToWrite, hlaw.written⟩
      refine hs.of_backend hs.distinct ?_ ?_ ⟨rfl, rfl, rfl⟩ (by simp [goTo, hjoinable, hpoint])
      · cases hrunning : s.running <;> rw [hrunning] at hready <;> exact hready
      · cases hrunning : s.running <;> simp [goTo, BackendPoint.flushed]
  | exchange hpoint => exact hs.exchange hpoint
  | fwrite hpoint hmore hwrite =>
      obtain ⟨buffer, -, rfl⟩ := fwrite_cases hwrite
      rcases hpoint with hpoint | hpoint
      · refine hs.of_backend hs.distinct ?_ hlooping ⟨rfl, rfl, rfl⟩ (by simp [hjoinable, hpoint])
        rw [Backend.Law, hpoint] at hlaw
        rw [Backend.Law]
        simp only [hpoint]
        exact ⟨hlaw.buffer1, hlaw.buffer2, hlaw.owned, hmore⟩
      · rw [hpoint] at hlooping
        cases hlooping
  | written hpoint hall =>
      rw [Backend.Law, hpoint] at hlaw
      exact hs.of_backend hs.distinct ⟨⟨hlaw.buffer1, hlaw.buffer2, hlaw.owned, hlaw.written⟩,
        Nat.le_antisymm hlaw.written (Nat.le_of_not_lt hall)⟩ rfl ⟨rfl, rfl, rfl⟩
        (by simp [goTo, hjoinable, hpoint])
  | refill hpoint hrefill =>
      rw [Backend.Law, hpoint] at hlaw
      have hdistinct := hs.distinct.refill hrefill
      obtain ⟨buffer1, buffer2, hother, hempty, hready⟩ := refill_taken hlaw.1
      obtain rfl := Except.ok.inj (hother.symm.trans hrefill)
      exact hs.of_backend hdistinct ⟨hempty, hready, rfl, rfl⟩ rfl ⟨rfl, rfl, rfl⟩
        (by simp [hjoinable, hpoint])
  | finalFlush hpoint => exact absurd hpoint hbefore
  | flushed hpoint =>
      rw [hpoint] at hlooping
      cases hlooping

/-- Every step before the final flush keeps the invariant. -/
theorem Recycles.step (hs : s.Recycles) (hbefore : s.BeforeFlush action)
    (hstep : s.step action = .ok next) : next.Recycles := by
  cases action with
  | append logline => exact hs.append hstep
  | start =>
      simp only [AsyncLogging.step, start] at hstep
      split at hstep
      next => cases hstep
      next =>
        obtain rfl := Except.ok.inj hstep
        refine hs.of_backend ?_ ⟨rfl, rfl⟩ rfl ⟨rfl, rfl, rfl⟩ (by rintro ⟨⟩)
        refine hs.distinct.of_count (fun id => ?_) (le_refl _)
        rw [count_pointers, count_pointers]
        simp only [ids, List.flatMap_cons, List.flatMap_nil, Option.map_none, Option.toList_none,
          List.append_nil, List.count_nil]
        omega
  | stop =>
      obtain rfl := Except.ok.inj hstep
      exact hs.of_backend hs.distinct hs.backend hs.looping ⟨rfl, rfl, rfl⟩ hs.joinable
  | join =>
      -- the thread is not done before the final flush
      obtain ⟨hdone, -⟩ := Except.guard_eq_ok.mp hstep
      have hlooping := hs.looping
      simp only [Bool.and_eq_true, decide_eq_true_eq] at hdone
      rw [hdone.2] at hlooping
      cases hlooping
  | backend success => exact hs.backendStep hbefore hstep

/-! ## Filled buffers -/

/-- The buffer is on its way to the file. -/
def Waits (p : BufferPtr) (s : AsyncLogging) : Prop :=
  p ∈ s.buffers ∨ p ∈ s.backend.unwritten

/-- The step writes the first of the buffers that are not written yet. -/
def Writes (p : BufferPtr) (s : AsyncLogging) (action : Action) (next : AsyncLogging) : Prop :=
  (∃ success, action = .backend success) ∧
    (∃ rest, s.backend.unwritten = p :: rest ∧ next.backend.unwritten = rest) ∧
    next.file = s.file ++ p.bytes

/-- A write takes the first buffer off those that wait. -/
theorem Waits.fwrite {p : BufferPtr} (hwaits : Waits p s) (hwrite : s.fwrite = .ok next)
    (success : Bool) : Waits p next ∨ Writes p s (.backend success) next := by
  obtain ⟨buffer, hget, rfl⟩ := fwrite_cases hwrite
  have hsplit : s.backend.unwritten =
      some buffer :: s.backend.buffersToWrite.drop (s.backend.written + 1) := by
    obtain ⟨hmore, hbuffer⟩ := List.getElem?_eq_some_iff.mp hget
    rw [Backend.unwritten, List.drop_eq_getElem_cons hmore, hbuffer]
  rcases hwaits with hshared | hmem
  · exact Or.inl (Or.inl hshared)
  · rw [hsplit] at hmem
    rcases List.mem_cons.mp hmem with rfl | hrest
    · exact Or.inr ⟨⟨success, rfl⟩, ⟨_, hsplit, rfl⟩, rfl⟩
    · exact Or.inl (Or.inr hrest)

theorem Recycles.waits_backend (hs : s.Recycles) {success : Bool}
    (hbefore : s.BeforeFlush (.backend success)) (hbackend : s.backendStep success = .ok next)
    {p : BufferPtr} (hwaits : Waits p s) : Waits p next ∨ Writes p s (.backend success) next := by
  have hlaw := hs.backend
  cases backendStep_cases.mp hbackend with
  | fopen _ hopen =>
      obtain rfl := fopen_cases hopen
      exact Or.inl hwaits
  | test | written | flushed => exact Or.inl hwaits
  | exchange hpoint =>
      rw [Backend.Law, hpoint] at hlaw
      have hshared : p ∈ s.buffers := hwaits.resolve_right (by simp [hlaw.unwritten])
      -- all of `buffers_` is taken over
      left
      right
      rcases exchange_cases s with ⟨-, hexchange⟩ | ⟨-, hexchange⟩ <;> rw [hexchange] <;>
        exact List.mem_append_left _ hshared
  | fwrite _ _ hwrite => exact hwaits.fwrite hwrite success
  | refill hpoint hrefill =>
      rw [Backend.Law, hpoint] at hlaw
      obtain ⟨buffer1, buffer2, rest, last, -, -, rfl⟩ := refill_cases hrefill
      refine Or.inl (Or.inl (hwaits.resolve_right fun hmem => ?_))
      rw [Backend.unwritten, hlaw.2, List.drop_length] at hmem
      cases hmem
  | finalFlush hpoint => exact absurd hpoint hbefore

/-- A filled buffer waits, with its content, until it is written. -/
theorem Recycles.waits (hs : s.Recycles) (hbefore : s.BeforeFlush action)
    (hstep : s.step action = .ok next) {p : BufferPtr} (hwaits : Waits p s) :
    Waits p next ∨ Writes p s action next := by
  cases action with
  | append logline =>
      left
      obtain ⟨current, -, ⟨-, rfl⟩ | ⟨nextBuffer, -, rfl⟩ | ⟨-, rfl⟩⟩ := append_cases hstep
      · exact hwaits
      · exact hwaits.imp_left (List.mem_append_left _)
      · exact hwaits.imp_left (List.mem_append_left _)
  | start =>
      left
      simp only [AsyncLogging.step, start] at hstep
      split at hstep
      next => cases hstep
      next hjoined =>
        have hlaw := hs.backend
        rw [Backend.Law, hs.joinable (Bool.eq_false_of_not_eq_true hjoined)] at hlaw
        obtain rfl := Except.ok.inj hstep
        refine Or.inl (hwaits.resolve_right fun hmem => ?_)
        rw [Backend.unwritten, hlaw.1, List.drop_nil] at hmem
        cases hmem
  | stop =>
      obtain rfl := Except.ok.inj hstep
      exact Or.inl hwaits
  | join =>
      obtain ⟨-, hjoin⟩ := Except.guard_eq_ok.mp hstep
      obtain rfl := Except.ok.inj hjoin
      exact Or.inl hwaits
  | backend success => exact hs.waits_backend hbefore hstep hwaits

/-- **Recycling.** Before the final flush, whatever the producers append: the spare buffers
are there and empty at the top of every round; `buffers_` is not empty when `nextBuffer_` is
missing; the refill finds the buffers it takes back, and leaves both spare buffers empty; no
buffer has two owners; and a buffer of `buffers_` waits with its content until the write loop
writes it. -/
theorem recycling {schedule : List Action} (hbefore : EveryStep step BeforeFlush create schedule)
    (hrun : run step create schedule = .ok s) :
    (s.backend.point = .test ∨ s.backend.point = .critical →
      s.backend.buffer1.IsEmpty ∧ s.backend.buffer2.IsEmpty) ∧
    (s.nextBuffer = none → s.buffers ≠ []) ∧
    (s.backend.point = .refill → ∃ next, s.refill = .ok next ∧
      next.backend.buffer1.IsEmpty ∧ next.backend.buffer2.IsEmpty) ∧
    (ids s.pointers).Nodup ∧
    ∀ p ∈ s.buffers, ∀ (later : List Action) (final : AsyncLogging),
      EveryStep step BeforeFlush s later → run step s later = .ok final →
      Waits p final ∨ ∃ before action after middle next, later = before ++ action :: after ∧
        run step s before = .ok middle ∧ middle.step action = .ok next ∧
        Writes p middle action next := by
  have hpreserved (state : AsyncLogging) (action : Action) (next : AsyncLogging)
      (hstate : state.Recycles) (hcondition : state.BeforeFlush action)
      (hstep : state.step action = .ok next) : next.Recycles := hstate.step hcondition hstep
  have hs : s.Recycles := run_invariant_of_everyStep hpreserved create_recycles hbefore hrun
  have hlaw := hs.backend
  refine ⟨fun hpoint => ?_, hs.spare, fun hpoint => ?_, ?_,
    fun p hmem later final hlater hfinal => ?_⟩
  · rcases hpoint with hpoint | hpoint <;> rw [Backend.Law, hpoint] at hlaw <;>
      exact ⟨hlaw.buffer1, hlaw.buffer2⟩
  · rw [Backend.Law, hpoint] at hlaw
    obtain ⟨buffer1, buffer2, hrefill, hempty, hready⟩ := refill_taken hlaw.1
    exact ⟨_, hrefill, hempty, hready⟩
  · rw [List.nodup_iff_count_le_one]
    intro id
    refine (hs.distinct id).trans ?_
    split <;> omega
  · exact run_until hpreserved
      (fun _ _ _ hstate hcondition hstep hwaits => hstate.waits hcondition hstep hwaits) hs hlater
      (Or.inl hmem) hfinal

/-- One round, up to the refill. -/
def oneRound : List Action :=
  [.start, .append [104, 105], .backend true, .backend true, .backend true, .backend true,
    .backend true]

theorem recycling_oneRound : ∃ s next, run step create oneRound = .ok s ∧ s.refill = .ok next ∧
    next.backend.buffer1.IsEmpty ∧ next.backend.buffer2.IsEmpty ∧ (ids s.pointers).Nodup := by
  have hbefore : EveryStep step BeforeFlush create oneRound := by
    decide +kernel
  have hends : ends (fun s => decide (s.backend.point = .refill)) (run step create oneRound) =
      true := by
    decide +kernel
  obtain ⟨s, hrun, hcheck⟩ := exists_of_ends hends
  obtain ⟨-, -, hrefill, hdistinct, -⟩ := recycling hbefore hrun
  obtain ⟨next, hnext, hempty, hready⟩ := hrefill (of_decide_eq_true hcheck)
  exact ⟨s, next, hrun, hnext, hempty, hready, hdistinct⟩

end AsyncLogging

end Muduo
