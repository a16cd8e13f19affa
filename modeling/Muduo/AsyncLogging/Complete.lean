import Muduo.AsyncLogging.Effect

/-! # The log is complete

Between the file and the producers a line is in exactly one place: a buffer of
`buffersToWrite` that is not written yet, a buffer of `buffers_`, or
`currentBuffer_`. The spare buffers are empty, so moving them around moves no
line, and a buffer is emptied only after the write loop has passed over it.
-/

open Transition

namespace Muduo

namespace BufferPtr

/-- An allocated buffer without content. -/
def IsEmpty (p : BufferPtr) : Prop := ∃ b, p = some b ∧ b.data = []

theorem IsEmpty.bytes {p : BufferPtr} (hempty : p.IsEmpty) : p.bytes = [] := by
  obtain ⟨b, rfl, hdata⟩ := hempty
  exact hdata

end BufferPtr

theorem FixedBuffer.create_isEmpty (id : Nat) : BufferPtr.IsEmpty (some (.create id)) :=
  ⟨_, rfl, rfl⟩

/-- A line that fits is appended. -/
theorem FixedBuffer.append_data {b : FixedBuffer} {buf : List UInt8}
    (hroom : b.avail > buf.length) : (b.append buf).data = b.data ++ buf := by
  rw [append, dif_pos hroom]

/-- An empty buffer has room for a line shorter than the buffer. -/
theorem FixedBuffer.append_empty {b : FixedBuffer} {buf : List UInt8} (hdata : b.data = [])
    (hshort : buf.length < kBufferSize) : (b.append buf).data = buf := by
  rw [append_data, hdata, List.nil_append]
  rw [avail, length, hdata, List.length_nil, Nat.sub_zero]
  exact hshort

namespace Backend

/-- The locals between two rounds: both spare buffers are ready. -/
structure Ready (b : Backend) : Prop where
  buffer1 : b.buffer1.IsEmpty
  buffer2 : b.buffer2.IsEmpty
  buffersToWrite : b.buffersToWrite = []
  written : b.written = 0

/-- The locals in a round: `buffer1` has been given away, and there is a written
buffer to replace every spare buffer that is missing. -/
structure Taken (b : Backend) : Prop where
  buffer1 : b.buffer1 = none
  buffer2 : b.buffer2 = none ∧ 2 ≤ b.buffersToWrite.length ∨
    b.buffer2.IsEmpty ∧ 1 ≤ b.buffersToWrite.length
  owned : ∀ p ∈ b.buffersToWrite, p.isSome
  written : b.written ≤ b.buffersToWrite.length

/-- The locals at every program point. -/
def Law (b : Backend) : Prop :=
  match b.point with
  | .notStarted | .opening => b.buffersToWrite = [] ∧ b.written = 0
  | .test | .critical | .finalFlush => b.Ready
  | .writing => b.Taken
  | .refill => b.Taken ∧ b.written = b.buffersToWrite.length
  | .finalWriting => (∀ p ∈ b.buffersToWrite, p.isSome) ∧ b.written ≤ b.buffersToWrite.length
  | .done => b.written = b.buffersToWrite.length

/-- The buffers the write loop has not written yet. -/
def unwritten (b : Backend) : List BufferPtr := b.buffersToWrite.drop b.written

/-- Between two rounds there is nothing to write. -/
theorem Ready.unwritten {b : Backend} (hready : b.Ready) : b.unwritten = [] := by
  rw [Backend.unwritten, hready.buffersToWrite, List.drop_nil]

end Backend

/-- The loop has been left for good. -/
def BackendPoint.flushing : BackendPoint → Bool
  | .finalFlush | .finalWriting | .done => true
  | _ => false

/-- The final flush has taken everything over. -/
def BackendPoint.flushed : BackendPoint → Bool
  | .finalWriting | .done => true
  | _ => false

namespace AsyncLogging

variable {s next : AsyncLogging}

/-- The bytes a list of pointers owns. -/
def bytes (buffers : List BufferPtr) : List UInt8 := buffers.flatMap BufferPtr.bytes

/-- The file, and all lines on their way to it. -/
def stream (s : AsyncLogging) : List UInt8 :=
  s.file ++ bytes s.backend.unwritten ++ bytes s.buffers ++ s.currentBuffer.bytes

/-- `start()` is called once, before `stop()`; lines are shorter than a buffer and
appended before `stop()` is called. -/
def Proper (s : AsyncLogging) : Action → Prop
  | .append logline => logline.length < FixedBuffer.kBufferSize ∧ s.stopping = false
  | .start => s.backend.point = .notStarted
  | .stop => s.backend.point ≠ .notStarted
  | .join | .backend _ => True

instance (s : AsyncLogging) (action : Action) : Decidable (s.Proper action) :=
  match action with
  | .append _ => inferInstanceAs (Decidable (_ ∧ _))
  | .start => inferInstanceAs (Decidable (_ = _))
  | .stop => inferInstanceAs (Decidable (_ ≠ _))
  | .join | .backend _ => .isTrue trivial

/-- The invariant of the logger. -/
structure Logs (s : AsyncLogging) : Prop where
  stream : s.stream = s.appended.flatten
  owned : ∀ p ∈ s.buffers, p.isSome
  spare : s.nextBuffer = none ∨ s.nextBuffer.IsEmpty
  current : s.backend.point.flushed = false → s.currentBuffer.isSome ∧
    (s.nextBuffer = none → s.buffers ≠ [])
  flushed : s.backend.point.flushed = true → s.buffers = [] ∧ s.currentBuffer.bytes = []
  backend : s.backend.Law
  flushing : s.backend.point.flushing = true → s.stopping = true
  running : s.running = false → s.backend.point ≠ .notStarted → s.stopping = true
  joinable : s.joinable = false → s.backend.point = .notStarted ∨ s.backend.point = .done
  stopped : s.stopped = true → s.backend.point = .done

theorem create_logs : create.Logs where
  stream := rfl
  owned := nofun
  spare := Or.inr (FixedBuffer.create_isEmpty 1)
  current := fun _ => ⟨rfl, nofun⟩
  flushed := nofun
  backend := ⟨rfl, rfl⟩
  flushing := nofun
  running := fun _ hstarted => absurd rfl hstarted
  joinable := fun _ => Or.inl rfl
  stopped := nofun

@[simp] theorem bytes_nil : bytes [] = [] := rfl

@[simp] theorem bytes_append (first second : List BufferPtr) :
    bytes (first ++ second) = bytes first ++ bytes second := List.flatMap_append

@[simp] theorem bytes_singleton (p : BufferPtr) : bytes [p] = p.bytes := by
  simp [bytes]

/-! ## Producers -/

/-- Before `stop()` the final flush is ahead. -/
theorem Logs.not_flushed (hs : s.Logs) (hrunning : s.stopping = false) :
    s.backend.point.flushed = false := by
  by_contra hflushed
  have hflushing : s.backend.point.flushing = true := by
    cases hpoint : s.backend.point <;> rw [hpoint] at hflushed <;>
      first | rfl | exact absurd rfl hflushed
  rw [hs.flushing hflushing] at hrunning
  cases hrunning

/-- A line goes to the end of the stream, whichever buffer takes it. -/
theorem append_ok (hs : s.Logs) {logline : List UInt8}
    (hproper : s.Proper (.append logline)) :
    ∃ next, s.append logline = .ok next ∧ next.Logs := by
  obtain ⟨hshort, hrunning⟩ := hproper
  have hflushed := hs.not_flushed hrunning
  obtain ⟨hcurrent, hnonempty⟩ := hs.current hflushed
  obtain ⟨current, hsome⟩ := Option.isSome_iff_exists.mp hcurrent
  have hstream := hs.stream
  unfold stream at hstream
  rw [hsome] at hstream
  unfold append
  simp only [hsome, BufferPtr.deref, bind, Except.bind]
  split
  next hroom =>
    refine ⟨_, rfl, ?_, hs.owned, hs.spare, fun _ => ⟨rfl, hnonempty⟩, ?_, hs.backend, hs.flushing,
      hs.running, hs.joinable, hs.stopped⟩
    · simp only [stream, BufferPtr.bytes, FixedBuffer.append_data hroom, List.flatten_append,
        List.flatten_singleton, ← hstream, List.append_assoc]
    · intro hpoint
      rw [hflushed] at hpoint
      cases hpoint
  next hfull =>
    have hmoved := owned_concat (p := some current) hs.owned rfl
    have hflush : s.backend.point.flushed = true → False := by
      rw [hflushed]
      rintro ⟨⟩
    rcases hs.spare with hnone | ⟨nextBuffer, hnext, hdata⟩
    · rw [hnone]
      refine ⟨_, rfl, ?_, hmoved, Or.inl rfl, fun _ => ⟨rfl, fun _ => by simp⟩,
        fun hpoint => (hflush hpoint).elim, hs.backend, hs.flushing, hs.running, hs.joinable,
        hs.stopped⟩
      simp only [stream, BufferPtr.bytes, bytes_append, bytes_singleton,
        FixedBuffer.append_empty (b := .create s.allocated) rfl hshort, List.flatten_append,
        List.flatten_singleton, ← hstream, List.append_assoc]
    · rw [hnext]
      refine ⟨_, rfl, ?_, hmoved, Or.inl rfl, fun _ => ⟨rfl, fun _ => by simp⟩,
        fun hpoint => (hflush hpoint).elim, hs.backend, hs.flushing, hs.running, hs.joinable,
        hs.stopped⟩
      simp only [stream, BufferPtr.bytes, bytes_append, bytes_singleton,
        FixedBuffer.append_empty hdata hshort, List.flatten_append, List.flatten_singleton,
        ← hstream, List.append_assoc]

/-! ## The backend thread -/

/-- A step of the backend thread that leaves the shared buffers alone. -/
theorem Logs.of_backend (hs : s.Logs) {file : List UInt8} {backend : Backend}
    (hwrite : file ++ bytes backend.unwritten = s.file ++ bytes s.backend.unwritten)
    (hlaw : backend.Law) (hflushed : backend.point.flushed = s.backend.point.flushed)
    (hflushing : backend.point.flushing = true →
      s.backend.point.flushing = true ∨ s.running = false ∧ s.backend.point ≠ .notStarted)
    (hstarted : backend.point ≠ .notStarted → s.backend.point ≠ .notStarted)
    (hdone : s.backend.point = .notStarted ∨ s.backend.point = .done →
      s.backend.point = backend.point) : Logs { s with file, backend } where
  stream := by
    rw [AsyncLogging.stream, hwrite]
    exact hs.stream
  owned := hs.owned
  spare := hs.spare
  current := by
    rw [hflushed]
    exact hs.current
  flushed := by
    rw [hflushed]
    exact hs.flushed
  backend := hlaw
  flushing := by
    intro hpoint
    rcases hflushing hpoint with hold | ⟨hstop, hstarted⟩
    · exact hs.flushing hold
    · exact hs.running hstop hstarted
  running := fun hstop hpoint => hs.running hstop (hstarted hpoint)
  joinable := by
    intro hjoined
    have hpoint := hs.joinable hjoined
    have hsame := hdone hpoint
    rw [hsame] at hpoint
    exact hpoint
  stopped := by
    intro hstopped
    have hpoint := hs.stopped hstopped
    exact (hdone (Or.inr hpoint)).symm.trans hpoint

/-- Moving on leaves the locals as they are. -/
theorem Logs.goTo (hs : s.Logs) {point : BackendPoint}
    (hlaw : Backend.Law { s.backend with point })
    (hflushed : point.flushed = s.backend.point.flushed)
    (hflushing : point.flushing = true →
      s.backend.point.flushing = true ∨ s.running = false ∧ s.backend.point ≠ .notStarted)
    (hrunning : s.backend.point ≠ .notStarted ∧ s.backend.point ≠ .done) :
    (s.goTo point).Logs := by
  refine hs.of_backend rfl hlaw hflushed hflushing (fun _ => hrunning.1) ?_
  rintro (hpoint | hpoint)
  · exact absurd hpoint hrunning.1
  · exact absurd hpoint hrunning.2

theorem fopen_logs (hs : s.Logs) (hpoint : s.backend.point = .opening) {success : Bool}
    (hopen : s.fopen success = .ok next) : next.Logs := by
  obtain rfl := fopen_cases hopen
  have hlaw := hs.backend
  rw [Backend.Law, hpoint] at hlaw
  have hnext : Logs { s with
      backend := { s.backend with
        point := .test
        buffer1 := some (.create s.allocated)
        buffer2 := some (.create (s.allocated + 1)) } } := by
    refine hs.of_backend rfl ?_ (by rw [hpoint]; rfl) nofun (fun _ => by simp [hpoint]) ?_
    · exact ⟨FixedBuffer.create_isEmpty _, FixedBuffer.create_isEmpty _, hlaw.1, hlaw.2⟩
    · simp [hpoint]
  exact ⟨hnext.stream, hnext.owned, hnext.spare, hnext.current, hnext.flushed, hnext.backend,
    hnext.flushing, hnext.running, hnext.joinable, hnext.stopped⟩

/-- In the round that the exchange begins there is a written buffer for every spare buffer
it gives away. -/
theorem exchange_taken (hready : s.backend.Ready) (hcurrent : s.currentBuffer.isSome)
    (howned : ∀ p ∈ s.buffers, p.isSome) (hspare : s.nextBuffer = none → s.buffers ≠ []) :
    s.exchange.backend.Taken := by
  have hmoved := owned_concat howned hcurrent
  rcases exchange_cases s with ⟨hnone, hexchange⟩ | ⟨-, hexchange⟩ <;> rw [hexchange]
  · refine ⟨rfl, Or.inl ⟨rfl, ?_⟩, hmoved, Nat.zero_le _⟩
    have hlength : 0 < s.buffers.length := List.length_pos_iff.mpr (hspare hnone)
    simp only [List.length_append, List.length_singleton]
    omega
  · refine ⟨rfl, Or.inr ⟨hready.buffer2, ?_⟩, hmoved, Nat.zero_le _⟩
    simp

/-- The critical section of the loop takes over everything that is buffered. -/
theorem exchange_logs (hs : s.Logs) (hpoint : s.backend.point = .critical) :
    s.exchange.Logs := by
  have hready := hs.backend
  rw [Backend.Law, hpoint] at hready
  obtain ⟨hcurrent, hnonempty⟩ := hs.current (by rw [hpoint]; rfl)
  have htaken := exchange_taken hready hcurrent hs.owned hnonempty
  have hstream := hs.stream
  have hnotDone : s.stopped = true → False := by
    intro hstopped
    have hdone := hs.stopped hstopped
    rw [hpoint] at hdone
    cases hdone
  have hjoinable : s.joinable = false → False := by
    intro hjoined
    rcases hs.joinable hjoined with hdone | hdone <;> rw [hpoint] at hdone <;> cases hdone
  have hsome : s.backend.buffer1.isSome := by
    obtain ⟨b, hb, -⟩ := hready.buffer1
    rw [hb]
    rfl
  have hmoved : s.file ++ bytes (s.buffers ++ [s.currentBuffer]) ++ bytes [] ++
      s.backend.buffer1.bytes = s.appended.flatten := by
    rw [← hstream, stream, hready.unwritten, hready.buffer1.bytes]
    simp
  rcases exchange_cases s with ⟨-, hexchange⟩ | ⟨hnext, hexchange⟩ <;>
    rw [hexchange, hready.buffersToWrite] at htaken <;> rw [hexchange, hready.buffersToWrite]
  · refine ⟨hmoved, nofun, Or.inr hready.buffer2, ?_, nofun, htaken, nofun,
      fun hstop _ => hs.running hstop (by simp [hpoint]), fun h => (hjoinable h).elim,
      fun h => (hnotDone h).elim⟩
    obtain ⟨b, hb, -⟩ := hready.buffer2
    exact fun _ => ⟨hsome, fun hnull => by simp [hb] at hnull⟩
  · exact ⟨hmoved, nofun, hs.spare, fun _ => ⟨hsome, fun hnull => absurd hnull hnext⟩, nofun,
      htaken, nofun, fun hstop _ => hs.running hstop (by simp [hpoint]),
      fun h => (hjoinable h).elim, fun h => (hnotDone h).elim⟩

/-- A write moves one buffer from the stream into the file. -/
theorem fwrite_ok (hs : s.Logs) (hmore : s.backend.written < s.backend.buffersToWrite.length)
    (howned : ∀ p ∈ s.backend.buffersToWrite, p.isSome)
    (hpoint : s.backend.point = .writing ∨ s.backend.point = .finalWriting) :
    ∃ next, s.fwrite = .ok next ∧ next.Logs := by
  have hget : s.backend.buffersToWrite[s.backend.written]? =
      some s.backend.buffersToWrite[s.backend.written] := List.getElem?_eq_getElem hmore
  obtain ⟨buffer, hbuffer⟩ := Option.isSome_iff_exists.mp (howned _ (List.getElem_mem hmore))
  refine ⟨{ s with
    file := s.file ++ buffer.data
    backend := { s.backend with written := s.backend.written + 1 } }, ?_, ?_⟩
  · rw [fwrite, hget, hbuffer]
    rfl
  · refine hs.of_backend ?_ ?_ rfl Or.inl id fun _ => rfl
    · unfold Backend.unwritten
      rw [List.drop_eq_getElem_cons hmore, hbuffer]
      simp [bytes, BufferPtr.bytes]
    · have hlaw := hs.backend
      unfold Backend.Law at hlaw ⊢
      rcases hpoint with hpoint | hpoint <;> simp only [hpoint] at hlaw ⊢
      · exact ⟨hlaw.buffer1, hlaw.buffer2, hlaw.owned, hmore⟩
      · exact ⟨hlaw.1, hmore⟩

/-- A missing spare buffer is replaced by an owned one, emptied. -/
theorem takeBack_none {buffersToWrite : List BufferPtr} (hne : buffersToWrite ≠ [])
    (howned : ∀ p ∈ buffersToWrite, p.isSome) :
    ∃ spare, takeBack none buffersToWrite = .ok (spare, buffersToWrite.dropLast) ∧
      spare.IsEmpty := by
  obtain ⟨buffer, hbuffer⟩ :=
    Option.isSome_iff_exists.mp (howned _ (List.getLast_mem hne))
  refine ⟨some buffer.reset, ?_, ⟨_, rfl, rfl⟩⟩
  rw [takeBack, List.getLast?_eq_some_getLast hne, hbuffer]
  rfl

theorem takeBack_some {spare : BufferPtr} (hempty : spare.IsEmpty)
    (buffersToWrite : List BufferPtr) :
    takeBack spare buffersToWrite = .ok (spare, buffersToWrite) := by
  obtain ⟨b, rfl, -⟩ := hempty
  rfl

/-- The buffers that `resize(2)` leaves are owned, and there are enough of them. -/
theorem refill_taken (htaken : s.backend.Taken) : ∃ buffer1 buffer2,
    s.refill = .ok { s with backend := ⟨.test, buffer1, buffer2, [], 0⟩ } ∧
      buffer1.IsEmpty ∧ buffer2.IsEmpty := by
  obtain ⟨left, hleft, howned, hlength⟩ : ∃ left, left = kept s.backend.buffersToWrite ∧
      (∀ p ∈ left, p.isSome) ∧ left.length = min 2 s.backend.buffersToWrite.length := by
    refine ⟨_, rfl, ?_, ?_⟩ <;> unfold kept
    · intro p hmem
      split at hmem
      · exact htaken.owned p (List.mem_of_mem_take hmem)
      · exact htaken.owned p hmem
    · split
      · rw [List.length_take]
      · omega
  have hne : left ≠ [] := by
    rw [← List.length_pos_iff, hlength]
    rcases htaken.buffer2 with ⟨-, hmany⟩ | ⟨-, hmany⟩ <;> omega
  obtain ⟨buffer1, htake, hempty⟩ := takeBack_none hne howned
  obtain ⟨buffer2, rest, hsecond, hready⟩ : ∃ buffer2 rest,
      takeBack s.backend.buffer2 left.dropLast = .ok (buffer2, rest) ∧ buffer2.IsEmpty := by
    rcases htaken.buffer2 with ⟨hnone, hmany⟩ | ⟨hspare, -⟩
    · rw [hnone]
      have hrest : left.dropLast ≠ [] := by
        rw [← List.length_pos_iff, List.length_dropLast, hlength]
        omega
      obtain ⟨buffer2, hsecond, hready⟩ := takeBack_none hrest fun p hmem =>
        howned p (List.mem_of_mem_dropLast hmem)
      exact ⟨buffer2, _, hsecond, hready⟩
    · exact ⟨_, _, takeBack_some hspare _, hspare⟩
  refine ⟨buffer1, buffer2, ?_, hempty, hready⟩
  unfold kept at hleft
  unfold refill
  simp only [← hleft, htaken.buffer1, htake, hsecond, bind, Except.bind]
  rfl

/-- The refill finds enough written buffers, and empties written ones only. -/
theorem refill_ok (hs : s.Logs) (hpoint : s.backend.point = .refill) :
    ∃ next, s.refill = .ok next ∧ next.Logs := by
  have hlaw := hs.backend
  rw [Backend.Law, hpoint] at hlaw
  obtain ⟨htaken, hwritten⟩ := hlaw
  obtain ⟨buffer1, buffer2, hrefill, hempty, hready⟩ := refill_taken htaken
  refine ⟨_, hrefill, ?_⟩
  refine hs.of_backend ?_ ⟨hempty, hready, rfl, rfl⟩ (by rw [hpoint]; rfl) nofun
    (fun _ => by simp [hpoint]) (by simp [hpoint])
  rw [Backend.unwritten, Backend.unwritten, hwritten, List.drop_length]
  rfl

/-- The final flush takes over what is left, unless that is empty. -/
theorem finalFlush_logs (hs : s.Logs) (hpoint : s.backend.point = .finalFlush) :
    s.finalFlush.Logs := by
  have hready := hs.backend
  rw [Backend.Law, hpoint] at hready
  obtain ⟨hcurrent, -⟩ := hs.current (by rw [hpoint]; rfl)
  obtain ⟨current, hsome⟩ := Option.isSome_iff_exists.mp hcurrent
  have hstream := hs.stream
  rw [stream, hready.unwritten, hsome] at hstream
  have hstopping : s.stopping = true := hs.flushing (by rw [hpoint]; rfl)
  have hnotDone : s.stopped = true → False := by
    intro hstopped
    have hdone := hs.stopped hstopped
    rw [hpoint] at hdone
    cases hdone
  have hjoinable : s.joinable = false → False := by
    intro hjoined
    rcases hs.joinable hjoined with hdone | hdone <;> rw [hpoint] at hdone <;> cases hdone
  unfold finalFlush
  simp only [hsome]
  split
  next =>
    refine ⟨?_, by rw [hready.buffersToWrite]; exact nofun, hs.spare, nofun,
      fun _ => ⟨hready.buffersToWrite, rfl⟩, ?_, fun _ => hstopping, fun _ _ => hstopping,
      fun h => (hjoinable h).elim, fun h => (hnotDone h).elim⟩
    · simp only [stream, Backend.unwritten, List.drop_zero, hready.buffersToWrite]
      rw [← hstream]
      simp [BufferPtr.bytes]
    · exact ⟨owned_concat (p := some current) hs.owned rfl, Nat.zero_le _⟩
  next hempty =>
    have hdata : current.data = [] :=
      List.length_eq_zero_iff.mp (Nat.eq_zero_of_not_pos hempty)
    refine ⟨?_, by rw [hready.buffersToWrite]; exact nofun, hs.spare, nofun,
      fun _ => ⟨hready.buffersToWrite, by rw [hsome]; exact hdata⟩, ⟨hs.owned, Nat.zero_le _⟩,
      fun _ => hstopping, fun _ _ => hstopping, fun h => (hjoinable h).elim,
      fun h => (hnotDone h).elim⟩
    simp only [stream, Backend.unwritten, List.drop_zero, hready.buffersToWrite, hsome]
    rw [← hstream]
    simp

/-- The write loops own what they write. -/
theorem Logs.owned_of_writes (hs : s.Logs)
    (hpoint : s.backend.point = .writing ∨ s.backend.point = .finalWriting) :
    ∀ p ∈ s.backend.buffersToWrite, p.isSome := by
  have hlaw := hs.backend
  unfold Backend.Law at hlaw
  rcases hpoint with hpoint | hpoint <;> rw [hpoint] at hlaw
  · exact hlaw.owned
  · exact hlaw.1

theorem backendStep_logs (hs : s.Logs) {success : Bool} (hstep : s.backendStep success = .ok next) :
    next.Logs := by
  have hlaw := hs.backend
  unfold Backend.Law at hlaw
  cases backendStep_cases.mp hstep with
  | fopen hpoint hopen => exact fopen_logs hs hpoint hopen
  | test hpoint =>
      rw [hpoint] at hlaw
      have hready : ∀ point, Backend.Ready { s.backend with point } := fun _ =>
        ⟨hlaw.buffer1, hlaw.buffer2, hlaw.buffersToWrite, hlaw.written⟩
      cases hrunning : s.running with
      | true => exact hs.goTo (hready .critical) (by rw [hpoint]; rfl) nofun (by simp [hpoint])
      | false =>
          exact hs.goTo (hready .finalFlush) (by rw [hpoint]; rfl)
            (fun _ => Or.inr ⟨hrunning, by simp [hpoint]⟩) (by simp [hpoint])
  | exchange hpoint => exact exchange_logs hs hpoint
  | fwrite hpoint hmore hwrite =>
      obtain ⟨other, hother, hlogs⟩ := fwrite_ok hs hmore (hs.owned_of_writes hpoint) hpoint
      exact Except.ok.inj (hother.symm.trans hwrite) ▸ hlogs
  | written hpoint hall =>
      rw [hpoint] at hlaw
      exact hs.goTo ⟨⟨hlaw.buffer1, hlaw.buffer2, hlaw.owned, hlaw.written⟩,
        Nat.le_antisymm hlaw.written (Nat.le_of_not_lt hall)⟩
        (by rw [hpoint]; rfl) nofun (by simp [hpoint])
  | refill hpoint hrefill =>
      obtain ⟨other, hother, hlogs⟩ := refill_ok hs hpoint
      exact Except.ok.inj (hother.symm.trans hrefill) ▸ hlogs
  | finalFlush hpoint => exact finalFlush_logs hs hpoint
  | flushed hpoint hall =>
      rw [hpoint] at hlaw
      exact hs.goTo (Nat.le_antisymm hlaw.2 (Nat.le_of_not_lt hall)) (by rw [hpoint]; rfl)
        (fun _ => Or.inl (by rw [hpoint]; rfl)) (by simp [hpoint])

/-- The backend thread can take its next step until it is done, if `fopen` succeeds. -/
theorem Logs.exists_backendStep (hs : s.Logs) (hstarted : s.backend.point ≠ .notStarted)
    (hdone : s.backend.point ≠ .done) {success : Bool}
    (hopens : s.backend.point = .opening → success = true) :
    ∃ next, s.backendStep success = .ok next := by
  simp only [backendStep_cases]
  have hwrites (hpoint : s.backend.point = .writing ∨ s.backend.point = .finalWriting)
      (hmore : s.backend.written < s.backend.buffersToWrite.length) :
      ∃ next, s.BackendMove success next := by
    obtain ⟨next, hwrite, -⟩ := fwrite_ok hs hmore (hs.owned_of_writes hpoint) hpoint
    exact ⟨next, .fwrite hpoint hmore hwrite⟩
  cases hpoint : s.backend.point with
  | notStarted => exact absurd hpoint hstarted
  | done => exact absurd hpoint hdone
  | opening => exact ⟨_, .fopen hpoint (if_pos (hopens hpoint))⟩
  | test => exact ⟨_, .test hpoint⟩
  | critical => exact ⟨_, .exchange hpoint⟩
  | writing =>
      by_cases hmore : s.backend.written < s.backend.buffersToWrite.length
      · exact hwrites (Or.inl hpoint) hmore
      · exact ⟨_, .written hpoint hmore⟩
  | refill =>
      obtain ⟨next, hrefill, -⟩ := refill_ok hs hpoint
      exact ⟨next, .refill hpoint hrefill⟩
  | finalFlush => exact ⟨_, .finalFlush hpoint⟩
  | finalWriting =>
      by_cases hmore : s.backend.written < s.backend.buffersToWrite.length
      · exact hwrites (Or.inr hpoint) hmore
      · exact ⟨_, .flushed hpoint hmore⟩

theorem backendStep_ne_undefined (hs : s.Logs) (success : Bool) :
    s.backendStep success ≠ .error .undefined := by
  cases hpoint : s.backend.point with
  | notStarted | done =>
      rw [backendStep, hpoint]
      rintro ⟨⟩
  | opening =>
      rw [backendStep, hpoint]
      cases success <;> rintro ⟨⟩
  | test | critical | writing | refill | finalFlush | finalWriting =>
      have hopens : s.backend.point = .opening → success = true := by simp [hpoint]
      obtain ⟨next, hstep⟩ := hs.exists_backendStep (by simp [hpoint]) (by simp [hpoint]) hopens
      rw [hstep]
      rintro ⟨⟩

/-! ## Starting and stopping -/

theorem start_logs (hs : s.Logs) (hpoint : s.backend.point = .notStarted)
    (hstart : s.start = .ok next) : next.Logs := by
  unfold start at hstart
  split at hstart
  next => cases hstart
  next =>
    rw [Except.ok.injEq] at hstart
    subst hstart
    have hlaw := hs.backend
    rw [Backend.Law, hpoint] at hlaw
    have hstream := hs.stream
    have hnotDone : s.stopped = true → False := by
      intro hstopped
      have hdone := hs.stopped hstopped
      rw [hpoint] at hdone
      cases hdone
    refine ⟨?_, hs.owned, hs.spare, fun _ => hs.current (by rw [hpoint]; rfl), nofun, ⟨rfl, rfl⟩,
      nofun, nofun, nofun, fun h => (hnotDone h).elim⟩
    rw [stream, Backend.unwritten, hlaw.1, List.drop_nil] at hstream
    exact hstream

theorem stop_logs (hs : s.Logs) (hstarted : s.backend.point ≠ .notStarted) : s.stop.Logs := by
  refine ⟨hs.stream, hs.owned, hs.spare, hs.current, hs.flushed, hs.backend, fun _ => rfl,
    fun _ _ => rfl, hs.joinable, fun hstopped => ?_⟩
  -- without a thread to join, an earlier `stop` has already joined it
  have hjoined : s.joinable = false := by
    simpa only [stop, Bool.not_eq_true', Bool.not_eq_eq_eq_not, Bool.not_true] using hstopped
  exact (hs.joinable hjoined).resolve_left hstarted

theorem join_logs (hs : s.Logs) (hjoin : s.join = .ok next) : next.Logs := by
  unfold join at hjoin
  obtain ⟨hdone, hjoin⟩ := Except.guard_eq_ok.mp hjoin
  obtain rfl := Except.ok.inj hjoin
  simp only [Bool.and_eq_true, decide_eq_true_eq] at hdone
  exact ⟨hs.stream, hs.owned, hs.spare, hs.current, hs.flushed, hs.backend, hs.flushing,
    hs.running, fun _ => Or.inr hdone.2, fun _ => hdone.2⟩

/-- Every proper step is defined and keeps the invariant. -/
theorem step_ok (hs : s.Logs) {action : Action} (hproper : s.Proper action) :
    s.step action ≠ .error .undefined ∧ ∀ next, s.step action = .ok next → next.Logs := by
  cases action with
  | append logline =>
      obtain ⟨appended, happend, hlogs⟩ := append_ok hs hproper
      simp only [step]
      rw [happend]
      refine ⟨nofun, fun next hnext => ?_⟩
      rw [Except.ok.injEq] at hnext
      exact hnext ▸ hlogs
  | start =>
      refine ⟨?_, fun next hstart => start_logs hs hproper hstart⟩
      simp only [step, start]
      split <;> exact nofun
  | stop =>
      refine ⟨nofun, fun next hstop => ?_⟩
      simp only [step, Except.ok.injEq] at hstop
      exact hstop ▸ stop_logs hs hproper
  | join =>
      refine ⟨?_, fun next hjoin => join_logs hs hjoin⟩
      simp only [step, join]
      split <;> exact nofun
  | backend success =>
      exact ⟨backendStep_ne_undefined hs success, fun next hstep => backendStep_logs hs hstep⟩

/-- When `stop()` has returned nothing is on the way to the file. -/
theorem Logs.file_of_stopped (hs : s.Logs) (hstopped : s.stopped = true) :
    s.file = s.appended.flatten := by
  have hdone := hs.stopped hstopped
  obtain ⟨hbuffers, hcurrent⟩ := hs.flushed (by rw [hdone]; rfl)
  have hwritten := hs.backend
  rw [Backend.Law, hdone] at hwritten
  have hstream := hs.stream
  unfold AsyncLogging.stream at hstream
  rw [Backend.unwritten, hwritten, List.drop_length, hbuffers, hcurrent] at hstream
  simpa using hstream

/-- At every point the file and the buffers on the way to it hold exactly the
appended lines; when `stop()` has returned the file does. No null buffer is used. -/
theorem log_complete {schedule : List Action} (hproper : EveryStep step Proper create schedule)
    (hrun : run step create schedule = .ok s) :
    s.file ++ bytes s.backend.unwritten ++ bytes s.buffers ++ s.currentBuffer.bytes =
      s.appended.flatten ∧
    (s.stopped = true → s.file = s.appended.flatten) ∧
    ∀ action, s.Proper action → s.step action ≠ .error .undefined := by
  have hs : s.Logs := run_invariant_of_everyStep
    (fun _ _ next hlogs hcondition hstep => (step_ok hlogs hcondition).2 next hstep)
    create_logs hproper hrun
  have hstream := hs.stream
  unfold stream at hstream
  exact ⟨hstream, hs.file_of_stopped, fun action haction => (step_ok hs haction).1⟩

/-- One line is written by the final flush. -/
def logOnce : List Action :=
  [.start, .append [104, 105], .stop, .backend true, .backend true, .backend true, .backend true,
    .backend true, .join]

theorem log_complete_once : ∃ s, run step create logOnce = .ok s ∧ s.stopped = true ∧
    s.file = [104, 105] := by
  have hproper : EveryStep step Proper create logOnce := by
    decide +kernel
  have hends : ends (fun s => decide (s.stopped = true ∧ s.appended = [[104, 105]]))
      (run step create logOnce) = true := by
    decide +kernel
  obtain ⟨s, hrun, hcheck⟩ := exists_of_ends hends
  obtain ⟨hstopped, happended⟩ := of_decide_eq_true hcheck
  obtain ⟨-, hfile, -⟩ := log_complete hproper hrun
  exact ⟨s, hrun, hstopped, by rw [hfile hstopped, happended]; rfl⟩

end AsyncLogging

end Muduo
