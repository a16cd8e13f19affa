import Muduo.AsyncLogging.Complete

/-! # Lines that fit no buffer

`append` asks for room twice. When the line does not fit into `currentBuffer_` it takes an
empty buffer without asking whether the line fits into that one, and `FixedBuffer::append`
drops a line that does not. Both tests are strict, so a line as long as a buffer is dropped,
and so is every longer one, whatever state the logger is in.
-/

open Transition

namespace Muduo

/-- No buffer has room for a line that is not shorter than a buffer. -/
theorem FixedBuffer.append_long {b : FixedBuffer} {buf : List UInt8}
    (hlong : kBufferSize ≤ buf.length) : b.append buf = b := by
  have havail : b.avail ≤ buf.length := (Nat.sub_le _ _).trans hlong
  rw [append, dif_neg (Nat.not_lt.mpr havail)]

theorem FixedBuffer.append_empty_data {b : FixedBuffer} (hdata : b.data = []) (buf : List UInt8) :
    (b.append buf).data = if buf.length < kBufferSize then buf else [] := by
  split
  next hshort => exact append_empty hdata hshort
  next hlong => rw [append_long (Nat.le_of_not_lt hlong), hdata]

namespace AsyncLogging

variable {s next : AsyncLogging} {action : Action} {logline : List UInt8}

/-- The pending stream: `buffers_` followed by `currentBuffer_`. -/
def pending (s : AsyncLogging) : List UInt8 := bytes s.buffers ++ s.currentBuffer.bytes

theorem stream_eq (s : AsyncLogging) :
    s.stream = s.file ++ bytes s.backend.unwritten ++ s.pending := List.append_assoc ..

/-! ## Spare buffers -/

/-- A spare buffer that is there has no content. -/
structure Spares (s : AsyncLogging) : Prop where
  nextBuffer : s.nextBuffer.bytes = []
  buffer2 : s.backend.buffer2.bytes = []

theorem create_spares : create.Spares := ⟨rfl, rfl⟩

theorem Spares.of_same (hs : s.Spares) (hnext : next.nextBuffer = s.nextBuffer)
    (hbuffer2 : next.backend.buffer2 = s.backend.buffer2) : next.Spares := by
  refine ⟨?_, ?_⟩
  · rw [hnext, hs.nextBuffer]
  · rw [hbuffer2, hs.buffer2]

/-- The refill takes a written buffer back and resets it. -/
theorem takeBack_bytes {spare p : BufferPtr} {buffersToWrite rest : List BufferPtr}
    (hspare : spare.bytes = []) (htake : takeBack spare buffersToWrite = .ok (p, rest)) :
    p.bytes = [] := by
  rcases takeBack_cases htake with ⟨buffer, rfl, rfl, -⟩ | ⟨buffer, -, rfl, -⟩
  · exact hspare
  · rfl

theorem Spares.refill (hs : s.Spares) (hrefill : s.refill = .ok next) : next.Spares := by
  obtain ⟨buffer1, buffer2, rest, last, -, hsecond, rfl⟩ := refill_cases hrefill
  exact ⟨hs.nextBuffer, takeBack_bytes hs.buffer2 hsecond⟩

theorem Spares.exchange (hs : s.Spares) : s.exchange.Spares := by
  rcases exchange_cases s with ⟨-, hexchange⟩ | ⟨-, hexchange⟩ <;> rw [hexchange]
  · exact ⟨hs.buffer2, rfl⟩
  · exact ⟨hs.nextBuffer, hs.buffer2⟩

theorem Spares.finalFlush (hs : s.Spares) : s.finalFlush.Spares := by
  rcases finalFlush_cases s with ⟨current, -, -, hflush⟩ | ⟨-, hflush⟩ <;> rw [hflush]
  · exact ⟨hs.nextBuffer, hs.buffer2⟩
  · exact ⟨hs.nextBuffer, hs.buffer2⟩

theorem Spares.fwrite (hs : s.Spares) (hwrite : s.fwrite = .ok next) : next.Spares := by
  obtain ⟨buffer, -, rfl⟩ := fwrite_cases hwrite
  exact ⟨hs.nextBuffer, hs.buffer2⟩

theorem Spares.backendStep (hs : s.Spares) {success : Bool}
    (hstep : s.backendStep success = .ok next) : next.Spares := by
  cases backendStep_cases.mp hstep with
  | fopen _ hopen =>
      obtain rfl := fopen_cases hopen
      exact ⟨hs.nextBuffer, rfl⟩
  | test | written | flushed => exact hs.of_same rfl rfl
  | exchange => exact hs.exchange
  | fwrite _ _ hwrite => exact hs.fwrite hwrite
  | refill _ hrefill => exact hs.refill hrefill
  | finalFlush => exact hs.finalFlush

theorem Spares.append (hs : s.Spares) (happend : s.append logline = .ok next) : next.Spares := by
  obtain ⟨current, -, ⟨-, rfl⟩ | ⟨nextBuffer, -, rfl⟩ | ⟨-, rfl⟩⟩ := append_cases happend
  · exact ⟨hs.nextBuffer, hs.buffer2⟩
  · exact ⟨rfl, hs.buffer2⟩
  · exact ⟨hs.nextBuffer, hs.buffer2⟩

/-- The spare buffers are empty in every run, also when the logger is started again. -/
theorem step_spares (s : AsyncLogging) (action : Action) (next : AsyncLogging) (hs : s.Spares)
    (hstep : s.step action = .ok next) : next.Spares := by
  cases action with
  | append logline => exact hs.append hstep
  | start =>
      simp only [step, start] at hstep
      split at hstep
      next => cases hstep
      next =>
        obtain rfl := Except.ok.inj hstep
        exact ⟨hs.nextBuffer, rfl⟩
  | stop =>
      obtain rfl := Except.ok.inj hstep
      exact hs.of_same rfl rfl
  | join =>
      obtain ⟨-, hstep⟩ := Except.guard_eq_ok.mp hstep
      obtain rfl := Except.ok.inj hstep
      exact hs.of_same rfl rfl
  | backend success => exact hs.backendStep hstep

/-! ## What `append` adds -/

/-- A line shorter than a buffer goes to the end of the pending stream, any other line
nowhere. -/
theorem Spares.append_pending (hs : s.Spares) (happend : s.append logline = .ok next) :
    next.pending = s.pending ++
      if logline.length < FixedBuffer.kBufferSize then logline else [] := by
  obtain ⟨current, hcurrent, hcases⟩ := append_cases happend
  rcases hcases with ⟨hroom, rfl⟩ | ⟨nextBuffer, hnext, rfl⟩ | ⟨hnext, rfl⟩
  · have hshort : logline.length < FixedBuffer.kBufferSize :=
      Nat.lt_of_lt_of_le hroom (Nat.sub_le _ _)
    rw [if_pos hshort]
    simp [pending, hcurrent, BufferPtr.bytes, FixedBuffer.append_data hroom]
  · have hdata : nextBuffer.data = [] := by
      have hspare := hs.nextBuffer
      rw [hnext] at hspare
      exact hspare
    simp [pending, BufferPtr.bytes, FixedBuffer.append_empty_data hdata]
  · have hfresh : (FixedBuffer.create s.allocated).data = [] := rfl
    simp [pending, BufferPtr.bytes, FixedBuffer.append_empty_data hfresh]

/-- **Lost lines.** In every state of every run an `append` that returns has added the whole
line to the pending stream if and only if the line is shorter than a buffer. -/
theorem append_keeps_iff_short {schedule : List Action} (hrun : run step create schedule = .ok s)
    (happend : s.append logline = .ok next) : next.pending = s.pending ++ logline ↔
      logline.length < FixedBuffer.kBufferSize := by
  have hs : s.Spares := run_invariant step_spares create_spares hrun
  rw [hs.append_pending happend, List.append_cancel_left_eq]
  constructor
  · intro hkept
    by_contra hlong
    rw [if_neg hlong] at hkept
    have hpos : 0 < FixedBuffer.kBufferSize := by decide
    rw [← hkept] at hlong
    exact hlong hpos
  · intro hshort
    rw [if_pos hshort]

/-- A line of two bytes goes into `currentBuffer_` of a started logger. -/
theorem append_keeps_iff_short_started : ∃ s next, run step create [.start, .backend true] = .ok s ∧
    s.append [104, 105] = .ok next ∧ next.pending = s.pending ++ [104, 105] := by
  have hends : ends (fun s => ends (fun _ => true) (s.append [104, 105]))
      (run step create [.start, .backend true]) = true := by
    decide +kernel
  obtain ⟨s, hrun, hcheck⟩ := exists_of_ends hends
  obtain ⟨next, happend, -⟩ := exists_of_ends hcheck
  exact ⟨s, next, hrun, happend, (append_keeps_iff_short hrun happend).mpr (by decide)⟩

/-- `append` returns when it finds a buffer. -/
theorem exists_append (hcurrent : s.currentBuffer.isSome) (logline : List UInt8) :
    ∃ next, s.append logline = .ok next := by
  obtain ⟨current, hsome⟩ := Option.isSome_iff_exists.mp hcurrent
  unfold append
  simp only [hsome, BufferPtr.deref, bind, Except.bind]
  split
  · exact ⟨_, rfl⟩
  · cases s.nextBuffer <;> exact ⟨_, rfl⟩

/-- A line as long as a buffer. -/
def longLine : List UInt8 := List.replicate FixedBuffer.kBufferSize 46

/-- The fresh logger drops it. -/
theorem append_keeps_false : ∃ s next, run step create [.start, .backend true] = .ok s ∧
    s.append longLine = .ok next ∧ next.pending = s.pending ∧
    next.pending ≠ s.pending ++ longLine := by
  have hends : ends (fun s => s.currentBuffer.isSome) (run step create [.start, .backend true]) =
      true := by decide +kernel
  obtain ⟨s, hrun, hcurrent⟩ := exists_of_ends hends
  obtain ⟨next, happend⟩ := exists_append hcurrent longLine
  have hs : s.Spares := run_invariant step_spares create_spares hrun
  have hlength : longLine.length = FixedBuffer.kBufferSize := List.length_replicate
  have hdropped : next.pending = s.pending := by
    rw [hs.append_pending happend, hlength, if_neg (Nat.lt_irrefl _), List.append_nil]
  refine ⟨s, next, hrun, happend, hdropped, fun hkept => ?_⟩
  rw [hdropped, List.self_eq_append_right] at hkept
  rw [hkept] at hlength
  exact absurd hlength (by decide)

/-! ## What a run loses -/

/-- The lines that fit into a buffer. -/
def short (lines : List (List UInt8)) : List (List UInt8) :=
  lines.filter (·.length < FixedBuffer.kBufferSize)

theorem flatten_short_concat (lines : List (List UInt8)) (logline : List UInt8) :
    (short (lines ++ [logline])).flatten = (short lines).flatten ++
      if logline.length < FixedBuffer.kBufferSize then logline else [] := by
  unfold short
  rw [List.filter_append, List.flatten_append]
  split
  next hshort => simp [hshort]
  next hlong => simp [hlong]

/-- The same logger, without the lines that fit into no buffer. -/
def shortened (s : AsyncLogging) : AsyncLogging := { s with appended := short s.appended }

theorem shortened_exchange (s : AsyncLogging) :
    s.shortened.exchange = s.exchange.shortened := by
  unfold exchange shortened
  cases s.nextBuffer <;> rfl

theorem shortened_finalFlush (s : AsyncLogging) :
    s.shortened.finalFlush = s.finalFlush.shortened := by
  unfold finalFlush shortened
  cases hcurrent : s.currentBuffer with
  | none => simp only [hcurrent]
  | some current =>
      simp only
      split <;> simp only [hcurrent]

theorem shortened_fwrite (hwrite : s.fwrite = .ok next) :
    s.shortened.fwrite = .ok next.shortened := by
  obtain ⟨buffer, hget, rfl⟩ := fwrite_cases hwrite
  have hsame : s.shortened.backend.buffersToWrite[s.shortened.backend.written]? =
      some (some buffer) := hget
  unfold fwrite
  rw [hsame]
  rfl

theorem shortened_refill (hrefill : s.refill = .ok next) :
    s.shortened.refill = .ok next.shortened := by
  obtain ⟨buffer1, buffer2, rest, last, hfirst, hsecond, rfl⟩ := refill_cases hrefill
  exact Except.bind_eq_ok.mpr ⟨_, hfirst, Except.bind_eq_ok.mpr ⟨_, hsecond, rfl⟩⟩

theorem shortened_fopen {success : Bool} (hopen : s.fopen success = .ok next) :
    s.shortened.fopen success = .ok next.shortened := by
  obtain ⟨hsuccess, hopen⟩ := Except.guard_eq_ok.mp hopen
  obtain rfl := Except.ok.inj hopen
  exact if_pos hsuccess

theorem shortened_backendStep {success : Bool} (hstep : s.backendStep success = .ok next) :
    s.shortened.backendStep success = .ok next.shortened := by
  rw [backendStep_cases]
  cases backendStep_cases.mp hstep with
  | fopen hpoint hopen => exact .fopen hpoint (shortened_fopen hopen)
  | test hpoint => exact .test hpoint
  | exchange hpoint =>
      rw [← shortened_exchange]
      exact .exchange hpoint
  | fwrite hpoint hmore hwrite => exact .fwrite hpoint hmore (shortened_fwrite hwrite)
  | written hpoint hall => exact .written hpoint hall
  | refill hpoint hrefill => exact .refill hpoint (shortened_refill hrefill)
  | finalFlush hpoint =>
      rw [← shortened_finalFlush]
      exact .finalFlush hpoint
  | flushed hpoint hall => exact .flushed hpoint hall

/-- Only `append` looks at the lines. -/
theorem step_shortened (hother : ∀ logline, action ≠ .append logline)
    (hstep : s.step action = .ok next) : s.shortened.step action = .ok next.shortened := by
  cases action with
  | append logline => exact absurd rfl (hother logline)
  | start =>
      simp only [step, start] at hstep
      split at hstep
      next => cases hstep
      next hjoinable =>
        obtain rfl := Except.ok.inj hstep
        exact if_neg hjoinable
  | stop =>
      obtain rfl := Except.ok.inj hstep
      rfl
  | join =>
      obtain ⟨hdone, hstep⟩ := Except.guard_eq_ok.mp hstep
      obtain rfl := Except.ok.inj hstep
      exact if_pos hdone
  | backend success => exact shortened_backendStep hstep

/-- Whichever buffer `append` uses, a line that is not shorter than a buffer changes
neither the stream nor the lines that fit. -/
theorem append_shortened (hs : s.shortened.Logs) (hspares : s.Spares)
    (hrunning : s.stopping = false) (happend : s.append logline = .ok next) :
    next.shortened.Logs := by
  have hflushed : s.backend.point.flushed = false := hs.not_flushed hrunning
  obtain ⟨hcurrent, hnonempty⟩ := hs.current hflushed
  have hpending := hspares.append_pending happend
  have hstream : next.file = s.file → next.backend = s.backend →
      next.appended = s.appended ++ [logline] →
      next.stream = (short next.appended).flatten := by
    intro hfile hbackend happended
    have hbefore : s.stream = (short s.appended).flatten := hs.stream
    rw [stream_eq] at hbefore ⊢
    rw [hfile, hbackend, happended, hpending, flatten_short_concat, ← hbefore]
    simp only [List.append_assoc]
  have hout (hpoint : s.backend.point.flushed = true) : False := by
    rw [hflushed] at hpoint
    cases hpoint
  have hmoved := owned_concat (p := s.currentBuffer) hs.owned hcurrent
  obtain ⟨current, hsome, ⟨-, rfl⟩ | ⟨nextBuffer, -, rfl⟩ | ⟨hnext, rfl⟩⟩ := append_cases happend
  · exact ⟨hstream rfl rfl rfl, hs.owned, hs.spare, fun _ => ⟨rfl, hnonempty⟩,
      fun hpoint => (hout hpoint).elim, hs.backend, hs.flushing, hs.running, hs.joinable,
      hs.stopped⟩
  · exact ⟨hstream rfl rfl rfl, hmoved, Or.inl rfl, fun _ => ⟨rfl, fun _ => by simp [shortened]⟩,
      fun hpoint => (hout hpoint).elim, hs.backend, hs.flushing, hs.running, hs.joinable,
      hs.stopped⟩
  · exact ⟨hstream rfl rfl rfl, hmoved, Or.inl hnext, fun _ => ⟨rfl, fun _ => by simp [shortened]⟩,
      fun hpoint => (hout hpoint).elim, hs.backend, hs.flushing, hs.running, hs.joinable,
      hs.stopped⟩

/-- `start()` is called once, before `stop()`, and lines of any length are appended before
`stop()` is called. -/
def Orderly (s : AsyncLogging) : Action → Prop
  | .append _ => s.stopping = false
  | action => s.Proper action

theorem step_shortened_logs (s : AsyncLogging) (action : Action) (next : AsyncLogging)
    (hs : s.shortened.Logs ∧ s.Spares) (horderly : s.Orderly action)
    (hstep : s.step action = .ok next) : next.shortened.Logs ∧ next.Spares := by
  refine ⟨?_, step_spares s action next hs.2 hstep⟩
  by_cases happend : ∃ logline, action = .append logline
  · obtain ⟨logline, rfl⟩ := happend
    exact append_shortened hs.1 hs.2 horderly hstep
  · have hother (logline : List UInt8) : action ≠ .append logline :=
      fun heq => happend ⟨logline, heq⟩
    have hproper : s.shortened.Proper action := by
      cases action with
      | append logline => exact absurd rfl (hother logline)
      | start | stop | join | backend => exact horderly
    exact (step_ok hs.1 hproper).2 _ (step_shortened hother hstep)

/-- **What the log loses.** When lines of any length are appended, the file and the buffers on
the way to it hold the lines that are shorter than a buffer, in the order of their appends, and
nothing of the others; when `stop()` has returned the file does. -/
theorem short_complete {schedule : List Action} (horderly : EveryStep step Orderly create schedule)
    (hrun : run step create schedule = .ok s) :
    s.stream = (short s.appended).flatten ∧
      (s.stopped = true → s.file = (short s.appended).flatten) := by
  have hcreate : create.shortened.Logs := create_logs
  obtain ⟨hs, -⟩ := run_invariant_of_everyStep step_shortened_logs ⟨hcreate, create_spares⟩
    horderly hrun
  exact ⟨hs.stream, hs.file_of_stopped⟩

end AsyncLogging

end Muduo
