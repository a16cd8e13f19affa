import Muduo.AsyncLogging.Effect

/-! # The lifecycle of the logger

Three places take `currentBuffer_`: `append`, the critical section of the loop, and the
final flush. The first two put another buffer in its place, the final flush does not. A
logger is therefore usable after `stop()`, and after another `start()`, unless the final
flush found lines in `currentBuffer_`.
-/

open Transition

namespace Muduo

/-- `fwrite` is called at this point while there are buffers left. -/
def BackendPoint.writes : BackendPoint → Bool
  | .writing | .finalWriting => true
  | _ => false

namespace AsyncLogging

variable {s : AsyncLogging}

/-- Whoever uses `currentBuffer_` finds one, and the write loops find the buffers they
write. -/
def Usable (s : AsyncLogging) : Action → Prop
  | .append logline => s.currentBuffer.isSome ∧ s.append logline ≠ .error .undefined
  | .backend success => (s.backend.point = .critical → s.currentBuffer.isSome) ∧
      (s.backend.point.writes → s.backendStep success ≠ .error .undefined)
  | .start | .stop | .join => True

/-- A logger, and whether a final flush has found lines in `currentBuffer_` so far. -/
structure Lifecycle where
  logger : AsyncLogging
  drained : Bool

namespace Lifecycle

variable {record next : Lifecycle} {action : Action}

def create : Lifecycle := ⟨AsyncLogging.create, false⟩

/-- The step is the final flush and `currentBuffer_` holds a line. -/
def drains (s : AsyncLogging) : Action → Bool
  | .backend _ => s.backend.point == .finalFlush && !s.currentBuffer.bytes.isEmpty
  | _ => false

def step (record : Lifecycle) (action : Action) : Except Stop Lifecycle := do
  let logger ← record.logger.step action
  return ⟨logger, record.drained || drains record.logger action⟩

/-- No line is appended and the loop takes nothing over once the buffer is gone. -/
def BeforeDrained (record : Lifecycle) : Action → Prop
  | .append _ => record.drained = false
  | .backend _ => record.logger.backend.point = .critical → record.drained = false
  | .start | .stop | .join => True

/-- Who owns a buffer, as long as the condition is met. -/
structure Held (record : Lifecycle) : Prop where
  current : record.logger.currentBuffer.isSome = !record.drained
  buffers : ∀ p ∈ record.logger.buffers, p.isSome
  taken : ∀ p ∈ record.logger.backend.buffersToWrite, p.isSome
  spare : record.logger.backend.point = .test ∨ record.logger.backend.point = .critical →
    record.logger.backend.buffer1.isSome

theorem create_held : create.Held :=
  ⟨rfl, nofun, nofun, by rintro (hpoint | hpoint) <;> cases hpoint⟩

theorem Held.current_isSome (hheld : record.Held) (hkeeps : record.drained = false) :
    record.logger.currentBuffer.isSome := by
  rw [hheld.current, hkeeps]
  rfl

/-- `append` replaces the buffer it gives away. -/
theorem Held.append (hheld : record.Held) {logline : List UInt8} {logger : AsyncLogging}
    (hkeeps : record.drained = false) (happend : record.logger.append logline = .ok logger) :
    Held ⟨logger, record.drained⟩ := by
  have hmoved := owned_concat hheld.buffers (hheld.current_isSome hkeeps)
  obtain ⟨current, -, ⟨-, rfl⟩ | ⟨nextBuffer, -, rfl⟩ | ⟨-, rfl⟩⟩ := append_cases happend
  · exact ⟨by simp [hkeeps], hheld.buffers, hheld.taken, hheld.spare⟩
  · exact ⟨by simp [hkeeps], hmoved, hheld.taken, hheld.spare⟩
  · exact ⟨by simp [hkeeps], hmoved, hheld.taken, hheld.spare⟩

/-- The loop replaces the buffer it takes over by `buffer1`. -/
theorem Held.exchange (hheld : record.Held) (hkeeps : record.drained = false)
    (hpoint : record.logger.backend.point = .critical) :
    Held ⟨record.logger.exchange, record.drained⟩ := by
  have hspare := hheld.spare (Or.inr hpoint)
  have hmoved := owned_concat hheld.buffers (hheld.current_isSome hkeeps)
  rcases exchange_cases record.logger with ⟨-, hexchange⟩ | ⟨-, hexchange⟩
  · rw [hexchange]
    exact ⟨by simp [hkeeps, hspare], hheld.taken, hmoved, by rintro (h | h) <;> cases h⟩
  · rw [hexchange]
    exact ⟨by simp [hkeeps, hspare], hheld.taken, hmoved, by rintro (h | h) <;> cases h⟩

/-- The final flush takes the buffer over without replacing it, when it holds a line. -/
theorem Held.finalFlush (hheld : record.Held) {success : Bool}
    (hpoint : record.logger.backend.point = .finalFlush) :
    Held ⟨record.logger.finalFlush, record.drained || drains record.logger (.backend success)⟩ := by
  have hcurrent := hheld.current
  rcases finalFlush_cases record.logger with ⟨current, hsome, hlines, hflush⟩ | ⟨hempty, hflush⟩
  · have hdrains : drains record.logger (.backend success) = true := by
      simpa [drains, hpoint, hsome, BufferPtr.bytes, FixedBuffer.length,
        List.length_pos_iff] using hlines
    have hmoved :=
      owned_concat (p := record.logger.currentBuffer) hheld.buffers (by rw [hsome]; rfl)
    rw [hflush]
    exact ⟨by simp [hdrains], hheld.taken, hmoved, by rintro (h | h) <;> cases h⟩
  · have hdrains : drains record.logger (.backend success) = false := by
      cases hbuffer : record.logger.currentBuffer with
      | none => simp [drains, hbuffer, BufferPtr.bytes]
      | some current =>
          have hdata := List.length_eq_zero_iff.mp (hempty current hbuffer)
          simp [drains, hbuffer, BufferPtr.bytes, hdata]
    rw [hflush]
    exact ⟨by simp [hdrains, hcurrent], hheld.taken, hheld.buffers, by rintro (h | h) <;> cases h⟩

/-- The write loops own what they write. -/
theorem Held.fwrite_defined (hheld : record.Held) :
    record.logger.fwrite ≠ .error .undefined := by
  unfold AsyncLogging.fwrite
  split
  next p hget =>
    obtain ⟨buffer, hbuffer⟩ :=
      Option.isSome_iff_exists.mp (hheld.taken p (List.mem_of_getElem? hget))
    rw [hbuffer]
    rintro ⟨⟩
  next => rintro ⟨⟩

/-- The refill leaves a first spare buffer. -/
theorem Held.refill (hheld : record.Held) {logger : AsyncLogging}
    (hrefill : record.logger.refill = .ok logger) : Held ⟨logger, record.drained⟩ := by
  obtain ⟨buffer1, buffer2, rest, last, hfirst, -, rfl⟩ := refill_cases hrefill
  have hspare : buffer1.isSome := by
    rcases takeBack_cases hfirst with ⟨buffer, -, rfl, -⟩ | ⟨buffer, -, rfl, -⟩ <;> rfl
  exact ⟨hheld.current, hheld.buffers, nofun, fun _ => hspare⟩

/-- Every step of the backend thread that meets the condition keeps the buffers owned. -/
theorem Held.backendStep (hheld : record.Held) {success : Bool} {logger : AsyncLogging}
    (hkeeps : record.BeforeDrained (.backend success))
    (hbackend : record.logger.backendStep success = .ok logger) :
    Held ⟨logger, record.drained || drains record.logger (.backend success)⟩ := by
  -- only the final flush drains
  have hdrains (hpoint : record.logger.backend.point ≠ .finalFlush) :
      (record.drained || drains record.logger (.backend success)) = record.drained := by
    simp [drains, hpoint]
  cases backendStep_cases.mp hbackend with
  | fopen hpoint hopen =>
      obtain rfl := fopen_cases hopen
      rw [hdrains (by simp [hpoint])]
      exact ⟨hheld.current, hheld.buffers, hheld.taken, fun _ => rfl⟩
  | test hpoint =>
      rw [hdrains (by simp [hpoint])]
      exact ⟨hheld.current, hheld.buffers, hheld.taken, fun _ => hheld.spare (Or.inl hpoint)⟩
  | exchange hpoint =>
      rw [hdrains (by simp [hpoint])]
      exact hheld.exchange (hkeeps hpoint) hpoint
  | fwrite hpoint _ hwrite =>
      obtain ⟨buffer, -, rfl⟩ := fwrite_cases hwrite
      rcases hpoint with hpoint | hpoint
      all_goals
        rw [hdrains (by simp [hpoint])]
        exact ⟨hheld.current, hheld.buffers, hheld.taken, by simp [hpoint]⟩
  | written hpoint | flushed hpoint =>
      rw [hdrains (by simp [hpoint])]
      exact ⟨hheld.current, hheld.buffers, hheld.taken, by rintro (h | h) <;> cases h⟩
  | refill hpoint hrefill =>
      rw [hdrains (by simp [hpoint])]
      exact hheld.refill hrefill
  | finalFlush hpoint => exact hheld.finalFlush hpoint

theorem Held.step (hheld : record.Held) (hkeeps : record.BeforeDrained action)
    (hstep : record.step action = .ok next) : next.Held := by
  obtain ⟨logger, hlogger, hreturn⟩ := Except.bind_eq_ok.mp hstep
  obtain rfl := Except.ok.inj hreturn
  cases action with
  | append logline =>
      have hkept := hheld.append hkeeps hlogger
      simpa [drains] using hkept
  | start =>
      simp only [AsyncLogging.step, start] at hlogger
      split at hlogger
      next => cases hlogger
      next =>
        obtain rfl := Except.ok.inj hlogger
        exact ⟨by simp [hheld.current, drains], hheld.buffers, nofun,
          by rintro (h | h) <;> cases h⟩
  | stop =>
      obtain rfl := Except.ok.inj hlogger
      exact ⟨by simp [hheld.current, drains, stop], hheld.buffers, hheld.taken, hheld.spare⟩
  | join =>
      obtain ⟨-, hjoin⟩ := Except.guard_eq_ok.mp hlogger
      obtain rfl := Except.ok.inj hjoin
      exact ⟨by simp [hheld.current, drains], hheld.buffers, hheld.taken, hheld.spare⟩
  | backend success => exact hheld.backendStep hkeeps hlogger

/-- As long as every buffer is owned, a step is usable if and only if it meets the
condition. -/
theorem Held.usable_iff (hheld : record.Held) (action : Action) :
    record.logger.Usable action ↔ record.BeforeDrained action := by
  have hcurrent : record.logger.currentBuffer.isSome ↔ record.drained = false := by
    rw [hheld.current]
    simp
  cases action with
  | append logline =>
      simp only [Usable, BeforeDrained]
      rw [append_defined_iff, and_self, hcurrent]
  | backend success =>
      simp only [Usable, BeforeDrained]
      rw [hcurrent]
      refine and_iff_left fun hwrites => ?_
      unfold AsyncLogging.backendStep
      cases hpoint : record.logger.backend.point <;> rw [hpoint] at hwrites <;>
        simp only [BackendPoint.writes, Bool.false_eq_true] at hwrites
      all_goals
        simp only
        split
        next => exact hheld.fwrite_defined
        next => rintro ⟨⟩
  | start | stop | join => exact Iff.rfl

/-- **The lifecycle.** Whatever the order of `start()`, `stop()`, appends and steps of the
backend thread, nobody uses a missing buffer if and only if no line is appended, and the
loop takes nothing over, after a final flush that found a line in `currentBuffer_`. -/
theorem usable_iff_beforeDrained (schedule : List Action) :
    EveryStep AsyncLogging.step Usable AsyncLogging.create schedule ↔
      EveryStep step BeforeDrained create schedule := by
  have hrecorded (record : Lifecycle) (action : Action) :
      (record.step action).map Lifecycle.logger = record.logger.step action := by
    unfold step
    cases record.logger.step action <;> rfl
  have hpreserved (record : Lifecycle) (action : Action) (next : Lifecycle) (hheld : record.Held)
      (hkeeps : record.BeforeDrained action) (hstep : record.step action = .ok next) :
      next.Held := hheld.step hkeeps hstep
  have hlogger : EveryStep step (fun record action => record.logger.Usable action) create
      schedule ↔ EveryStep AsyncLogging.step Usable create.logger schedule :=
    everyStep_recorded hrecorded
  refine hlogger.symm.trans ⟨?_, ?_⟩
  · refine EveryStep.imp (fun record action next hheld husable hstep => ?_)
      (fun record action hheld husable => (hheld.usable_iff action).mp husable) create_held
    exact hheld.step ((hheld.usable_iff action).mp husable) hstep
  · exact EveryStep.imp hpreserved
      (fun record action hheld hkeeps => (hheld.usable_iff action).mpr hkeeps) create_held

/-- One line is appended and flushed by `stop()`, and the next one finds no buffer. -/
theorem usable_false : ∃ s, run AsyncLogging.step AsyncLogging.create
    [.start, .append [104, 105], .stop, .backend true, .backend true, .backend true,
      .backend true, .backend true, .join] = .ok s ∧
    s.stopped = true ∧ s.currentBuffer = none ∧ s.append [33] = .error .undefined := by
  have hends : ends (fun s => decide (s.stopped = true ∧ s.currentBuffer = none))
      (run AsyncLogging.step AsyncLogging.create [.start, .append [104, 105], .stop,
        .backend true, .backend true, .backend true, .backend true, .backend true, .join]) =
      true := by
    decide +kernel
  obtain ⟨s, hrun, hcheck⟩ := exists_of_ends hends
  obtain ⟨hstopped, hcurrent⟩ := of_decide_eq_true hcheck
  refine ⟨s, hrun, hstopped, hcurrent, ?_⟩
  unfold AsyncLogging.append
  rw [hcurrent]
  rfl

end Lifecycle

end AsyncLogging

end Muduo
