import Muduo.AsyncLogging.Complete

/-! # How long `stop()` takes

After `stop()` has cleared `running_`, the backend thread finishes its round, finds the loop
condition false and writes what is left. How many steps this takes is determined by where the
thread stands and by the buffers on the way to the file, so `stop()` returns.
-/

open Transition

namespace Muduo

namespace AsyncLogging

variable {s next final : AsyncLogging} {action : Action}

/-- The buffers that the final flush would write. -/
def flushes (s : AsyncLogging) : Nat :=
  s.buffers.length + if s.currentBuffer.bytes = [] then 0 else 1

/-- The steps of the backend thread up to the end of `threadFunc` once `running_` is false. -/
def drain (s : AsyncLogging) : Nat :=
  match s.backend.point with
  | .notStarted | .done => 0
  | .opening => s.flushes + 4
  | .test => s.flushes + 3
  | .critical => s.buffers.length + 7
  | .writing => s.backend.unwritten.length + s.flushes + 5
  | .refill => s.flushes + 4
  | .finalFlush => s.flushes + 2
  | .finalWriting => s.backend.unwritten.length + 1

def Action.isBackend : Action → Bool
  | .backend _ => true
  | _ => false

/-! ## Steps of the backend thread -/

theorem exchange_drain (hready : s.backend.Ready) : s.exchange.drain = s.buffers.length + 6 := by
  rcases exchange_cases s with ⟨-, hexchange⟩ | ⟨-, hexchange⟩ <;>
    simp [hexchange, drain, flushes, Backend.unwritten, hready.buffersToWrite,
      hready.buffer1.bytes]

theorem finalFlush_drain (s : AsyncLogging) : s.finalFlush.drain = s.flushes + 1 := by
  unfold flushes
  rcases finalFlush_cases s with ⟨current, hcurrent, hlines, hflush⟩ | ⟨hempty, hflush⟩ <;>
    rw [hflush]
  · have hsome : s.currentBuffer.bytes ≠ [] := by
      rw [hcurrent]
      exact List.length_pos_iff.mp hlines
    simp [drain, Backend.unwritten, hsome]
  · have hnone : s.currentBuffer.bytes = [] := by
      cases hcurrent : s.currentBuffer with
      | none => rfl
      | some current => exact List.length_eq_zero_iff.mp (hempty current hcurrent)
    simp [drain, Backend.unwritten, hnone]

theorem fwrite_unwritten (hwrite : s.fwrite = .ok next) :
    next.backend.unwritten.length + 1 = s.backend.unwritten.length ∧
      next.flushes = s.flushes ∧ next.backend.point = s.backend.point := by
  obtain ⟨buffer, hget, rfl⟩ := fwrite_cases hwrite
  obtain ⟨hlt, -⟩ := List.getElem?_eq_some_iff.mp hget
  refine ⟨?_, rfl, rfl⟩
  simp only [Backend.unwritten, List.length_drop]
  omega

/-- Nothing is left to write at the end of a write loop. -/
theorem unwritten_of_written (hdone : ¬ s.backend.written < s.backend.buffersToWrite.length) :
    s.backend.unwritten.length = 0 := by
  rw [Backend.unwritten, List.length_drop]
  omega

/-- Each step of the backend thread is one step less to the end. -/
theorem backendStep_drain (hlogs : s.Logs) (hstop : s.running = false) {success : Bool}
    (hstep : s.backendStep success = .ok next) : next.drain + 1 = s.drain := by
  have hlaw := hlogs.backend
  unfold Backend.Law at hlaw
  cases backendStep_cases.mp hstep with
  | fopen hpoint hopen =>
      obtain rfl := fopen_cases hopen
      simp only [drain, hpoint]
      rfl
  | test hpoint =>
      rw [hstop]
      simp only [drain, hpoint]
      rfl
  | exchange hpoint =>
      rw [hpoint] at hlaw
      rw [exchange_drain hlaw, drain, hpoint]
  | fwrite hpoint _ hwrite =>
      obtain ⟨hunwritten, hflushes, hsame⟩ := fwrite_unwritten hwrite
      rcases hpoint with hpoint | hpoint
      all_goals
        rw [drain, drain, hsame, hpoint]
        dsimp only
        omega
  | written hpoint hall =>
      have hnone := unwritten_of_written hall
      rw [drain, drain, hpoint]
      dsimp only [goTo]
      rw [hnone, Nat.zero_add]
      rfl
  | refill hpoint hrefill =>
      obtain ⟨buffer1, buffer2, rest, last, -, -, rfl⟩ := refill_cases hrefill
      simp only [drain, hpoint]
      rfl
  | finalFlush hpoint => rw [finalFlush_drain, drain, hpoint]
  | flushed hpoint hall =>
      have hnone := unwritten_of_written hall
      rw [drain, drain, hpoint]
      dsimp only [goTo]
      rw [hnone]

/-! ## Runs -/

/-- After `stop()` the loop condition is false for good. -/
structure Stopping (s : AsyncLogging) : Prop where
  logs : s.Logs
  stopping : s.stopping = true
  running : s.running = false
  started : s.backend.point ≠ .notStarted

/-- The backend thread neither clears `running_` nor sets it. -/
theorem backendStep_flags {success : Bool} (hstep : s.backendStep success = .ok next) :
    next.running = s.running ∧ next.stopping = s.stopping ∧
      next.backend.point ≠ .notStarted := by
  cases backendStep_cases.mp hstep with
  | fopen _ hopen =>
      obtain rfl := fopen_cases hopen
      exact ⟨rfl, rfl, by rintro ⟨⟩⟩
  | test =>
      refine ⟨rfl, rfl, ?_⟩
      dsimp only [goTo]
      split <;> rintro ⟨⟩
  | exchange =>
      rcases exchange_cases s with ⟨-, hexchange⟩ | ⟨-, hexchange⟩ <;> rw [hexchange] <;>
        exact ⟨rfl, rfl, by rintro ⟨⟩⟩
  | fwrite hpoint _ hwrite =>
      obtain ⟨buffer, -, rfl⟩ := fwrite_cases hwrite
      refine ⟨rfl, rfl, ?_⟩
      rcases hpoint with hpoint | hpoint <;> rw [hpoint] <;> rintro ⟨⟩
  | written | flushed => exact ⟨rfl, rfl, by rintro ⟨⟩⟩
  | refill _ hrefill =>
      obtain ⟨buffer1, buffer2, rest, last, -, -, rfl⟩ := refill_cases hrefill
      exact ⟨rfl, rfl, by rintro ⟨⟩⟩
  | finalFlush =>
      rcases finalFlush_cases s with ⟨current, -, -, hflush⟩ | ⟨-, hflush⟩ <;> rw [hflush] <;>
        exact ⟨rfl, rfl, by rintro ⟨⟩⟩

/-- `stop()` is called after `start()`, and it leaves `running_` false. -/
theorem step_stopping (s : AsyncLogging) (action : Action) (next : AsyncLogging)
    (hs : s.Logs ∧ (s.stopping = true → s.Stopping)) (hproper : s.Proper action)
    (hstep : s.step action = .ok next) : next.Logs ∧ (next.stopping = true → next.Stopping) := by
  obtain ⟨hlogs, hs⟩ := hs
  have hnext := (step_ok hlogs hproper).2 next hstep
  refine ⟨hnext, fun hstopping => ?_⟩
  cases action with
  | append logline =>
      have happend : next.stopping = s.stopping := by
        obtain ⟨current, -, ⟨-, rfl⟩ | ⟨nextBuffer, -, rfl⟩ | ⟨-, rfl⟩⟩ := append_cases hstep
        all_goals rfl
      rw [happend, hproper.2] at hstopping
      cases hstopping
  | start =>
      simp only [step, start] at hstep
      split at hstep
      next => cases hstep
      next =>
        obtain rfl := Except.ok.inj hstep
        exact absurd hproper (hs hstopping).started
  | stop =>
      obtain rfl := Except.ok.inj hstep
      exact ⟨hnext, rfl, rfl, hproper⟩
  | join =>
      obtain ⟨-, hstep⟩ := Except.guard_eq_ok.mp hstep
      obtain rfl := Except.ok.inj hstep
      have hold := hs hstopping
      exact ⟨hnext, hstopping, hold.running, hold.started⟩
  | backend success =>
      obtain ⟨hrunning, hsame, hstarted⟩ := backendStep_flags hstep
      have hold := hs (hsame ▸ hstopping)
      exact ⟨hnext, hstopping, hrunning.trans hold.running, hstarted⟩

theorem Stopping.step (hs : s.Stopping) (hproper : s.Proper action)
    (hstep : s.step action = .ok next) :
    next.Stopping ∧ next.drain + (if action.isBackend then 1 else 0) = s.drain := by
  have hlater := step_stopping s action next ⟨hs.logs, fun _ => hs⟩ hproper hstep
  cases action with
  | append logline =>
      have hnot := hproper.2
      rw [hs.stopping] at hnot
      cases hnot
  | start => exact absurd hproper hs.started
  | stop =>
      obtain rfl := Except.ok.inj hstep
      exact ⟨hlater.2 rfl, rfl⟩
  | join =>
      obtain ⟨-, hstep⟩ := Except.guard_eq_ok.mp hstep
      obtain rfl := Except.ok.inj hstep
      exact ⟨hlater.2 hs.stopping, rfl⟩
  | backend success =>
      obtain ⟨-, hsame, -⟩ := backendStep_flags hstep
      exact ⟨hlater.2 (hsame.trans hs.stopping), backendStep_drain hs.logs hs.running hstep⟩

theorem Stopping.run {schedule : List Action} (hs : s.Stopping)
    (hproper : EveryStep AsyncLogging.step Proper s schedule)
    (hrun : Transition.run AsyncLogging.step s schedule = .ok final) :
    final.Stopping ∧ final.drain + schedule.countP Action.isBackend = s.drain := by
  induction schedule generalizing s with
  | nil =>
      rw [run_nil, Except.ok.injEq] at hrun
      exact ⟨hrun ▸ hs, by rw [hrun, List.countP_nil, Nat.add_zero]⟩
  | cons action rest ih =>
      obtain ⟨middle, hstep, hrest⟩ := run_cons_eq_ok.mp hrun
      obtain ⟨hmiddle, hdrain⟩ := hs.step hproper.1 hstep
      obtain ⟨hfinal, hcount⟩ := ih hmiddle (hproper.2 middle hstep) hrest
      refine ⟨hfinal, ?_⟩
      rw [List.countP_cons]
      omega

theorem Stopping.drain_eq_zero_iff (hs : s.Stopping) :
    s.drain = 0 ↔ s.backend.point = .done := by
  have hstarted := hs.started
  unfold drain
  cases hpoint : s.backend.point with
  | notStarted => exact absurd hpoint hstarted
  | done => exact iff_of_true rfl rfl
  | opening | test | critical | writing | refill | finalFlush | finalWriting =>
      exact iff_of_false (Nat.succ_ne_zero _) (by rintro ⟨⟩)

/-- **`stop()` returns.** After `stop()` is called, and if nothing is appended any more, the
backend thread takes exactly as many steps as `drain` says, each of them possible as soon as it is
its turn; then `join` returns, and every line has been written. -/
theorem stop_returns {before after : List Action}
    (hproper : EveryStep step Proper create before) (hrun : run step create before = .ok s)
    (hstopping : s.stopping = true) (hlater : EveryStep step Proper s after)
    (hafter : run step s after = .ok final) :
    final.drain + after.countP Action.isBackend = s.drain ∧
      (final.drain ≠ 0 → ∃ next, final.step (.backend true) = .ok next) ∧
      (final.drain = 0 → final.joinable = true → ∃ next, final.step .join = .ok next ∧
        next.stopped = true ∧ next.file = next.appended.flatten) := by
  obtain ⟨hlogs, hs⟩ := run_invariant_of_everyStep step_stopping
    ⟨create_logs, fun hcreated => by cases hcreated⟩ hproper hrun
  obtain ⟨hfinal, hcount⟩ := (hs hstopping).run hlater hafter
  refine ⟨hcount, fun hmore => ?_, fun hnone hjoinable => ?_⟩
  · exact hfinal.logs.exists_backendStep hfinal.started
      (fun hdone => hmore (hfinal.drain_eq_zero_iff.mpr hdone)) fun _ => rfl
  · have hdone := hfinal.drain_eq_zero_iff.mp hnone
    have hjoin : final.step .join = .ok { final with joinable := false, stopped := true } := by
      simp [step, join, hfinal.stopping, hjoinable, hdone]
    exact ⟨_, hjoin, rfl, (join_logs hfinal.logs hjoin).file_of_stopped rfl⟩

/-- `stop()` is called while the backend thread writes the first of two buffers. -/
def stopInRound : List Action :=
  [.start, .append [104, 10], .backend true, .backend true, .backend true, .stop]

theorem stop_returns_inRound : ∃ s final next, run step create stopInRound = .ok s ∧
    run step s (List.replicate 6 (.backend true)) = .ok final ∧ final.step .join = .ok next ∧
    next.stopped = true ∧ next.file = [104, 10] := by
  have hproper : EveryStep step Proper create stopInRound := by
    decide +kernel
  have hends : ends (fun s => decide (s.stopping = true ∧ s.drain = 6 ∧
      EveryStep step Proper s (List.replicate 6 (.backend true))) &&
      ends (fun final => decide (final.joinable = true ∧ final.appended = [[104, 10]]))
        (run step s (List.replicate 6 (.backend true))))
      (run step create stopInRound) = true := by
    decide +kernel
  obtain ⟨s, hrun, hcheck⟩ := exists_of_ends hends
  obtain ⟨hstart, hend⟩ := (Bool.and_eq_true _ _).mp hcheck
  obtain ⟨hstopping, hdrain, hlater⟩ := of_decide_eq_true hstart
  obtain ⟨final, hafter, hcheck⟩ := exists_of_ends hend
  obtain ⟨hjoinable, happended⟩ := of_decide_eq_true hcheck
  obtain ⟨hcount, -, hjoin⟩ := stop_returns hproper hrun hstopping hlater hafter
  have hnone : final.drain = 0 := by
    rw [hdrain] at hcount
    exact Nat.add_right_cancel (hcount.trans (Nat.zero_add 6).symm)
  obtain ⟨next, hnext, hstopped, hfile⟩ := hjoin hnone hjoinable
  refine ⟨s, final, next, hrun, hafter, hnext, hstopped, ?_⟩
  obtain ⟨-, hstep⟩ := Except.guard_eq_ok.mp hnext
  rw [hfile, ← Except.ok.inj hstep, happended]
  rfl

end AsyncLogging

end Muduo
