import Muduo.AsyncLogging.WholeLines
import Muduo.Logger.Basic

/-! # The log of the echo server

`testserver.cc` passes every line of the logger to `AsyncLogging::append`. The macros print into
buffers of bounded size, so their lines are shorter than a `FixedBuffer` and none of them is
dropped: the stream holds the lines in the order of the calls of `log`.
-/

open Transition

namespace Muduo

/-! ## The length of a line -/

theorem length_snprintf (size : Nat) (text : String) : (snprintf size text).length ≤ size - 1 := by
  rw [snprintf, String.length_ofList]
  exact List.length_take_le _ _

theorem length_literal (text : String) : (literal text).length = text.length := by
  rw [literal, List.length_map, String.length_toList]

namespace Logger

theorem length_levelStr (logger : Logger) : logger.levelStr.length ≤ 7 := by
  unfold levelStr
  split_ifs <;> decide

/-- The level, the time and the message of a macro have bounded length. -/
theorem length_log (logger : Logger) (now : Tm) (message : String) :
    (logger.log now (snprintf 1024 message)).length ≤ 1161 := by
  have hlevel := logger.length_levelStr
  have htime : (Timestamp.toString now).length ≤ 127 := length_snprintf 128 _
  have hmessage := length_snprintf 1024 message
  have hspace : (" " : String).length = 1 := rfl
  have hcolon : (" : " : String).length = 3 := rfl
  simp only [log, String.length_append]
  omega

end Logger

/-! ## Steps that append nothing -/

namespace AsyncLogging

variable {s next : AsyncLogging}

theorem backendStep_appended {success : Bool} (hstep : s.backendStep success = .ok next) :
    next.appended = s.appended := by
  cases backendStep_cases.mp hstep with
  | fopen _ hopen =>
      obtain rfl := fopen_cases hopen
      rfl
  | test | written | flushed => rfl
  | exchange =>
      rcases exchange_cases s with ⟨-, hexchange⟩ | ⟨-, hexchange⟩ <;> rw [hexchange]
  | fwrite _ _ hwrite =>
      obtain ⟨buffer, -, rfl⟩ := fwrite_cases hwrite
      rfl
  | refill _ hrefill =>
      obtain ⟨buffer1, buffer2, rest, last, -, -, rfl⟩ := refill_cases hrefill
      rfl
  | finalFlush =>
      rcases finalFlush_cases s with ⟨current, -, -, hflush⟩ | ⟨-, hflush⟩ <;> rw [hflush]

theorem step_appended {action : Action} (hother : ∀ logline, action ≠ .append logline)
    (hstep : s.step action = .ok next) : next.appended = s.appended := by
  cases action with
  | append logline => exact absurd rfl (hother logline)
  | start =>
      simp only [step, start] at hstep
      split at hstep
      next => cases hstep
      next =>
        obtain rfl := Except.ok.inj hstep
        rfl
  | stop =>
      obtain rfl := Except.ok.inj hstep
      rfl
  | join =>
      obtain ⟨-, hstep⟩ := Except.guard_eq_ok.mp hstep
      obtain rfl := Except.ok.inj hstep
      rfl
  | backend success => exact backendStep_appended hstep

theorem append_appended {logline : List UInt8} (happend : s.append logline = .ok next) :
    next.appended = s.appended ++ [logline] := by
  obtain ⟨current, -, ⟨-, rfl⟩ | ⟨nextBuffer, -, rfl⟩ | ⟨-, rfl⟩⟩ := append_cases happend <;> rfl

end AsyncLogging

/-! ## The process -/

/-- The logger of a process and the `AsyncLogging` it writes to. -/
structure Process where
  logging : Logging
  asyncLog : AsyncLogging

namespace Process

def create : Process := ⟨.create, .create⟩

/-- `asyncOutput`; `g_asyncLog` is set before `setOutput` is called. -/
def asyncOutput (asyncLog : AsyncLogging) (line : Line) : Except Stop AsyncLogging :=
  asyncLog.append (literal line.text)

inductive Action where
  | logger (action : Logging.Action)
  | start
  | stop
  | join
  | backend (success : Bool)
  deriving DecidableEq, Repr

def step (build : Build) (s : Process) : Action → Except Stop Process
  | .logger action => do
      let logging ← s.logging.step build action
      let asyncLog ← run asyncOutput s.asyncLog
        (logging.output.drop s.logging.output.length)
      return ⟨logging, asyncLog⟩
  | .start => do return { s with asyncLog := ← s.asyncLog.step .start }
  | .stop => do return { s with asyncLog := ← s.asyncLog.step .stop }
  | .join => do return { s with asyncLog := ← s.asyncLog.step .join }
  | .backend success => do return { s with asyncLog := ← s.asyncLog.step (.backend success) }

/-- `AsyncLogging` is started once and then stopped, and nothing is logged any more when it
is. -/
def Proper (s : Process) : Action → Prop
  | .logger _ => s.asyncLog.stopping = false
  | .start => s.asyncLog.Proper .start
  | .stop => s.asyncLog.Proper .stop
  | .join | .backend _ => True

instance (s : Process) (action : Action) : Decidable (s.Proper action) :=
  match action with
  | .logger _ => inferInstanceAs (Decidable (_ = _))
  | .start => inferInstanceAs (Decidable (s.asyncLog.Proper .start))
  | .stop => inferInstanceAs (Decidable (s.asyncLog.Proper .stop))
  | .join | .backend _ => .isTrue trivial

variable {build : Build} {s next : Process} {action : Action}

/-- The lines of the calls of `log`. -/
def lines (s : Process) : List (List UInt8) :=
  s.logging.output.map fun line => literal line.text

/-- Every line has been appended. -/
structure Connected (s : Process) : Prop where
  logs : s.asyncLog.Logs
  blocks : ∃ written blocks, s.asyncLog.Blocks written blocks
  appended : s.asyncLog.appended = s.lines

theorem create_connected : create.Connected :=
  ⟨AsyncLogging.create_logs, ⟨[], [[]], AsyncLogging.create_blocks⟩, rfl⟩

/-- A macro passes on at most one line, and a short one. -/
theorem logger_output {logging next : Logging} {action : Logging.Action}
    (hstep : logging.step build action = .ok next) : next.output = logging.output ∨
      ∃ line, next.output = logging.output ++ [line] ∧
        (literal line.text).length < FixedBuffer.kBufferSize := by
  cases action with
  | setloglevel thread level =>
      obtain ⟨-, hstep⟩ := Except.guard_eq_ok.mp hstep
      obtain rfl := Except.ok.inj hstep
      exact Or.inl rfl
  | log thread message now =>
      simp only [Logging.step] at hstep
      split at hstep
      next level hpoint =>
        obtain rfl := Except.ok.inj hstep
        refine Or.inr ⟨_, rfl, ?_⟩
        rw [length_literal]
        exact (logging.logger.length_log now message).trans_lt (by decide)
      next => cases hstep

/-- A step of `AsyncLogging` that appends nothing. -/
theorem Connected.async (hs : s.Connected) (action : AsyncLogging.Action)
    (hother : ∀ logline, action ≠ .append logline) (hproper : s.asyncLog.Proper action)
    {asyncLog : AsyncLogging} (hstep : s.asyncLog.step action = .ok asyncLog) :
    ({ s with asyncLog } : Process).Connected := by
  obtain ⟨hlogs, hblocks⟩ := AsyncLogging.step_blocks _ _ _ ⟨hs.logs, hs.blocks⟩ hproper hstep
  exact ⟨hlogs, hblocks, (AsyncLogging.step_appended hother hstep).trans hs.appended⟩

/-- What a macro does, and that it does it without a null buffer. -/
theorem Connected.logger (hs : s.Connected) (hstopping : s.asyncLog.stopping = false)
    {action : Logging.Action} {logging : Logging}
    (hstep : s.logging.step build action = .ok logging) :
    ∃ asyncLog, run asyncOutput s.asyncLog
      (logging.output.drop s.logging.output.length) = .ok asyncLog ∧
        Connected ⟨logging, asyncLog⟩ := by
  rcases logger_output hstep with hsame | ⟨line, hline, hshort⟩
  · refine ⟨s.asyncLog, ?_, hs.logs, hs.blocks, ?_⟩
    · rw [hsame, List.drop_length, run_nil]
    · rw [hs.appended, lines, lines, hsame]
  · have hproper : s.asyncLog.Proper (.append (literal line.text)) := ⟨hshort, hstopping⟩
    obtain ⟨asyncLog, happend, -⟩ := AsyncLogging.append_ok hs.logs hproper
    obtain ⟨hlogs, hblocks⟩ := AsyncLogging.step_blocks _ (.append (literal line.text)) _
      ⟨hs.logs, hs.blocks⟩ hproper happend
    refine ⟨asyncLog, ?_, hlogs, hblocks, ?_⟩
    · rw [hline, List.drop_left]
      exact run_cons_eq_ok.mpr ⟨asyncLog, happend, rfl⟩
    · rw [AsyncLogging.append_appended happend, hs.appended, lines, lines, hline, List.map_append,
        List.map_singleton]

theorem step_connected (s : Process) (action : Action) (next : Process) (hs : s.Connected)
    (hproper : s.Proper action) (hstep : s.step build action = .ok next) : next.Connected := by
  cases action with
  | logger action =>
      obtain ⟨logging, hlogging, hstep⟩ := Except.bind_eq_ok.mp hstep
      obtain ⟨asyncLog, houtput, hstep⟩ := Except.bind_eq_ok.mp hstep
      obtain rfl := Except.ok.inj hstep
      obtain ⟨appended, happend, hnext⟩ := hs.logger hproper hlogging
      obtain rfl := Except.ok.inj (houtput.symm.trans happend)
      exact hnext
  | start =>
      obtain ⟨asyncLog, hasync, hstep⟩ := Except.bind_eq_ok.mp hstep
      obtain rfl := Except.ok.inj hstep
      exact hs.async .start (by rintro _ ⟨⟩) hproper hasync
  | stop =>
      obtain ⟨asyncLog, hasync, hstep⟩ := Except.bind_eq_ok.mp hstep
      obtain rfl := Except.ok.inj hstep
      exact hs.async .stop (by rintro _ ⟨⟩) hproper hasync
  | join =>
      obtain ⟨asyncLog, hasync, hstep⟩ := Except.bind_eq_ok.mp hstep
      obtain rfl := Except.ok.inj hstep
      exact hs.async .join (by rintro _ ⟨⟩) trivial hasync
  | backend success =>
      obtain ⟨asyncLog, hasync, hstep⟩ := Except.bind_eq_ok.mp hstep
      obtain rfl := Except.ok.inj hstep
      exact hs.async (.backend success) (by rintro _ ⟨⟩) trivial hasync

/-- **No line is dropped.** A macro that is called before `stop()` finds a buffer for its line. In
every state of a proper run `fwrite` has been given the first lines of the calls of `log`, each
whole and in the order of the calls, however long their messages are, and all of them when
`stop()` has returned. -/
theorem lines_logged {schedule : List Action}
    (hproper : EveryStep (step build) Proper create schedule)
    (hrun : run (step build) create schedule = .ok s) :
    (∃ count, s.asyncLog.file = (s.lines.take count).flatten) ∧
      (s.asyncLog.stopped = true → s.asyncLog.file = s.lines.flatten) ∧
      ∀ action, s.asyncLog.stopping = false →
        (s.logging.step build action).isOk = true →
          ∃ next, s.step build (.logger action) = .ok next := by
  have hs : s.Connected := run_invariant_of_everyStep step_connected create_connected hproper hrun
  obtain ⟨written, blocks, hblocks⟩ := hs.blocks
  refine ⟨⟨written.length, ?_⟩, fun hstopped => ?_, fun action hstopping hdefined => ?_⟩
  · rw [hblocks.file, ← hs.appended, ← hblocks.lines, List.take_left]
  · rw [hs.logs.file_of_stopped hstopped, hs.appended]
  · cases hlogging : s.logging.step build action with
    | error _ =>
        rw [hlogging] at hdefined
        cases hdefined
    | ok logging =>
        obtain ⟨asyncLog, houtput, -⟩ := hs.logger hstopping hlogging
        refine ⟨⟨logging, asyncLog⟩, ?_⟩
        simp only [step, hlogging, houtput, bind, Except.bind, pure, Except.pure]

/-- Two threads log, in a build with `LOG_INFO`, and `stop()` is called. -/
def logTwoLines : List Action := [
  .start, .logger (.setloglevel 1 .error), .logger (.log 1 "a" ⟨126, 0, 5, 9, 7, 30⟩),
  .logger (.setloglevel 2 .info), .logger (.log 2 "b" ⟨126, 0, 5, 9, 7, 31⟩), .stop,
  .backend true, .backend true, .backend true, .backend true, .backend true, .join]

theorem lines_logged_twoLines : ∃ s, run (step ⟨false, false⟩) create logTwoLines = .ok s ∧
    s.asyncLog.file =
      literal "[ERROR] 2026/01/05 09:07:30 : a" ++ literal "[INFO] 2026/01/05 09:07:31 : b" := by
  have hproper : EveryStep (step ⟨false, false⟩) Proper create logTwoLines := by
    decide +kernel
  have hends : ends (fun s => decide (s.asyncLog.stopped = true ∧ s.lines =
      [literal "[ERROR] 2026/01/05 09:07:30 : a", literal "[INFO] 2026/01/05 09:07:31 : b"]))
      (run (step ⟨false, false⟩) create logTwoLines) = true := by
    decide +kernel
  obtain ⟨s, hrun, hcheck⟩ := exists_of_ends hends
  obtain ⟨hstopped, hlines⟩ := of_decide_eq_true hcheck
  obtain ⟨-, hfile, -⟩ := lines_logged hproper hrun
  refine ⟨s, hrun, ?_⟩
  rw [hfile hstopped, hlines, List.flatten_cons, List.flatten_singleton]

end Process

end Muduo
