import Muduo.Logger.Basic

/-! # Tags of lines

A macro passes its level to `log` through the field of the shared logger. Another macro may
set the field between the two calls, and then the line carries the tag of the other level.
A line has its own tag if and only if the last `setloglevel` before its `log`, by any thread,
was for the level of its macro.
-/

open Transition

namespace Muduo

/-! ## The tag of a line -/

namespace Logger

theorem levelStr_toInt (level : LogLevel) : (Logger.mk level.toInt).levelStr =
    match level with
    | .info => "[INFO]"
    | .error => "[ERROR]"
    | .fatal => "[FATAL]"
    | .debug => "[DEBUG]" := by
  cases level <;> rfl

/-- No tag is the beginning of another one. -/
theorem levelStr_append_inj {level other : LogLevel} {rest tail : String}
    (hline : (Logger.mk level.toInt).levelStr ++ rest = (Logger.mk other.toInt).levelStr ++ tail) :
    level = other := by
  have hchars := congrArg String.toList hline
  rw [levelStr_toInt, levelStr_toInt, String.toList_append, String.toList_append] at hchars
  cases level <;> cases other <;> first | rfl | simp at hchars

end Logger

/-- The line begins with the level of its macro and ends with its message. -/
def Line.Tagged (line : Line) : Prop :=
  ∃ time, line.text = (Logger.mk line.level.toInt).levelStr ++ " " ++ time ++ " : " ++ line.buf

theorem Line.tagged_iff {thread : ThreadId} {level current : LogLevel} {now : Tm} {buf : String} :
    Tagged ⟨thread, level, buf, (Logger.mk current.toInt).log now buf⟩ ↔ current = level := by
  constructor
  · rintro ⟨time, htext⟩
    simp only [Logger.log, String.append_assoc] at htext
    exact Logger.levelStr_append_inj htext
  · rintro rfl
    exact ⟨Timestamp.toString now, rfl⟩

namespace Logging

variable {build : Build} {s next : Logging} {action : Action} {thread : ThreadId}

/-- Every line passed to `g_output` has the tag of its macro. -/
def Tagged (s : Logging) : Prop := ∀ line ∈ s.output, line.Tagged

/-! ## Calls of `setloglevel` -/

/-- The level that the last call sets. -/
def lastLevel (s : Logging) : Option LogLevel := s.calls.head?.map Prod.snd

/-- The level that the last call of this thread sets. -/
def lastLevelOf (s : Logging) (thread : ThreadId) : Option LogLevel :=
  (s.calls.find? (·.1 = thread)).map Prod.snd

/-- When a thread calls `log`, the last level set by any thread is the one that it has set
itself. -/
def Undisturbed (s : Logging) : Action → Prop
  | .setloglevel _ _ => True
  | .log thread _ _ => s.lastLevel = s.lastLevelOf thread

instance (s : Logging) (action : Action) : Decidable (s.Undisturbed action) := by
  unfold Undisturbed
  split <;> infer_instance

/-- The logger holds the level of the last call, and a thread inside a macro has set the level
of the macro. -/
structure Leveled (s : Logging) : Prop where
  logger : ∀ level, s.lastLevel = some level → s.logger = ⟨level.toInt⟩
  point : ∀ thread level, s.point thread = .leveled level → s.lastLevelOf thread = some level

theorem create_leveled : create.Leveled := ⟨nofun, nofun⟩

theorem afterLog_ne_leveled (level other : LogLevel) : afterLog level ≠ .leveled other := by
  cases level <;> exact nofun

theorem step_leveled (s : Logging) (action : Action) (next : Logging) (hs : s.Leveled)
    (hstep : step build s action = .ok next) : next.Leveled := by
  cases action with
  | setloglevel thread level =>
      obtain ⟨-, hstep⟩ := Except.guard_eq_ok.mp hstep
      obtain rfl := Except.ok.inj hstep
      refine ⟨fun last hlast => ?_, fun other last hpoint => ?_⟩
      · obtain rfl := Option.some.inj hlast
        rfl
      · simp only [Function.update_apply] at hpoint
        split at hpoint
        next hother =>
          obtain rfl := MacroPoint.leveled.inj hpoint
          simp [lastLevelOf, hother]
        next hother =>
          have hcall := hs.point other last hpoint
          simpa [lastLevelOf, List.find?_cons, Ne.symm hother] using hcall
  | log thread message now =>
      simp only [step] at hstep
      split at hstep
      next level hpoint =>
        obtain rfl := Except.ok.inj hstep
        refine ⟨hs.logger, fun other level hother => hs.point other level ?_⟩
        simp only [Function.update_apply] at hother
        split at hother
        next => exact absurd hother (afterLog_ne_leveled _ _)
        next => exact hother
      next => cases hstep

/-- A thread that has set a level is not the first one when another level is the last. -/
theorem exists_lastLevel {level : LogLevel} (hlevel : s.lastLevelOf thread = some level) :
    ∃ current, s.lastLevel = some current := by
  unfold lastLevelOf at hlevel
  unfold lastLevel
  cases hcalls : s.calls with
  | nil =>
      rw [hcalls] at hlevel
      cases hlevel
  | cons call rest => exact ⟨call.2, rfl⟩

/-- A step writes at most one line, and writes it with the tag of its macro if and only if
the thread is undisturbed. -/
theorem step_tagged_iff (s : Logging) (action : Action) (next : Logging) (hs : s.Leveled)
    (hstep : step build s action = .ok next) :
    next.Tagged ↔ s.Tagged ∧ s.Undisturbed action := by
  cases action with
  | setloglevel thread level =>
      obtain ⟨-, hstep⟩ := Except.guard_eq_ok.mp hstep
      obtain rfl := Except.ok.inj hstep
      exact (and_iff_left trivial).symm
  | log thread message now =>
      simp only [step] at hstep
      split at hstep
      next level hpoint =>
        obtain rfl := Except.ok.inj hstep
        have hown := hs.point thread level hpoint
        obtain ⟨current, hcurrent⟩ := exists_lastLevel hown
        have hundisturbed : s.Undisturbed (.log thread message now) ↔ current = level := by
          rw [Undisturbed, hcurrent, hown, Option.some.injEq]
        rw [hundisturbed, Tagged, List.forall_mem_append, List.forall_mem_singleton,
          hs.logger current hcurrent, Line.tagged_iff, Tagged]
      next => cases hstep

theorem create_tagged : create.Tagged := nofun

/-- **Tags of lines.** In every interleaving of any number of threads, all lines have the tags
of their macros if and only if the last `setloglevel` before each `log` has set the level that
its own thread has set. -/
theorem tagged_iff_undisturbed {schedule : List Action}
    (hrun : run (step build) create schedule = .ok s) :
    s.Tagged ↔ EveryStep (step build) Undisturbed create schedule := by
  rw [run_law_iff step_leveled step_tagged_iff create_leveled hrun]
  exact and_iff_right create_tagged

/-! ## One thread -/

/-- The thread that takes the step. -/
def Action.caller : Action → ThreadId
  | .setloglevel caller _ | .log caller _ _ => caller

/-- No other thread has set the level. -/
def Alone (s : Logging) (caller : ThreadId) : Prop := ∀ call ∈ s.calls, call.1 = caller

theorem step_alone (hs : s.Alone thread) (hcaller : action.caller = thread)
    (hstep : step build s action = .ok next) : next.Alone thread := by
  cases action with
  | setloglevel caller level =>
      obtain ⟨-, hstep⟩ := Except.guard_eq_ok.mp hstep
      obtain rfl := Except.ok.inj hstep
      exact List.forall_mem_cons.mpr ⟨hcaller, hs⟩
  | log caller message now =>
      simp only [step] at hstep
      split at hstep
      next =>
        obtain rfl := Except.ok.inj hstep
        exact hs
      next => cases hstep

theorem Alone.undisturbed (hs : s.Alone thread) (hcaller : action.caller = thread) :
    s.Undisturbed action := by
  cases action with
  | setloglevel caller level => trivial
  | log caller message now =>
      obtain rfl : caller = thread := hcaller
      unfold Undisturbed lastLevel lastLevelOf
      cases hcalls : s.calls with
      | nil => rfl
      | cons call rest =>
          have hlast : call.1 = caller := hs call (by rw [hcalls]; exact List.mem_cons_self)
          simp [hlast]

/-- Lines of a process in which one thread logs have the right tags. -/
theorem oneThread_tagged {schedule : List Action}
    (hrun : run (step build) create schedule = .ok s)
    (hcaller : ∀ action ∈ schedule, action.caller = thread) : s.Tagged := by
  rw [run_law_iff step_leveled step_tagged_iff create_leveled hrun]
  have halone : create.Alone thread := nofun
  have hevery := (everyStep_iff_forall hrun).mpr hcaller
  exact ⟨create_tagged, hevery.imp (fun _ _ _ => step_alone) (fun _ _ => Alone.undisturbed) halone⟩

/-! ## Two threads -/

/-- One thread reports an error after the other one, in the build of `CMakeLists.txt`. -/
def inTurn : List Action :=
  [.setloglevel 1 .error, .log 1 "first" ⟨126, 0, 1, 0, 0, 0⟩, .setloglevel 2 .fatal,
    .log 2 "second" ⟨126, 0, 1, 0, 0, 0⟩]

theorem tagged_iff_undisturbed_inTurn : ∃ s, run (step .cmake) create inTurn = .ok s ∧
    s.output.map Line.text =
      ["[ERROR] 2026/01/01 00:00:00 : first", "[FATAL] 2026/01/01 00:00:00 : second"] ∧
    s.Tagged := by
  have hends : ends (fun s => decide (s.output.map Line.text =
      ["[ERROR] 2026/01/01 00:00:00 : first", "[FATAL] 2026/01/01 00:00:00 : second"]))
      (run (step .cmake) create inTurn) = true := by decide +kernel
  obtain ⟨s, hrun, hcheck⟩ := exists_of_ends hends
  have hundisturbed : EveryStep (step .cmake) Undisturbed create inTurn := by decide +kernel
  exact ⟨s, hrun, of_decide_eq_true hcheck, (tagged_iff_undisturbed hrun).mpr hundisturbed⟩

/-- The second thread sets its level between the two calls of the first one. -/
def interleaved : List Action :=
  [.setloglevel 1 .error, .setloglevel 2 .fatal, .log 1 "first" ⟨126, 0, 1, 0, 0, 0⟩]

/-- The error is reported as fatal. -/
theorem tagged_false : ∃ s, run (step .cmake) create interleaved = .ok s ∧
    s.output = [⟨1, .error, "first", "[FATAL] 2026/01/01 00:00:00 : first"⟩] ∧ ¬ s.Tagged := by
  have hends : ends (fun s => decide (s.output =
      [⟨1, .error, "first", "[FATAL] 2026/01/01 00:00:00 : first"⟩]))
      (run (step .cmake) create interleaved) = true := by decide +kernel
  obtain ⟨s, hrun, hcheck⟩ := exists_of_ends hends
  have houtput := of_decide_eq_true hcheck
  refine ⟨s, hrun, houtput, fun htagged => ?_⟩
  obtain ⟨time, htext⟩ := htagged _ (by rw [houtput]; exact List.mem_singleton_self _)
  have hfatal : "[FATAL] 2026/01/01 00:00:00 : first" =
      (Logger.mk LogLevel.fatal.toInt).levelStr ++ " 2026/01/01 00:00:00 : first" := by decide
  rw [hfatal, String.append_assoc, String.append_assoc, String.append_assoc] at htext
  cases Logger.levelStr_append_inj htext

end Logging

end Muduo
