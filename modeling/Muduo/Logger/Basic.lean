import Muduo.Platform

/-! # The logger and its macros

`Logger` of `Logger.h` and `Logger.cc`. One logger serves the process. A macro sets its level
with one call, prints its message into a buffer of its own, and writes the line with a second
call; other threads may be anywhere in their macros between the two. Characters of a text are
its bytes. What `localtime` gives, and what the arguments of a macro print, come from outside.
-/

namespace Muduo

/-- What `localtime` gives. -/
structure Tm where
  /-- years since 1900 -/
  year : Int
  /-- months since January -/
  mon : Nat
  mday : Nat
  hour : Nat
  min : Nat
  sec : Nat
  deriving DecidableEq, Repr

namespace Timestamp

/-- A number printed with a minimal width. -/
def padLeft (width : Nat) (fill : Char) (digits : String) : String :=
  String.ofList (List.replicate (width - digits.length) fill) ++ digits

/-- `Timestamp::toString`, with the format `%4d/%02d/%02d %02d:%02d:%02d`. -/
def toString (time : Tm) : String :=
  snprintf 128 (padLeft 4 ' ' (time.year + 1900).repr ++ "/" ++
    padLeft 2 '0' (time.mon + 1).repr ++ "/" ++ padLeft 2 '0' time.mday.repr ++ " " ++
    padLeft 2 '0' time.hour.repr ++ ":" ++ padLeft 2 '0' time.min.repr ++ ":" ++
    padLeft 2 '0' time.sec.repr)

example : toString ⟨126, 0, 5, 9, 7, 30⟩ = "2026/01/05 09:07:30" := by decide

end Timestamp

inductive LogLevel where
  | info
  | error
  | fatal
  | debug
  deriving DecidableEq, Repr

/-- The value of the enumerator. -/
def LogLevel.toInt : LogLevel → Int
  | .info => 0
  | .error => 1
  | .fatal => 2
  | .debug => 3

/-- The compiler flags `QPSTESTON` and `DEBUGON`, which leave macros empty. -/
structure Build where
  qpsTestOn : Bool
  debugOn : Bool
  deriving DecidableEq, Repr

namespace Build

/-- The flags of `CMakeLists.txt`. -/
def cmake : Build := ⟨true, false⟩

/-- The macro of this level is not empty. -/
def defines (build : Build) : LogLevel → Bool
  | .info => !build.qpsTestOn
  | .error | .fatal => true
  | .debug => build.debugOn

end Build

/-- Its static instance starts with a zero. -/
structure Logger where
  loglevel : Int
  deriving DecidableEq, Repr

namespace Logger

def setloglevel (level : Int) (logger : Logger) : Logger := { logger with loglevel := level }

def levelStr (logger : Logger) : String :=
  if logger.loglevel = LogLevel.info.toInt then "[INFO]"
  else if logger.loglevel = LogLevel.error.toInt then "[ERROR]"
  else if logger.loglevel = LogLevel.fatal.toInt then "[FATAL]"
  else if logger.loglevel = LogLevel.debug.toInt then "[DEBUG]"
  else ""

/-- The line that `log` passes to `g_output`. -/
def log (now : Tm) (msg : String) (logger : Logger) : String :=
  logger.levelStr ++ " " ++ Timestamp.toString now ++ " : " ++ msg

end Logger

/-- Where a thread stands in a macro. -/
inductive MacroPoint where
  | outside
  /-- after `setloglevel` -/
  | leveled (level : LogLevel)
  /-- in `exit(-1)`, from which it does not return -/
  | exiting
  deriving DecidableEq, Repr

/-- A line passed to `g_output`, and the macro whose message it contains. -/
structure Line where
  thread : ThreadId
  level : LogLevel
  buf : String
  text : String
  deriving DecidableEq, Repr

/-- The threads of a process and their logger. -/
structure Logging where
  logger : Logger
  point : ThreadId → MacroPoint
  output : List Line
  /-- the calls of `setloglevel`, the latest one first -/
  calls : List (ThreadId × LogLevel)

namespace Logging

def create : Logging where
  logger := ⟨0⟩
  point := fun _ => .outside
  output := []
  calls := []

inductive Action where
  /-- the thread enters the macro of this level, which calls `setloglevel` -/
  | setloglevel (thread : ThreadId) (level : LogLevel)
  /-- the arguments of the macro print this message, and the macro calls `log` -/
  | log (thread : ThreadId) (message : String) (now : Tm)
  deriving DecidableEq, Repr

/-- `LOG_FATAL` ends with `exit(-1)`. -/
def afterLog : LogLevel → MacroPoint
  | .fatal => .exiting
  | _ => .outside

def step (build : Build) (s : Logging) : Action → Except Stop Logging
  | .setloglevel thread level =>
      if s.point thread = .outside ∧ build.defines level then
        .ok { s with
          logger := s.logger.setloglevel level.toInt
          point := Function.update s.point thread (.leveled level)
          calls := (thread, level) :: s.calls }
      else .error .disabled
  | .log thread message now =>
      match s.point thread with
      | .leveled level =>
          let buf := snprintf 1024 message
          .ok { s with
            point := Function.update s.point thread (afterLog level)
            output := s.output ++ [⟨thread, level, buf, s.logger.log now buf⟩] }
      | _ => .error .disabled

end Logging

end Muduo
