import Muduo.Platform

/-! # Asynchronous logging

`FixedBuffer` and `AsyncLogging` of `AsyncLogging.h` and `AsyncLogging.cc`.
Producers append lines under the mutex; the backend thread takes the filled
buffers over in its critical section and writes them outside of it. A
`std::unique_ptr<Buffer>` is a buffer or null, and buffers are told apart by the
order of their allocation. A critical section, a test of `running_` and an
`fwrite` are one step each. The file is the stream that `fwrite` is given: its
buffer and `fflush` are not modelled.
-/

namespace Muduo

namespace FixedBuffer

def kBufferSize : Nat := 4 * 1024 * 1024

end FixedBuffer

/-- The bytes between `data_` and `cur_`. -/
structure FixedBuffer where
  id : Nat
  data : List UInt8
  fits : data.length ≤ FixedBuffer.kBufferSize
  deriving DecidableEq, Repr

namespace FixedBuffer

def create (id : Nat) : FixedBuffer := ⟨id, [], Nat.zero_le _⟩

def length (b : FixedBuffer) : Nat := b.data.length

def avail (b : FixedBuffer) : Nat := kBufferSize - b.length

/-- A line that does not fit is dropped. -/
def append (b : FixedBuffer) (buf : List UInt8) : FixedBuffer :=
  if hroom : b.avail > buf.length then
    ⟨b.id, b.data ++ buf, by
      unfold avail length at hroom
      rw [List.length_append]
      omega⟩
  else b

def reset (b : FixedBuffer) : FixedBuffer := { b with data := [], fits := Nat.zero_le _ }

end FixedBuffer

abbrev BufferPtr := Option FixedBuffer

namespace BufferPtr

/-- The use of a pointer that may be null. -/
def deref (p : BufferPtr) : Except Stop FixedBuffer :=
  match p with
  | some b => .ok b
  | none => .error .undefined

/-- The bytes a pointer owns. -/
def bytes (p : BufferPtr) : List UInt8 :=
  match p with
  | some b => b.data
  | none => []

end BufferPtr

/-- Where the backend thread stands in `threadFunc`. -/
inductive BackendPoint where
  | notStarted
  /-- before `fopen` -/
  | opening
  /-- before `while (running_)` -/
  | test
  /-- before the critical section of the loop, waiting included -/
  | critical
  | writing
  /-- before `buffersToWrite` is cut down and the spare buffers are refilled -/
  | refill
  /-- before the critical section of the final flush -/
  | finalFlush
  | finalWriting
  /-- `threadFunc` has returned -/
  | done
  deriving DecidableEq, Repr

/-- The backend thread with the locals of `threadFunc`. -/
structure Backend where
  point : BackendPoint
  buffer1 : BufferPtr
  buffer2 : BufferPtr
  buffersToWrite : List BufferPtr
  /-- how many of `buffersToWrite` the write loop has written -/
  written : Nat
  deriving DecidableEq, Repr

structure AsyncLogging where
  running : Bool
  /-- `thread_` is joinable -/
  joinable : Bool
  currentBuffer : BufferPtr
  nextBuffer : BufferPtr
  buffers : List BufferPtr
  backend : Backend
  /-- everything given to `fwrite` so far -/
  file : List UInt8
  /-- the number of buffers allocated so far -/
  allocated : Nat
  /-- the appended lines in the order of their critical sections -/
  appended : List (List UInt8)
  /-- `stop()` has been called -/
  stopping : Bool
  /-- the last call of `stop()` has returned -/
  stopped : Bool
  deriving DecidableEq, Repr

namespace AsyncLogging

/-- The constructor. -/
def create : AsyncLogging where
  running := false
  joinable := false
  currentBuffer := some (.create 0)
  nextBuffer := some (.create 1)
  buffers := []
  backend := ⟨.notStarted, none, none, [], 0⟩
  file := []
  allocated := 2
  appended := []
  stopping := false
  stopped := false

/-- The critical section of `append`. -/
def append (logline : List UInt8) (s : AsyncLogging) : Except Stop AsyncLogging := do
  let currentBuffer ← s.currentBuffer.deref
  let s := { s with appended := s.appended ++ [logline] }
  if currentBuffer.avail > logline.length then
    return { s with currentBuffer := some (currentBuffer.append logline) }
  else
    let s := { s with buffers := s.buffers ++ [s.currentBuffer] }
    match s.nextBuffer with
    | some nextBuffer =>
        return { s with currentBuffer := some (nextBuffer.append logline), nextBuffer := none }
    | none =>
        let fresh := FixedBuffer.create s.allocated
        return { s with
          currentBuffer := some (fresh.append logline), allocated := s.allocated + 1 }

/-- Assigning a thread to a joinable `thread_` terminates the process. -/
def start (s : AsyncLogging) : Except Stop AsyncLogging :=
  if s.joinable then .error .exited
  else .ok { s with
    running := true
    joinable := true
    backend := ⟨.opening, none, none, [], 0⟩ }

/-- `stop` up to `join`, which returns at once when there is nothing to join. -/
def stop (s : AsyncLogging) : AsyncLogging :=
  { s with running := false, stopping := true, stopped := !s.joinable }

/-- `join` returns when the backend thread is done. -/
def join (s : AsyncLogging) : Except Stop AsyncLogging :=
  if s.stopping && s.joinable && s.backend.point = .done then
    .ok { s with joinable := false, stopped := true }
  else .error .disabled

/-! ## The backend thread -/

/-- The two first buffers and `fopen`. -/
def fopen (success : Bool) (s : AsyncLogging) : Except Stop AsyncLogging :=
  if success then .ok { s with
    allocated := s.allocated + 2
    backend := { s.backend with
      point := .test
      buffer1 := some (.create s.allocated)
      buffer2 := some (.create (s.allocated + 1)) } }
  else .error .exited

/-- The critical section of the loop: it moves `currentBuffer_` into `buffers_`
whatever woke it up. -/
def exchange (s : AsyncLogging) : AsyncLogging :=
  let buffers := s.buffers ++ [s.currentBuffer]
  let s := { s with currentBuffer := s.backend.buffer1 }
  let (nextBuffer, buffer2) :=
    if s.nextBuffer.isNone then (s.backend.buffer2, none) else (s.nextBuffer, s.backend.buffer2)
  { s with
    nextBuffer
    buffers := s.backend.buffersToWrite
    backend := ⟨.writing, none, buffer2, buffers, 0⟩ }

/-- One `fwrite` of a write loop. -/
def fwrite (s : AsyncLogging) : Except Stop AsyncLogging :=
  match s.backend.buffersToWrite[s.backend.written]? with
  | some p => do
      let buffer ← BufferPtr.deref p
      return { s with
        file := s.file ++ buffer.data
        backend := { s.backend with written := s.backend.written + 1 } }
  | none => .error .disabled

/-- A null spare buffer takes the last of `buffersToWrite`, emptied. -/
def takeBack (spare : BufferPtr) (buffersToWrite : List BufferPtr) :
    Except Stop (BufferPtr × List BufferPtr) :=
  match spare with
  | some _ => .ok (spare, buffersToWrite)
  | none =>
      match buffersToWrite.getLast? with
      | some p => do
          let buffer ← BufferPtr.deref p
          return (some buffer.reset, buffersToWrite.dropLast)
      | none => .error .undefined

/-- `resize(2)` of a longer `buffersToWrite`, and the two spare buffers. -/
def refill (s : AsyncLogging) : Except Stop AsyncLogging := do
  let buffersToWrite := if s.backend.buffersToWrite.length > 2 then
    s.backend.buffersToWrite.take 2 else s.backend.buffersToWrite
  let (buffer1, buffersToWrite) ← takeBack s.backend.buffer1 buffersToWrite
  let (buffer2, _) ← takeBack s.backend.buffer2 buffersToWrite
  return { s with backend := ⟨.test, buffer1, buffer2, [], 0⟩ }

/-- The critical section of the final flush. -/
def finalFlush (s : AsyncLogging) : AsyncLogging :=
  let s := match s.currentBuffer with
    | some b => if b.length > 0 then
        { s with buffers := s.buffers ++ [s.currentBuffer], currentBuffer := none } else s
    | none => s
  { s with
    buffers := s.backend.buffersToWrite
    backend := { s.backend with
      point := .finalWriting
      buffersToWrite := s.buffers
      written := 0 } }

def goTo (point : BackendPoint) (s : AsyncLogging) : AsyncLogging :=
  { s with backend := { s.backend with point } }

/-- One step of the backend thread; `success` is the result of `fopen`. -/
def backendStep (success : Bool) (s : AsyncLogging) : Except Stop AsyncLogging :=
  match s.backend.point with
  | .notStarted | .done => .error .disabled
  | .opening => s.fopen success
  | .test => .ok (s.goTo (if s.running then .critical else .finalFlush))
  | .critical => .ok s.exchange
  | .writing =>
      if s.backend.written < s.backend.buffersToWrite.length then s.fwrite
      else .ok (s.goTo .refill)
  | .refill => s.refill
  | .finalFlush => .ok s.finalFlush
  | .finalWriting =>
      if s.backend.written < s.backend.buffersToWrite.length then s.fwrite
      else .ok (s.goTo .done)

inductive Action where
  | append (logline : List UInt8)
  | start
  | stop
  | join
  | backend (success : Bool)
  deriving DecidableEq, Repr

def step (s : AsyncLogging) : Action → Except Stop AsyncLogging
  | .append logline => s.append logline
  | .start => s.start
  | .stop => .ok s.stop
  | .join => s.join
  | .backend success => s.backendStep success

end AsyncLogging

end Muduo
