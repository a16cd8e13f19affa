import Muduo.AsyncLogging.Complete

/-! # Whole lines

A buffer holds whole lines and one `fwrite` writes a whole buffer. So the stream ends at the end
of a line in every state of a run: what a run that ends before `stop()` has not written yet is
whole lines, the last ones.
-/

open Transition

namespace Muduo

namespace AsyncLogging

variable {s next : AsyncLogging} {action : Action}

/-- The buffers on the way to the file, the next one first. -/
def queue (s : AsyncLogging) : List BufferPtr :=
  s.backend.unwritten ++ s.buffers ++ [s.currentBuffer]

/-- The file holds the lines `written`, and the buffers on the way to it one block of lines
each. -/
structure Blocks (s : AsyncLogging) (written : List (List UInt8))
    (blocks : List (List (List UInt8))) : Prop where
  file : s.file = written.flatten
  queued : s.queue.map BufferPtr.bytes = blocks.map List.flatten
  lines : written ++ blocks.flatten = s.appended

variable {written : List (List UInt8)} {blocks : List (List (List UInt8))}

theorem create_blocks : create.Blocks [] [[]] := ⟨rfl, rfl, rfl⟩

theorem Blocks.of_same (hs : s.Blocks written blocks) (hfile : next.file = s.file)
    (hqueue : next.queue = s.queue) (happended : next.appended = s.appended) :
    next.Blocks written blocks := by
  refine ⟨?_, ?_, ?_⟩
  · rw [hfile, hs.file]
  · rw [hqueue, hs.queued]
  · rw [happended, hs.lines]

/-- An empty buffer joins the end. -/
theorem Blocks.concat (hs : s.Blocks written blocks) {p : BufferPtr} (hempty : p.bytes = [])
    (hfile : next.file = s.file) (hqueue : next.queue = s.queue ++ [p])
    (happended : next.appended = s.appended) : next.Blocks written (blocks ++ [[]]) := by
  refine ⟨?_, ?_, ?_⟩
  · rw [hfile, hs.file]
  · rw [hqueue, List.map_append, hs.queued, List.map_append, List.map_singleton, hempty]
    rfl
  · rw [happended, ← hs.lines, List.flatten_append]
    simp

/-! ## Producers -/

/-- A line becomes the last one of the last block. -/
theorem Blocks.extend (hs : s.Blocks written blocks) {first : List BufferPtr} {p q : BufferPtr}
    {logline : List UInt8} (hbefore : s.queue = first ++ [p]) (hafter : next.queue = first ++ [q])
    (hbytes : q.bytes = p.bytes ++ logline) (hfile : next.file = s.file)
    (happended : next.appended = s.appended ++ [logline]) :
    ∃ after, next.Blocks written after := by
  have hqueue := hs.queued
  rw [hbefore, List.map_append, List.map_singleton] at hqueue
  obtain ⟨init, last, rfl, hinit, hlast⟩ := List.append_eq_map_iff.mp hqueue
  obtain ⟨block, rest, rfl, hblock, hrest⟩ := List.map_eq_cons_iff.mp hlast
  obtain rfl := List.map_eq_nil_iff.mp hrest
  refine ⟨init ++ [block ++ [logline]], ?_, ?_, ?_⟩
  · rw [hfile, hs.file]
  · rw [hafter, List.map_append, List.map_append, hinit, List.map_singleton, hbytes, ← hblock]
    simp
  · rw [happended, ← hs.lines]
    simp

/-- A line begins a block of its own in a fresh buffer. -/
theorem Blocks.begin (hs : s.Blocks written blocks) {p : BufferPtr} {logline : List UInt8}
    (hafter : next.queue = s.queue ++ [p]) (hbytes : p.bytes = logline)
    (hfile : next.file = s.file) (happended : next.appended = s.appended ++ [logline]) :
    next.Blocks written (blocks ++ [[logline]]) := by
  refine ⟨?_, ?_, ?_⟩
  · rw [hfile, hs.file]
  · rw [hafter, List.map_append, hs.queued, List.map_append, List.map_singleton, hbytes]
    simp
  · rw [happended, ← hs.lines, List.flatten_append]
    simp

theorem Blocks.append (hs : s.Blocks written blocks) (hlogs : s.Logs) {logline : List UInt8}
    (hshort : logline.length < FixedBuffer.kBufferSize) (happend : s.append logline = .ok next) :
    ∃ after, next.Blocks written after := by
  obtain ⟨current, hcurrent, ⟨hroom, rfl⟩ | ⟨nextBuffer, hnext, rfl⟩ | ⟨-, rfl⟩⟩ :=
    append_cases happend
  · have hbefore : s.queue = s.backend.unwritten ++ s.buffers ++ [some current] := by
      rw [queue, hcurrent]
    exact hs.extend hbefore rfl (FixedBuffer.append_data hroom) rfl rfl
  · have hdata : nextBuffer.data = [] := by
      rcases hlogs.spare with hnone | ⟨found, hfound, hdata⟩
      · rw [hnone] at hnext
        cases hnext
      · rw [hfound, Option.some.injEq] at hnext
        exact hnext ▸ hdata
    refine ⟨_, hs.begin (p := some (nextBuffer.append logline)) ?_
      (FixedBuffer.append_empty hdata hshort) rfl rfl⟩
    simp [queue]
  · refine ⟨_, hs.begin (p := some ((FixedBuffer.create s.allocated).append logline)) ?_
      (FixedBuffer.append_empty rfl hshort) rfl rfl⟩
    simp [queue]

/-! ## The backend thread -/

/-- The critical section of the loop adds an empty buffer to what is on the way. -/
theorem Blocks.exchange (hs : s.Blocks written blocks) (hready : s.backend.Ready) :
    s.exchange.Blocks written (blocks ++ [[]]) := by
  refine hs.concat (p := s.backend.buffer1) hready.buffer1.bytes ?_ ?_ ?_
  · rcases exchange_cases s with ⟨-, hexchange⟩ | ⟨-, hexchange⟩ <;> rw [hexchange]
  · rcases exchange_cases s with ⟨-, hexchange⟩ | ⟨-, hexchange⟩ <;>
      simp [hexchange, queue, hready.buffersToWrite, Backend.unwritten]
  · rcases exchange_cases s with ⟨-, hexchange⟩ | ⟨-, hexchange⟩ <;> rw [hexchange]

theorem Blocks.finalFlush (hs : s.Blocks written blocks) (hready : s.backend.Ready) :
    ∃ after, s.finalFlush.Blocks written after := by
  rcases finalFlush_cases s with ⟨current, hcurrent, -, hflush⟩ | ⟨-, hflush⟩ <;> rw [hflush]
  · refine ⟨_, hs.concat (p := none) rfl rfl ?_ rfl⟩
    simp [queue, hready.buffersToWrite, Backend.unwritten]
  · refine ⟨_, hs.of_same rfl ?_ rfl⟩
    simp [queue, hready.buffersToWrite, Backend.unwritten]

/-- A write moves the lines of one block into the file. -/
theorem Blocks.fwrite (hs : s.Blocks written blocks) (hwrite : s.fwrite = .ok next) :
    ∃ block rest, blocks = block :: rest ∧ next.Blocks (written ++ block) rest := by
  obtain ⟨buffer, hget, rfl⟩ := fwrite_cases hwrite
  have hcons : s.backend.unwritten =
      some buffer :: s.backend.buffersToWrite.drop (s.backend.written + 1) := by
    obtain ⟨hlt, hentry⟩ := List.getElem?_eq_some_iff.mp hget
    rw [Backend.unwritten, List.drop_eq_getElem_cons hlt, hentry]
  have hqueue := hs.queued
  rw [queue, hcons, List.cons_append, List.cons_append, List.map_cons] at hqueue
  obtain ⟨block, rest, rfl, hblock, hrest⟩ := List.map_eq_cons_iff.mp hqueue.symm
  refine ⟨block, rest, rfl, ?_, hrest.symm, ?_⟩
  · rw [List.flatten_append, hblock, ← hs.file]
    rfl
  · rw [← hs.lines, List.flatten_cons, List.append_assoc]

theorem Blocks.backendStep (hs : s.Blocks written blocks) (hlogs : s.Logs) {success : Bool}
    (hstep : s.backendStep success = .ok next) : ∃ written blocks, next.Blocks written blocks := by
  have hlaw := hlogs.backend
  unfold Backend.Law at hlaw
  cases backendStep_cases.mp hstep with
  | fopen _ hopen =>
      obtain rfl := fopen_cases hopen
      exact ⟨_, _, hs.of_same rfl rfl rfl⟩
  | test | written | flushed => exact ⟨_, _, hs.of_same rfl rfl rfl⟩
  | exchange hpoint =>
      rw [hpoint] at hlaw
      exact ⟨_, _, hs.exchange hlaw⟩
  | fwrite _ _ hwrite =>
      obtain ⟨block, rest, -, hblocks⟩ := hs.fwrite hwrite
      exact ⟨_, _, hblocks⟩
  | refill hpoint hrefill =>
      rw [hpoint] at hlaw
      obtain ⟨buffer1, buffer2, rest, last, -, -, rfl⟩ := refill_cases hrefill
      have hwritten : s.backend.unwritten = [] := by
        rw [Backend.unwritten, hlaw.2, List.drop_length]
      refine ⟨_, _, hs.of_same rfl ?_ rfl⟩
      rw [queue, queue, hwritten]
      rfl
  | finalFlush hpoint =>
      rw [hpoint] at hlaw
      obtain ⟨after, hblocks⟩ := hs.finalFlush hlaw
      exact ⟨_, _, hblocks⟩

/-! ## Runs -/

theorem step_blocks (s : AsyncLogging) (action : Action) (next : AsyncLogging)
    (hs : s.Logs ∧ ∃ written blocks, s.Blocks written blocks) (hproper : s.Proper action)
    (hstep : s.step action = .ok next) :
    next.Logs ∧ ∃ written blocks, next.Blocks written blocks := by
  obtain ⟨hlogs, written, blocks, hs⟩ := hs
  refine ⟨(step_ok hlogs hproper).2 next hstep, ?_⟩
  cases action with
  | append logline =>
      obtain ⟨after, hblocks⟩ := hs.append hlogs hproper.1 hstep
      exact ⟨_, _, hblocks⟩
  | start =>
      simp only [step, start] at hstep
      split at hstep
      next => cases hstep
      next =>
        obtain rfl := Except.ok.inj hstep
        have hlaw := hlogs.backend
        have hpoint : s.backend.point = .notStarted := hproper
        rw [Backend.Law, hpoint] at hlaw
        refine ⟨_, _, hs.of_same rfl ?_ rfl⟩
        rw [queue, queue, Backend.unwritten, Backend.unwritten, hlaw.1, List.drop_nil,
          List.drop_nil]
  | stop =>
      obtain rfl := Except.ok.inj hstep
      exact ⟨_, _, hs.of_same rfl rfl rfl⟩
  | join =>
      obtain ⟨-, hstep⟩ := Except.guard_eq_ok.mp hstep
      obtain rfl := Except.ok.inj hstep
      exact ⟨_, _, hs.of_same rfl rfl rfl⟩
  | backend success => exact hs.backendStep hlogs hstep

/-- **No torn lines.** In every state of a proper run `fwrite` has been given the first lines that
were appended, each of them whole. -/
theorem whole_lines {schedule : List Action} (hproper : EveryStep step Proper create schedule)
    (hrun : run step create schedule = .ok s) :
    ∃ count, s.file = (s.appended.take count).flatten := by
  obtain ⟨-, written, blocks, hs⟩ := run_invariant_of_everyStep step_blocks
    ⟨create_logs, [], [[]], create_blocks⟩ hproper hrun
  refine ⟨written.length, ?_⟩
  rw [hs.file, ← hs.lines, List.take_left]

/-- The first round of the loop writes one line; the second one is still buffered. -/
def logTwice : List Action :=
  [.start, .append [104, 10], .backend true, .backend true, .backend true, .backend true,
    .append [105, 10]]

theorem whole_lines_logTwice : ∃ s, run step create logTwice = .ok s ∧ s.file = [104, 10] ∧
    ∃ count, s.file = (List.take count [[104, 10], [105, 10]]).flatten := by
  have hproper : EveryStep step Proper create logTwice := by
    decide +kernel
  have hends : ends (fun s => decide (s.file = [104, 10] ∧
      s.appended = [[104, 10], [105, 10]])) (run step create logTwice) = true := by
    decide +kernel
  obtain ⟨s, hrun, hcheck⟩ := exists_of_ends hends
  obtain ⟨hfile, happended⟩ := of_decide_eq_true hcheck
  obtain ⟨count, hwhole⟩ := whole_lines hproper hrun
  rw [happended] at hwhole
  exact ⟨s, hrun, hfile, count, hwhole⟩

end AsyncLogging

end Muduo
