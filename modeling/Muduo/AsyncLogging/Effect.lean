import Muduo.AsyncLogging.Basic

/-! # What the critical sections do with the buffers

Every operation of the logger moves buffers between the producers and the backend thread.
One lemma for each operation lists the ways in which it can do so.
-/

namespace Muduo

namespace AsyncLogging

variable {s next : AsyncLogging} {logline : List UInt8}

/-- A buffer that is owned joins owned ones. -/
theorem owned_concat {buffers : List BufferPtr} {p : BufferPtr}
    (howned : ∀ q ∈ buffers, q.isSome) (hsome : p.isSome) : ∀ q ∈ buffers ++ [p], q.isSome := by
  intro q hmem
  rcases List.mem_append.mp hmem with hold | hnew
  · exact howned q hold
  · exact List.mem_singleton.mp hnew ▸ hsome

/-! ## Producers -/

/-- `append` finds a buffer, which takes the line or is full. A full buffer is replaced by
the next one, or by a new one. -/
theorem append_cases (happend : s.append logline = .ok next) :
    ∃ current, s.currentBuffer = some current ∧
      (current.avail > logline.length ∧ next = { s with
          currentBuffer := some (current.append logline)
          appended := s.appended ++ [logline] } ∨
        (∃ nextBuffer, s.nextBuffer = some nextBuffer ∧ next = { s with
          currentBuffer := some (nextBuffer.append logline)
          nextBuffer := none
          buffers := s.buffers ++ [s.currentBuffer]
          appended := s.appended ++ [logline] }) ∨
        s.nextBuffer = none ∧ next = { s with
          currentBuffer := some ((FixedBuffer.create s.allocated).append logline)
          buffers := s.buffers ++ [s.currentBuffer]
          allocated := s.allocated + 1
          appended := s.appended ++ [logline] }) := by
  unfold append at happend
  obtain ⟨current, hcurrent, happend⟩ := Except.bind_eq_ok.mp happend
  cases hbuffer : s.currentBuffer with
  | none =>
      rw [hbuffer] at hcurrent
      cases hcurrent
  | some found =>
      rw [hbuffer] at hcurrent
      obtain rfl := Except.ok.inj hcurrent
      refine ⟨found, rfl, ?_⟩
      simp only at happend
      split at happend
      next hroom => exact Or.inl ⟨hroom, (Except.ok.inj happend).symm⟩
      next =>
        split at happend
        next nextBuffer hnext =>
          refine Or.inr (Or.inl ⟨nextBuffer, hnext, ?_⟩)
          rw [← hbuffer]
          exact (Except.ok.inj happend).symm
        next hnext =>
          refine Or.inr (Or.inr ⟨hnext, ?_⟩)
          rw [← hbuffer]
          exact (Except.ok.inj happend).symm

/-- `append` uses no null buffer but a missing `currentBuffer_`. -/
theorem append_defined_iff :
    s.append logline ≠ .error .undefined ↔ s.currentBuffer.isSome := by
  unfold append
  cases s.currentBuffer with
  | none => simp [BufferPtr.deref, bind, Except.bind]
  | some current =>
      refine iff_of_true ?_ rfl
      simp only [BufferPtr.deref, bind, Except.bind]
      split
      · rintro ⟨⟩
      · cases s.nextBuffer <;> rintro ⟨⟩

/-! ## The backend thread -/

/-- The thread ends the process or starts with two new buffers. -/
theorem fopen_cases {success : Bool} (hopen : s.fopen success = .ok next) : next = { s with
    allocated := s.allocated + 2
    backend := { s.backend with
      point := .test
      buffer1 := some (.create s.allocated)
      buffer2 := some (.create (s.allocated + 1)) } } := by
  obtain ⟨-, hopen⟩ := Except.guard_eq_ok.mp hopen
  exact (Except.ok.inj hopen).symm

/-- The loop replaces `currentBuffer_` by `buffer1`, and a missing `nextBuffer_` by
`buffer2`. -/
theorem exchange_cases (s : AsyncLogging) :
    s.nextBuffer = none ∧ s.exchange = { s with
        currentBuffer := s.backend.buffer1
        nextBuffer := s.backend.buffer2
        buffers := s.backend.buffersToWrite
        backend := ⟨.writing, none, none, s.buffers ++ [s.currentBuffer], 0⟩ } ∨
      s.nextBuffer ≠ none ∧ s.exchange = { s with
        currentBuffer := s.backend.buffer1
        buffers := s.backend.buffersToWrite
        backend := ⟨.writing, none, s.backend.buffer2, s.buffers ++ [s.currentBuffer], 0⟩ } := by
  unfold exchange
  cases hnext : s.nextBuffer with
  | none => exact Or.inl ⟨rfl, rfl⟩
  | some nextBuffer => exact Or.inr ⟨nofun, rfl⟩

/-- A write needs a buffer. -/
theorem fwrite_cases (hwrite : s.fwrite = .ok next) :
    ∃ buffer, s.backend.buffersToWrite[s.backend.written]? = some (some buffer) ∧
      next = { s with
        file := s.file ++ buffer.data
        backend := { s.backend with written := s.backend.written + 1 } } := by
  unfold fwrite at hwrite
  split at hwrite
  next p hget =>
    obtain ⟨buffer, hderef, hwrite⟩ := Except.bind_eq_ok.mp hwrite
    cases p with
    | none => cases hderef
    | some found =>
        obtain rfl := Except.ok.inj hderef
        exact ⟨found, hget, (Except.ok.inj hwrite).symm⟩
  next => cases hwrite

/-- A spare buffer stays, or it is replaced by the last written one. -/
theorem takeBack_cases {spare p : BufferPtr} {buffersToWrite rest : List BufferPtr}
    (htake : takeBack spare buffersToWrite = .ok (p, rest)) :
    (∃ buffer, spare = some buffer ∧ p = some buffer ∧ rest = buffersToWrite) ∨
      ∃ buffer, spare = none ∧ p = some buffer.reset ∧
        buffersToWrite = rest ++ [some buffer] := by
  unfold takeBack at htake
  split at htake
  next buffer =>
    obtain ⟨hp, hrest⟩ := Prod.mk.inj (Except.ok.inj htake)
    exact Or.inl ⟨buffer, rfl, hp.symm, hrest.symm⟩
  next =>
    split at htake
    next last hlast =>
      obtain ⟨buffer, hderef, htake⟩ := Except.bind_eq_ok.mp htake
      obtain ⟨hp, hrest⟩ := Prod.mk.inj (Except.ok.inj htake)
      cases last with
      | none => cases hderef
      | some found =>
          obtain rfl := Except.ok.inj hderef
          refine Or.inr ⟨found, rfl, hp.symm, ?_⟩
          rw [← hrest, List.dropLast_append_getLast? _ hlast]
    next => cases htake

/-- The buffers that `resize(2)` leaves. -/
def kept (buffersToWrite : List BufferPtr) : List BufferPtr :=
  if buffersToWrite.length > 2 then buffersToWrite.take 2 else buffersToWrite

theorem refill_cases (hrefill : s.refill = .ok next) :
    ∃ buffer1 buffer2 rest last,
      takeBack s.backend.buffer1 (kept s.backend.buffersToWrite) = .ok (buffer1, rest) ∧
      takeBack s.backend.buffer2 rest = .ok (buffer2, last) ∧
      next = { s with backend := ⟨.test, buffer1, buffer2, [], 0⟩ } := by
  unfold refill at hrefill
  obtain ⟨⟨buffer1, rest⟩, hfirst, hrefill⟩ := Except.bind_eq_ok.mp hrefill
  obtain ⟨⟨buffer2, last⟩, hsecond, hrefill⟩ := Except.bind_eq_ok.mp hrefill
  exact ⟨buffer1, buffer2, rest, last, hfirst, hsecond, (Except.ok.inj hrefill).symm⟩

/-- The final flush moves `currentBuffer_` out when it holds a line, and puts no other
buffer in its place. -/
theorem finalFlush_cases (s : AsyncLogging) :
    (∃ current, s.currentBuffer = some current ∧ current.length > 0 ∧ s.finalFlush = { s with
        currentBuffer := none
        buffers := s.backend.buffersToWrite
        backend := { s.backend with
          point := .finalWriting
          buffersToWrite := s.buffers ++ [s.currentBuffer]
          written := 0 } }) ∨
      (∀ current, s.currentBuffer = some current → current.length = 0) ∧ s.finalFlush = { s with
        buffers := s.backend.buffersToWrite
        backend := { s.backend with
          point := .finalWriting
          buffersToWrite := s.buffers
          written := 0 } } := by
  unfold finalFlush
  cases hcurrent : s.currentBuffer with
  | none => exact Or.inr ⟨nofun, by simp only [hcurrent]⟩
  | some current =>
      by_cases hlines : current.length > 0
      · refine Or.inl ⟨current, rfl, hlines, ?_⟩
        simp only [hlines, if_true]
      · refine Or.inr ⟨?_, ?_⟩
        · rintro _ ⟨⟩
          exact Nat.eq_zero_of_not_pos hlines
        · simp only [hlines, if_false, hcurrent]

/-- What the backend thread does at each point. -/
inductive BackendMove (success : Bool) (s : AsyncLogging) : AsyncLogging → Prop where
  | fopen {next : AsyncLogging} (hpoint : s.backend.point = .opening)
      (hopen : s.fopen success = .ok next) : BackendMove success s next
  | test (hpoint : s.backend.point = .test) :
      BackendMove success s (s.goTo (if s.running then .critical else .finalFlush))
  | exchange (hpoint : s.backend.point = .critical) : BackendMove success s s.exchange
  | fwrite {next : AsyncLogging}
      (hpoint : s.backend.point = .writing ∨ s.backend.point = .finalWriting)
      (hmore : s.backend.written < s.backend.buffersToWrite.length)
      (hwrite : s.fwrite = .ok next) : BackendMove success s next
  | written (hpoint : s.backend.point = .writing)
      (hall : ¬ s.backend.written < s.backend.buffersToWrite.length) :
      BackendMove success s (s.goTo .refill)
  | refill {next : AsyncLogging} (hpoint : s.backend.point = .refill)
      (hrefill : s.refill = .ok next) : BackendMove success s next
  | finalFlush (hpoint : s.backend.point = .finalFlush) : BackendMove success s s.finalFlush
  | flushed (hpoint : s.backend.point = .finalWriting)
      (hall : ¬ s.backend.written < s.backend.buffersToWrite.length) :
      BackendMove success s (s.goTo .done)

theorem backendStep_cases {success : Bool} :
    s.backendStep success = .ok next ↔ s.BackendMove success next := by
  constructor
  · intro hstep
    unfold backendStep at hstep
    cases hpoint : s.backend.point with
    | notStarted | done =>
        rw [hpoint] at hstep
        cases hstep
    | opening =>
        rw [hpoint] at hstep
        exact .fopen hpoint hstep
    | test =>
        rw [hpoint] at hstep
        obtain rfl := Except.ok.inj hstep
        exact .test hpoint
    | critical =>
        rw [hpoint] at hstep
        obtain rfl := Except.ok.inj hstep
        exact .exchange hpoint
    | writing =>
        rw [hpoint] at hstep
        simp only at hstep
        split at hstep
        next hmore => exact .fwrite (Or.inl hpoint) hmore hstep
        next hall =>
          obtain rfl := Except.ok.inj hstep
          exact .written hpoint hall
    | refill =>
        rw [hpoint] at hstep
        exact .refill hpoint hstep
    | finalFlush =>
        rw [hpoint] at hstep
        obtain rfl := Except.ok.inj hstep
        exact .finalFlush hpoint
    | finalWriting =>
        rw [hpoint] at hstep
        simp only at hstep
        split at hstep
        next hmore => exact .fwrite (Or.inr hpoint) hmore hstep
        next hall =>
          obtain rfl := Except.ok.inj hstep
          exact .flushed hpoint hall
  · intro hmove
    unfold backendStep
    cases hmove with
    | fopen hpoint hopen =>
        rw [hpoint]
        exact hopen
    | test hpoint | exchange hpoint | finalFlush hpoint => rw [hpoint]
    | fwrite hpoint hmore hwrite =>
        rcases hpoint with hpoint | hpoint <;> rw [hpoint] <;> exact (if_pos hmore).trans hwrite
    | written hpoint hall | flushed hpoint hall =>
        rw [hpoint]
        exact if_neg hall
    | refill hpoint hrefill =>
        rw [hpoint]
        exact hrefill

end AsyncLogging

end Muduo
