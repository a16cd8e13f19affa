import Muduo.Buffer.Spec
import Muduo.Library.Fifo

/-! # The buffer refines a first-in first-out byte queue

A session is a buffer under any sequence of its operations. The abstract session
runs the same operations on a queue with its history: received bytes enter at
the back and retrieved bytes leave at the front.
-/

namespace Muduo.Buffer

/-- The operations of `Buffer`, with the result of the system call where one is
made. -/
inductive Op where
  | append (data : List UInt8)
  | readFd (result : ReadResult)
  | retrieve (len : Nat)
  | retrieveAll
  | retrieveAllAsString
  | retrieveAsString (len : Nat)
  | ensureWritableBytes (len : Nat)
  deriving DecidableEq, Repr

namespace Op

/-- The operation on a buffer, with the string it returns. -/
def exec (b : Buffer) : Op → Except Stop (List UInt8 × Buffer)
  | .append data => do return ([], ← b.append data)
  | .readFd result => do return ([], ← b.readFd result)
  | .retrieve len => .ok ([], b.retrieve len)
  | .retrieveAll => .ok ([], b.retrieveAll)
  | .retrieveAllAsString => b.retrieveAllAsString
  | .retrieveAsString len => b.retrieveAsString len
  | .ensureWritableBytes len => do return ([], ← b.ensureWritableBytes len)

/-- No `size_t` sum of the operation overflows, `readv` fills no more than its
`iovec` entries, and a string is not longer than the readable bytes. -/
def Allowed (b : Buffer) : Op → Prop
  | .append data => data.length + kCheapPrepend < sizeMod ∧
      b.writerIndex + data.length < sizeMod
  | .readFd (.received bytes) => bytes.length ≤ b.iovecLength
  | .retrieveAsString len => len ≤ b.readableBytes
  | .ensureWritableBytes len => len + kCheapPrepend < sizeMod ∧ b.writerIndex + len < sizeMod
  | _ => True

instance (b : Buffer) (op : Op) : Decidable (op.Allowed b) := by
  unfold Allowed
  split <;> infer_instance

/-- The vector size up to which the operation may have to grow. -/
def demand (b : Buffer) : Op → Nat
  | .append data => b.writerIndex + data.length
  | .readFd (.received bytes) => b.buffer.length + (bytes.length - b.writableBytes)
  | .ensureWritableBytes len => b.writerIndex + len
  | _ => 0

/-- The bytes the operation brings in. -/
def arrives : Op → List UInt8
  | .append data => data
  | .readFd (.received bytes) => bytes
  | _ => []

/-- How many bytes the operation takes out of a queue with this content. -/
def departs (content : List UInt8) : Op → Nat
  | .retrieve len => len
  | .retrieveAsString len => len
  | .retrieveAll => content.length
  | .retrieveAllAsString => content.length
  | _ => 0

/-- The string the operation returns on a queue with this content. -/
def returns (content : List UInt8) : Op → List UInt8
  | .retrieveAsString len => content.take len
  | .retrieveAllAsString => content
  | _ => []

end Op

/-- A buffer and the strings its operations have returned. -/
structure Session where
  buffer : Buffer
  strings : List (List UInt8)
  deriving DecidableEq, Repr

namespace Session

def step (s : Session) (op : Op) : Except Stop Session :=
  if op.Allowed s.buffer then do
    let (string, buffer) ← op.exec s.buffer
    return ⟨buffer, s.strings ++ [string]⟩
  else .error .disabled

/-- The abstract session: a byte queue with its history. -/
structure Spec where
  queue : Fifo.History UInt8
  strings : List (List UInt8)

def Spec.initial : Spec := ⟨Fifo.History.empty, []⟩

/-- The queue after an operation: what arrives enters, then what departs leaves. -/
def Spec.step (spec : Spec) (op : Op) : Except Stop Spec :=
  .ok ⟨(spec.queue.enter op.arrives).leave (op.departs spec.queue.content),
    spec.strings ++ [op.returns spec.queue.content]⟩

/-- The buffer holds exactly the content of the queue. -/
structure Related (s : Session) (spec : Spec) : Prop where
  valid : s.buffer.Valid
  content : s.buffer.readable = spec.queue.content
  strings : s.strings = spec.strings

end Session

/-- What one operation does to the readable bytes: what arrives is appended and
what departs is dropped, and the returned string is the dropped prefix. -/
structure Op.Effect (b : Buffer) (op : Op) (result : List UInt8 × Buffer) : Prop where
  valid : result.2.Valid
  content : result.2.readable = (b.readable ++ op.arrives).drop (op.departs b.readable)
  string : result.1 = op.returns b.readable

/-- An operation that keeps the content and returns nothing. -/
theorem Op.exec_of_reserves {b : Buffer} {op : Op} {result : Except Stop Buffer} {size : Nat}
    (hreserves : Reserves result size
      fun next => next.Valid ∧ next.readable = b.readable ++ op.arrives)
    (hexec : op.exec b = result >>= fun next => .ok ([], next))
    (hdeparts : op.departs b.readable = 0) (hreturns : op.returns b.readable = []) :
    (∃ returned, op.exec b = .ok returned ∧ op.Effect b returned) ∨
      (op.exec b = .error .thrown ∧ maxSize < size) := by
  rcases hreserves with ⟨next, hnext, hvalid, hreadable⟩ | ⟨hthrown, hmax⟩
  · refine Or.inl ⟨([], next), by rw [hexec, hnext]; rfl, hvalid, ?_, hreturns.symm⟩
    rw [hdeparts, List.drop_zero, hreadable]
  · exact Or.inr ⟨by rw [hexec, hthrown]; rfl, hmax⟩

/-- Every allowed operation returns with its effect, unless the vector would have
to exceed its maximal size. -/
theorem Op.exec_effect {b : Buffer} (hvalid : b.Valid) (op : Op) (hallowed : op.Allowed b) :
    (∃ returned, op.exec b = .ok returned ∧ op.Effect b returned) ∨
      (op.exec b = .error .thrown ∧ maxSize < op.demand b) := by
  cases op with
  | append data =>
      exact Op.exec_of_reserves (hvalid.append_reserves hallowed.1 hallowed.2) rfl rfl rfl
  | readFd result =>
      cases result with
      | received bytes => exact Op.exec_of_reserves (hvalid.readFd_reserves hallowed) rfl rfl rfl
      | failed savedErrno =>
          exact Or.inl ⟨([], b), rfl, hvalid, (List.append_nil _).symm, rfl⟩
  | retrieve len =>
      refine Or.inl ⟨([], b.retrieve len), rfl, hvalid.retrieve len, ?_, rfl⟩
      simp only [Op.arrives, Op.departs, List.append_nil]
      exact hvalid.readable_retrieve len
  | retrieveAll =>
      refine Or.inl ⟨([], b.retrieveAll), rfl, hvalid.retrieveAll, ?_, rfl⟩
      simp [Op.arrives, Op.departs, readable_retrieveAll]
  | retrieveAllAsString =>
      refine Or.inl ⟨_, hvalid.retrieveAllAsString_eq, hvalid.retrieveAll, ?_, rfl⟩
      simp [Op.arrives, Op.departs, readable_retrieveAll]
  | retrieveAsString len =>
      refine Or.inl ⟨_, hvalid.retrieveAsString_eq hallowed, hvalid.retrieve len, ?_, rfl⟩
      simp only [Op.arrives, Op.departs, List.append_nil]
      exact hvalid.readable_retrieve len
  | ensureWritableBytes len =>
      refine Op.exec_of_reserves ?_ rfl rfl rfl
      rcases hvalid.ensureWritableBytes_reserves hallowed.1 hallowed.2 with
        ⟨next, hnext, hroom, -⟩ | hthrown
      · exact Or.inl ⟨next, hnext, hroom.valid, hroom.same.trans (List.append_nil _).symm⟩
      · exact Or.inr hthrown

/-- A step of a session runs an allowed operation with its effect. -/
theorem Session.step_effect {s next : Session} {op : Op} (hvalid : s.buffer.Valid)
    (hstep : s.step op = .ok next) : op.Allowed s.buffer ∧ ∃ string,
      op.exec s.buffer = .ok (string, next.buffer) ∧
      op.Effect s.buffer (string, next.buffer) ∧ next.strings = s.strings ++ [string] := by
  unfold Session.step at hstep
  obtain ⟨hallowed, hstep⟩ := Except.guard_eq_ok.mp hstep
  obtain ⟨returned, hexec, hnext⟩ := Except.bind_eq_ok.mp hstep
  obtain rfl := Except.ok.inj hnext
  refine ⟨hallowed, returned.1, hexec, ?_, rfl⟩
  rcases Op.exec_effect hvalid op hallowed with ⟨other, hother, heffect⟩ | ⟨hthrown, -⟩
  · obtain rfl := Except.ok.inj (hother.symm.trans hexec)
    exact heffect
  · rw [hthrown] at hexec
    cases hexec

/-- Operations take out no more than there is, except `retrieve`, which then
takes out everything; the history records what really left. -/
theorem Session.simulates : Transition.Simulates Session.step Session.Spec.step Related := by
  intro s op next spec hrelated hstep
  obtain ⟨-, string, -, heffect, hstrings⟩ := Session.step_effect hrelated.valid hstep
  refine ⟨_, rfl, heffect.valid, ?_, ?_⟩
  · rw [Fifo.History.content_leave, Fifo.History.content_enter, ← hrelated.content]
    exact heffect.content
  · have hstring : string = op.returns s.buffer.readable := heffect.string
    rw [hstrings, hstring, hrelated.strings, hrelated.content]

/-- The entered bytes of the abstract session are the bytes its operations bring. -/
theorem Session.Spec.run_entered {ops : List Op} {spec final : Spec}
    (hrun : Transition.run Spec.step spec ops = .ok final) :
    final.queue.entered = spec.queue.entered ++ ops.flatMap Op.arrives := by
  induction ops generalizing spec with
  | nil =>
      simp only [Transition.run_nil, Except.ok.injEq] at hrun
      simp [hrun]
  | cons op rest ih =>
      obtain ⟨middle, hstep, hrest⟩ := Transition.run_cons_eq_ok.mp hrun
      simp only [Spec.step, Except.ok.injEq] at hstep
      rw [ih hrest, ← hstep]
      simp [List.append_assoc]

/-- **The buffer is a FIFO byte queue.** After any operations from construction
the indices are in order and inside the vector, the readable bytes are the bytes
that came in without the bytes that left, every returned string is the one the
queue returns, and every further operation completes with its effect: it never
leaves the vector, and it throws only when the vector would exceed its maximal
size. -/
theorem session_refines_fifo {initialSize : Nat} {start : Buffer}
    (hsum : kCheapPrepend + initialSize < sizeMod) (hcreate : create initialSize = .ok start)
    {ops : List Op} {s : Session} (hrun : Transition.run Session.step ⟨start, []⟩ ops = .ok s) :
    s.buffer.Valid ∧ s.buffer.writerIndex + s.buffer.writableBytes = s.buffer.buffer.length ∧
    (∃ spec, Transition.run Session.Spec.step Session.Spec.initial ops = .ok spec ∧
      spec.queue.entered = ops.flatMap Op.arrives ∧
      s.buffer.readable = spec.queue.entered.drop spec.queue.left.length ∧
      s.strings = spec.strings) ∧
    ∀ op : Op, op.Allowed s.buffer →
      (∃ returned, op.exec s.buffer = .ok returned ∧ op.Effect s.buffer returned) ∨
        (op.exec s.buffer = .error .thrown ∧ maxSize < op.demand s.buffer) := by
  obtain ⟨hvalid, hempty, -⟩ := create_ok hsum hcreate
  have hstart : Session.Related ⟨start, []⟩ Session.Spec.initial := ⟨hvalid, hempty, rfl⟩
  obtain ⟨spec, hspec, hrelated⟩ := Session.simulates.run hstart hrun
  have hinside := hrelated.valid.inside
  refine ⟨hrelated.valid, ?_, ⟨spec, hspec, ?_, hrelated.content, hrelated.strings⟩, ?_⟩
  · rw [hrelated.valid.writableBytes_eq]
    omega
  · simpa [Session.Spec.initial, Fifo.History.empty] using Session.Spec.run_entered hspec
  · exact fun op hallowed => Op.exec_effect hrelated.valid op hallowed

/-- A small buffer that is filled, read, compacted and enlarged. -/
theorem session_refines_fifo_small :
    ∃ s : Session,
      Transition.run Session.step ⟨⟨List.replicate 12 0, 8, 8⟩, []⟩
        [.append [1, 2, 3], .retrieveAsString 2, .append [4, 5, 6], .readFd (.received [7, 8])]
        = .ok s ∧ s.buffer.readable = [3, 4, 5, 6, 7, 8] ∧ s.buffer.Valid := by
  have hcreate : create 4 = .ok ⟨List.replicate 12 0, 8, 8⟩ := rfl
  have hrun : Transition.run Session.step ⟨⟨List.replicate 12 0, 8, 8⟩, []⟩
      [.append [1, 2, 3], .retrieveAsString 2, .append [4, 5, 6], .readFd (.received [7, 8])] =
      .ok ⟨⟨[0, 0, 0, 0, 0, 0, 0, 0, 3, 4, 5, 6, 7, 8], 8, 14⟩, [[], [1, 2], [], []]⟩ := rfl
  exact ⟨_, hrun, rfl, (session_refines_fifo (by decide) hcreate hrun).1⟩

end Muduo.Buffer
