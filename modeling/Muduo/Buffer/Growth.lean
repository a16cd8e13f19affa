import Muduo.Buffer.Refinement

/-! # How the vector grows

`makeSpace` enlarges the vector without moving the readable bytes, so the dead bytes in
front of the reader index are carried along. They are fewer than the new bytes and
`kCheapPrepend` together, or moving down would have made room, so the vector is never
larger than twice the content plus a constant.
-/

open Transition

namespace Muduo

namespace Buffer

variable {b next : Buffer} {data bytes : List UInt8}

/-- `append` makes room and nothing else changes the size. -/
theorem Valid.length_append (hvalid : b.Valid) (hsum : b.writerIndex + data.length < sizeMod)
    (happend : b.append data = .ok next) : next.buffer.length = b.roomSize data.length := by
  have hprepend := hvalid.prepend
  have hordered := hvalid.ordered
  unfold append at happend
  obtain ⟨roomy, hensure, happend⟩ := Except.bind_eq_ok.mp happend
  obtain ⟨buffer, hwrite, happend⟩ := Except.bind_eq_ok.mp happend
  obtain rfl := Except.ok.inj happend
  rcases hvalid.ensureWritableBytes_reserves (by omega) hsum with
    ⟨other, hother, -, hsize⟩ | ⟨hthrown, -⟩
  · obtain rfl := Except.ok.inj (hother.symm.trans hensure)
    exact (length_write hwrite).trans hsize
  · rw [hthrown] at hensure
    cases hensure

/-- The vector grows exactly when the new bytes do not fit behind the moved content. -/
theorem Valid.append_grows_iff (hvalid : b.Valid)
    (hsum : b.writerIndex + data.length < sizeMod) (happend : b.append data = .ok next) :
    next.buffer.length ≠ b.buffer.length ↔
      kCheapPrepend + b.readableBytes + data.length > b.buffer.length := by
  have hprepend := hvalid.prepend
  have hordered := hvalid.ordered
  have hread := hvalid.readableBytes_eq
  rw [hvalid.length_append hsum happend, roomSize]
  split
  next hfull =>
    -- the content ends before the writer index, so the new end lies outside the vector
    refine iff_of_true ?_ hfull
    omega
  next hfits => exact iff_of_false (fun hgrown => hgrown rfl) hfits

/-- An enlarged vector is at most twice as large as the content it was enlarged for. -/
theorem Valid.roomSize_bounded (hvalid : b.Valid) (len : Nat) :
    b.roomSize len = b.buffer.length ∨ b.roomSize len ≤ 2 * (b.readableBytes + len) + 7 := by
  have hordered := hvalid.ordered
  have hinside := hvalid.inside
  have hread := hvalid.readableBytes_eq
  have hcheap : kCheapPrepend = 8 := rfl
  unfold roomSize
  split
  next hfull =>
    right
    have hdead : b.readerIndex ≤ len + 7 := by omega
    omega
  next => exact Or.inl rfl

theorem Valid.append_bounded (hvalid : b.Valid) (hsum : b.writerIndex + data.length < sizeMod)
    (happend : b.append data = .ok next) (hnext : next.Valid)
    (hreadable : next.readable = b.readable ++ data) :
    next.buffer.length = b.buffer.length ∨
      next.buffer.length ≤ 2 * next.readableBytes + 7 := by
  rw [hvalid.length_append hsum happend, ← hnext.readable_length, hreadable,
    List.length_append, hvalid.readable_length]
  exact hvalid.roomSize_bounded data.length

/-- `readFd` appends what does not fit to a buffer whose tail is full. -/
theorem Valid.readFd_bounded (hvalid : b.Valid) (hlen : bytes.length ≤ b.iovecLength)
    (hread : b.readFd (.received bytes) = .ok next) (hnext : next.Valid)
    (hreadable : next.readable = b.readable ++ bytes) :
    next.buffer.length = b.buffer.length ∨
      next.buffer.length ≤ 2 * next.readableBytes + 7 := by
  have hinside := hvalid.inside
  have hbounded := hvalid.bounded
  have hwritable := hvalid.writableBytes_eq
  obtain ⟨buffer, hwrite, hlength, hindex, hfull, hfilled⟩ :=
    hvalid.write_free (bytes.take b.writableBytes) (by
      rw [List.length_take]
      omega)
  simp only [readFd, hwrite, bind, Except.bind] at hread
  split at hread
  next =>
    obtain rfl := Except.ok.inj hread
    exact Or.inl hlength
  next hspill =>
    have htake : (bytes.take b.writableBytes).length = b.writableBytes := by
      rw [List.length_take]
      omega
    have hend : SizeT.add b.writerIndex (bytes.take b.writableBytes).length = buffer.length := by
      rw [hindex, htake, hlength]
      omega
    rw [hend] at hfull hfilled
    have hextra : (bytes.drop b.writableBytes).length ≤ extrabufSize := by
      unfold iovecLength at hlen
      rw [List.length_drop]
      split at hlen <;> omega
    have hsum : buffer.length + (bytes.drop b.writableBytes).length < sizeMod := by
      have hextrabuf : extrabufSize ≤ maxSize := by decide
      have hmod := sizeMod_eq
      omega
    have hrest : next.readable = (b.readable ++ bytes.take b.writableBytes) ++
        bytes.drop b.writableBytes := by
      rw [List.append_assoc, List.take_append_drop]
      exact hreadable
    rw [← hlength]
    exact hfull.append_bounded hsum hread hnext (hrest.trans (by rw [hfilled]))

theorem length_retrieve (b : Buffer) (len : Nat) :
    (b.retrieve len).buffer.length = b.buffer.length := by
  unfold retrieve
  split <;> rfl

/-! ## Sessions -/

/-- The operation makes no more room than it fills. -/
def Op.fills : Op → Prop
  | .ensureWritableBytes _ => False
  | _ => True

/-- An operation that fills the room it makes leaves the size as it is or within twice the
content. -/
theorem Op.exec_bounded (hvalid : b.Valid) {op : Op} (hallowed : op.Allowed b) (hfills : op.fills)
    {returned : List UInt8 × Buffer} (hexec : op.exec b = .ok returned)
    (heffect : op.Effect b returned) : returned.2.buffer.length = b.buffer.length ∨
      returned.2.buffer.length ≤ 2 * returned.2.readableBytes + 7 := by
  obtain ⟨hnext, hcontent, -⟩ := heffect
  cases op with
  | append data =>
      obtain ⟨next, happend, hreturn⟩ := Except.bind_eq_ok.mp hexec
      obtain rfl := Except.ok.inj hreturn
      exact hvalid.append_bounded hallowed.2 happend hnext hcontent
  | readFd result =>
      obtain ⟨next, hread, hreturn⟩ := Except.bind_eq_ok.mp hexec
      obtain rfl := Except.ok.inj hreturn
      cases result with
      | received bytes => exact hvalid.readFd_bounded hallowed hread hnext hcontent
      | failed savedErrno =>
          obtain rfl := Except.ok.inj hread
          exact Or.inl rfl
  | retrieve len =>
      obtain rfl := Except.ok.inj hexec
      exact Or.inl (length_retrieve b len)
  | retrieveAll =>
      obtain rfl := Except.ok.inj hexec
      exact Or.inl rfl
  | retrieveAllAsString =>
      obtain rfl := Except.ok.inj (hvalid.retrieveAllAsString_eq.symm.trans hexec)
      exact Or.inl rfl
  | retrieveAsString len =>
      obtain rfl := Except.ok.inj ((hvalid.retrieveAsString_eq hallowed).symm.trans hexec)
      exact Or.inl (length_retrieve b len)
  | ensureWritableBytes len => cases hfills

theorem Session.run_valid {start s : Session} {ops : List Op} (hstart : start.buffer.Valid)
    (hrun : run Session.step start ops = .ok s) : s.buffer.Valid := by
  have hpreserved (state : Session) (op : Op) (next : Session) (hstate : state.buffer.Valid)
      (hstep : state.step op = .ok next) : next.buffer.Valid := by
    obtain ⟨-, string, -, heffect, -⟩ := Session.step_effect hstate hstep
    exact heffect.valid
  exact run_invariant hpreserved hstart hrun

/-- **Growth is necessary and bounded.** In every session `append` enlarges the vector if
and only if the content and the new bytes do not fit behind `kCheapPrepend`; and when
nobody reserves more than is filled, the vector is at most as large as at the start, or as
twice the largest content so far and seven bytes. -/
theorem growth_necessary_bounded {initialSize : Nat} {start : Buffer}
    (hsum : kCheapPrepend + initialSize < sizeMod) (hcreate : create initialSize = .ok start)
    {ops : List Op} {s : Session} (hrun : run Session.step ⟨start, []⟩ ops = .ok s) :
    (∀ (data : List UInt8) (next : Buffer), (Op.append data).Allowed s.buffer →
      s.buffer.append data = .ok next → (next.buffer.length ≠ s.buffer.buffer.length ↔
        kCheapPrepend + s.buffer.readableBytes + data.length > s.buffer.buffer.length)) ∧
    ((∀ op ∈ ops, op.fills) → s.buffer.buffer.length ≤ max (kCheapPrepend + initialSize)
      (2 * peak Session.step (·.buffer.readableBytes) ⟨start, []⟩ ops + 7)) := by
  obtain ⟨hstart, -, hlength⟩ := create_ok hsum hcreate
  have hvalid : s.buffer.Valid := Session.run_valid hstart hrun
  refine ⟨fun data next hallowed happend => hvalid.append_grows_iff hallowed.2 happend,
    fun hfills => ?_⟩
  have hpeak := peak_le_iff.mp
    (le_refl (peak Session.step (·.buffer.readableBytes) ⟨start, []⟩ ops))
  let bound := max (kCheapPrepend + initialSize)
    (2 * peak Session.step (·.buffer.readableBytes) ⟨start, []⟩ ops + 7)
  -- one operation leaves the size alone or within the bound of the content it ends with
  have hpreserved (state : Session) (op : Op) (next : Session)
      (hstate : state.buffer.Valid ∧ state.buffer.buffer.length ≤ bound) (hfills : op.fills)
      (hnext : next.buffer.readableBytes ≤
        peak Session.step (·.buffer.readableBytes) ⟨start, []⟩ ops)
      (hstep : state.step op = .ok next) :
      next.buffer.Valid ∧ next.buffer.buffer.length ≤ bound := by
    obtain ⟨hallowed, string, hexec, heffect, -⟩ := Session.step_effect hstate.1 hstep
    refine ⟨heffect.valid, ?_⟩
    rcases Op.exec_bounded hstate.1 hallowed hfills hexec heffect with hsame | hbounded
    · exact hsame.le.trans hstate.2
    · have hcontent := Nat.add_le_add_right (Nat.mul_le_mul_left 2 hnext) 7
      exact hbounded.trans (le_max_of_le_right hcontent)
  exact (hpeak.run_invariant hpreserved hfills ⟨hstart, le_max_of_le_left hlength.le⟩ hrun).2

/-- Bytes are consumed and the vector grows past them. -/
theorem growth_necessary_bounded_small : ∃ s : Session,
    run Session.step ⟨⟨List.replicate 12 0, 8, 8⟩, []⟩
      [.append [1, 2, 3], .retrieve 2, .append [4, 5, 6, 7, 8]] = .ok s ∧
    s.buffer.buffer.length = 16 ∧ s.buffer.buffer.length ≤ max (8 + 4) (2 * 6 + 7) := by
  have hrun : run Session.step ⟨⟨List.replicate 12 0, 8, 8⟩, []⟩
      [.append [1, 2, 3], .retrieve 2, .append [4, 5, 6, 7, 8]] =
      .ok ⟨⟨[0, 0, 0, 0, 0, 0, 0, 0, 1, 2, 3, 4, 5, 6, 7, 8], 10, 16⟩, [[], [], []]⟩ := rfl
  have hcreate : create 4 = .ok ⟨List.replicate 12 0, 8, 8⟩ := rfl
  exact ⟨_, hrun, rfl, (growth_necessary_bounded (by decide) hcreate hrun).2 (by simp [Op.fills])⟩

end Buffer

end Muduo
