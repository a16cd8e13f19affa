import Muduo.Buffer.Refinement

/-! # Lengths nobody checks

`ensureWritableBytes` and `retrieveAsString` take any `size_t`. The sums of the first may
wrap around: then `makeSpace` moves bytes where it should grow, or it shrinks the vector.
The second copies the characters before `retrieve` limits the length to what is readable,
so it may read consumed or free bytes, and bytes outside the vector.
-/

open Transition

namespace Muduo

namespace Buffer

variable {b next : Buffer} {op : Op} {len : Nat}

theorem kCheapPrepend_le_maxSize : kCheapPrepend ≤ maxSize := by decide

/-! ## Runs of any operations -/

namespace Op

/-- `readv` fills no more than its `iovec` entries. -/
def Delivers (b : Buffer) : Op → Prop
  | .readFd (.received bytes) => bytes.length ≤ b.iovecLength
  | _ => True

instance (b : Buffer) : (op : Op) → Decidable (op.Delivers b)
  | .readFd (.received _) => inferInstanceAs (Decidable (_ ≤ _))
  | .readFd (.failed _) => .isTrue trivial
  | .append _ | .retrieve _ | .retrieveAll | .retrieveAllAsString => .isTrue trivial
  | .retrieveAsString _ | .ensureWritableBytes _ => .isTrue trivial

/-- The length an operation passes to `ensureWritableBytes`. -/
def reserves : Op → Option Nat
  | .append data => some data.length
  | .ensureWritableBytes len => some len
  | _ => none

/-- The length is a `size_t`. -/
def Sized (op : Op) : Prop := ∀ len ∈ op.reserves, len < sizeMod

end Op

/-- One operation, whatever its length. -/
def step (b : Buffer) (op : Op) : Except Stop Buffer :=
  if op.Delivers b then do
    let (_, next) ← op.exec b
    return next
  else .error .disabled

/-- The end of the reserved bytes is a `size_t`. -/
def NoWrap (b : Buffer) (op : Op) : Prop :=
  ∀ len ∈ op.reserves, b.writerIndex + len < sizeMod

instance (b : Buffer) (op : Op) : Decidable (b.NoWrap op) := by
  unfold NoWrap
  infer_instance

theorem NoWrap.allowed (hvalid : b.Valid) (hwrap : b.NoWrap op) (hdelivers : op.Delivers b)
    (hother : ∀ len, op ≠ .retrieveAsString len) : op.Allowed b := by
  have hprepend := hvalid.prepend
  have hordered := hvalid.ordered
  cases op with
  | append data =>
      have hsum : b.writerIndex + data.length < sizeMod := hwrap _ rfl
      exact ⟨by omega, hsum⟩
  | ensureWritableBytes len =>
      have hsum : b.writerIndex + len < sizeMod := hwrap _ rfl
      exact ⟨by omega, hsum⟩
  | readFd result =>
      cases result with
      | received bytes => exact hdelivers
      | failed savedErrno => trivial
  | retrieveAsString len => exact absurd rfl (hother len)
  | retrieve | retrieveAll | retrieveAllAsString => trivial

/-- An operation that does not wrap keeps the indices in order. -/
theorem step_valid (hvalid : b.Valid) (hwrap : b.NoWrap op) (hstep : b.step op = .ok next) :
    next.Valid := by
  obtain ⟨hdelivers, hstep⟩ := Except.guard_eq_ok.mp hstep
  obtain ⟨returned, hexec, hreturn⟩ := Except.bind_eq_ok.mp hstep
  obtain rfl := Except.ok.inj hreturn
  by_cases hstring : ∃ len, op = .retrieveAsString len
  · -- `retrieve` limits the length, whatever has been read
    obtain ⟨len, rfl⟩ := hstring
    simp only [Op.exec, retrieveAsString] at hexec
    split at hexec
    next => cases hexec
    next =>
      obtain ⟨string, -, hreturn⟩ := Except.bind_eq_ok.mp hexec
      obtain rfl := Except.ok.inj hreturn
      exact hvalid.retrieve len
  · have hallowed := hwrap.allowed hvalid hdelivers fun len heq => hstring ⟨len, heq⟩
    rcases Op.exec_effect hvalid op hallowed with ⟨other, hother, heffect⟩ | ⟨hthrown, -⟩
    · obtain rfl := Except.ok.inj (hother.symm.trans hexec)
      exact heffect.valid
    · rw [hthrown] at hexec
      cases hexec

/-! ## Reserving -/

/-- `ensureWritableBytes` throws and changes nothing, or it leaves a buffer with the same
content and room for `len` bytes. -/
def Reserved (b : Buffer) (len : Nat) : Prop :=
  b.ensureWritableBytes len = .error .thrown ∨
    ∃ next, b.ensureWritableBytes len = .ok next ∧ HasRoom b next len

/-- The reservation of an operation, if it makes one, keeps what it says. -/
def ReservesSpace (b : Buffer) (op : Op) : Prop := ∀ len ∈ op.reserves, b.Reserved len

/-- When `len + kCheapPrepend` wraps around, nothing is enlarged. -/
theorem Valid.moves_of_wrap (hvalid : b.Valid) (hlen : len < sizeMod)
    (hwrap : sizeMod ≤ len + kCheapPrepend) : ¬ b.Reserved len := by
  have hprepend := hvalid.prepend
  have hordered := hvalid.ordered
  have hinside := hvalid.inside
  have hbounded := hvalid.bounded
  have hmod := sizeMod_eq
  have hwritable := hvalid.writableBytes_eq
  have hcheap := kCheapPrepend_le_maxSize
  have hroom : b.writableBytes < len := by omega
  have hbranch : ¬ SizeT.add b.writableBytes b.prependableBytes < SizeT.add len kCheapPrepend := by
    have hfirst : SizeT.add b.writableBytes b.prependableBytes =
        b.writableBytes + b.readerIndex := SizeT.add_eq (by unfold prependableBytes; omega)
    have hsecond : SizeT.add len kCheapPrepend = len + kCheapPrepend - sizeMod := by
      rw [SizeT.add, Nat.mod_eq_sub_mod hwrap, Nat.mod_eq_of_lt (by omega)]
    rw [hfirst, hsecond]
    omega
  have hmakes : b.ensureWritableBytes len = b.makeSpace len := if_pos hroom
  unfold Reserved
  rw [hmakes]
  by_cases hdest : b.readerIndex ≤ kCheapPrepend ∧ kCheapPrepend < b.writerIndex
  · -- nothing has been consumed, and the bytes would be copied onto themselves
    have hundefined : b.makeSpace len = .error .undefined := by
      unfold makeSpace CharVector.copyWithin
      rw [if_neg hbranch]
      dsimp only
      rw [if_neg (fun hcopy => hcopy.2 hdest)]
      rfl
    rw [hundefined]
    simp
  · obtain ⟨moved, hmoved, hnext, -, hlength, -⟩ := hvalid.makeSpace_moves hdest hbranch
    rw [hmoved]
    rintro (hthrown | ⟨other, hother, -, -, hspace⟩)
    · cases hthrown
    · obtain rfl := Except.ok.inj hother
      rw [hnext.writableBytes_eq, hlength] at hspace
      omega

/-- When `writerIndex_ + len` wraps around, the vector shrinks below the writer index. -/
theorem Valid.shrinks_of_wrap (hvalid : b.Valid) (hlen : len + kCheapPrepend < sizeMod)
    (hwrap : sizeMod ≤ b.writerIndex + len) : ¬ b.Reserved len := by
  have hordered := hvalid.ordered
  have hinside := hvalid.inside
  have hbounded := hvalid.bounded
  have hmod := sizeMod_eq
  have hwritable := hvalid.writableBytes_eq
  have hroom : b.writableBytes < len := by omega
  have hadd : SizeT.add b.writableBytes b.prependableBytes = b.writableBytes + b.readerIndex :=
    SizeT.add_eq (by unfold prependableBytes; omega)
  obtain ⟨size, hsize, hbelow⟩ : ∃ size, SizeT.add b.writerIndex len = size ∧
      size < b.writerIndex := by
    refine ⟨_, rfl, ?_⟩
    rw [SizeT.add, Nat.mod_eq_sub_mod hwrap, Nat.mod_eq_of_lt (by omega)]
    omega
  have hmakes : b.ensureWritableBytes len = .ok { b with
      buffer := b.buffer.take size ++ List.replicate (size - b.buffer.length) 0 } := by
    unfold ensureWritableBytes makeSpace CharVector.resize
    rw [if_pos hroom, hadd, SizeT.add_eq hlen, if_pos (by omega), hsize, if_neg (by omega)]
    rfl
  unfold Reserved
  rw [hmakes]
  rintro (hthrown | ⟨next, hnext, hroom⟩)
  · cases hthrown
  · obtain rfl := Except.ok.inj hnext
    have hend := hroom.valid.inside
    have hsmaller : size ≤ b.buffer.length := by omega
    simp only [List.length_append, List.length_take, List.length_replicate,
      Nat.min_eq_left hsmaller, Nat.sub_eq_zero_of_le hsmaller, Nat.add_zero] at hend
    exact Nat.not_le_of_lt hbelow hend

theorem Valid.reserved_iff (hvalid : b.Valid) (hlen : len < sizeMod) :
    b.Reserved len ↔ b.writerIndex + len < sizeMod := by
  have hprepend := hvalid.prepend
  have hordered := hvalid.ordered
  constructor
  · intro hreserved
    by_contra hwrap
    by_cases hfits : len + kCheapPrepend < sizeMod
    · exact hvalid.shrinks_of_wrap hfits (Nat.le_of_not_lt hwrap) hreserved
    · exact hvalid.moves_of_wrap hlen (Nat.le_of_not_lt hfits) hreserved
  · intro hsum
    rcases hvalid.ensureWritableBytes_reserves (by omega) hsum with
      ⟨next, hnext, hroom, -⟩ | ⟨hthrown, -⟩
    · exact Or.inr ⟨next, hnext, hroom⟩
    · exact Or.inl hthrown

/-- The vector of a buffer whose constructor wraps around ends before the indices. -/
theorem create_valid_iff {initialSize : Nat} {start : Buffer} (hsize : initialSize < sizeMod)
    (hcreate : create initialSize = .ok start) :
    start.Valid ↔ kCheapPrepend + initialSize < sizeMod := by
  refine ⟨fun hvalid => ?_, fun hsum => (create_ok hsum hcreate).1⟩
  by_contra hwrap
  have hcheap : kCheapPrepend < sizeMod := by decide
  obtain ⟨size, hadd, hbelow⟩ : ∃ size, SizeT.add kCheapPrepend initialSize = size ∧
      size < kCheapPrepend := by
    refine ⟨_, rfl, ?_⟩
    rw [SizeT.add, Nat.mod_eq_sub_mod (Nat.le_of_not_lt hwrap), Nat.mod_eq_of_lt (by omega)]
    omega
  unfold create CharVector.resize at hcreate
  rw [hadd, if_neg (Nat.not_lt.mpr (hbelow.le.trans kCheapPrepend_le_maxSize))] at hcreate
  obtain rfl := Except.ok.inj hcreate
  have hinside := hvalid.inside
  simp only [List.take_nil, List.nil_append, List.length_replicate, List.length_nil,
    Nat.sub_zero] at hinside
  exact Nat.not_le_of_lt hbelow hinside

/-- **Space reservation.** A buffer is constructed and all its reservations keep what they
say if and only if neither the constructor nor a reservation wraps around. -/
theorem reserves_iff_noWrap {initialSize : Nat} {start : Buffer} (hsize : initialSize < sizeMod)
    (hcreate : create initialSize = .ok start) {ops : List Op} (hsized : ∀ op ∈ ops, op.Sized) :
    (start.Valid ∧ EveryStep step ReservesSpace start ops) ↔
      kCheapPrepend + initialSize < sizeMod ∧ EveryStep step NoWrap start ops := by
  have hagree (state : Buffer) (op : Op) (hstate : state.Valid) (hop : op.Sized) :
      state.ReservesSpace op ↔ state.NoWrap op :=
    forall₂_congr fun len hlen => hstate.reserved_iff (hop len hlen)
  have hpreserved (state : Buffer) (op : Op) (next : Buffer) (hstate : state.Valid)
      (hwrap : state.NoWrap op) (hstep : state.step op = .ok next) : next.Valid :=
    step_valid hstate hwrap hstep
  rw [create_valid_iff hsize hcreate]
  refine and_congr_right fun hsum => ?_
  obtain ⟨hstart, -⟩ := create_ok hsum hcreate
  constructor
  · intro hevery
    refine (hevery.and_forall hsized).imp (fun state op next hstate hmeets hstep => ?_)
      (fun state op hstate hmeets => (hagree state op hstate hmeets.2).mp hmeets.1) hstart
    exact hpreserved state op next hstate ((hagree state op hstate hmeets.2).mp hmeets.1) hstep
  · intro hevery
    refine (hevery.and_forall hsized).imp (fun state op next hstate hmeets hstep => ?_)
      (fun state op hstate hmeets => (hagree state op hstate hmeets.2).mpr hmeets.1) hstart
    exact hpreserved state op next hstate hmeets.1 hstep

theorem reserves_iff_noWrap_small : ∃ start, create 4 = .ok start ∧
    (start.Valid ∧ EveryStep step ReservesSpace start
      [.append [1, 2, 3], .retrieve 2, .ensureWritableBytes 4]) := by
  have hcreate : create 4 = .ok ⟨List.replicate 12 0, 8, 8⟩ := rfl
  refine ⟨_, hcreate, (reserves_iff_noWrap (by decide) hcreate ?_).mpr ⟨by decide, ?_⟩⟩
  · simp [Op.Sized, Op.reserves, sizeMod]
  · decide +kernel

/-- A reservation whose sum wraps around returns without room for its bytes, and another one
leaves the vector shorter than the writer index. -/
theorem reserves_false :
    (∃ start next, create 4 = .ok start ∧ start.ensureWritableBytes (2 ^ 64 - 1) = .ok next ∧
      next.writableBytes = 4) ∧
    (∃ start b next, create 4 = .ok start ∧ run step start [.append [1, 2, 3]] = .ok b ∧
      b.ensureWritableBytes (2 ^ 64 - 9) = .ok next ∧ next.buffer.length < next.writerIndex) :=
  ⟨⟨_, _, rfl, rfl, rfl⟩, ⟨_, _, _, rfl, rfl, rfl, by decide⟩⟩

/-! ## Reading -/

/-- The positions `std::string(peek(), len)` copies. It copies none when `len` is above
`max_size`. -/
def stringReads (b : Buffer) (len : Nat) : List Nat :=
  if maxSize < len then [] else List.range' b.readerIndex len

/-- The string of `retrieveAsString` is made of readable bytes. -/
structure Confined (b : Buffer) (len : Nat) : Prop where
  inside : ∀ position ∈ b.stringReads len, b.readerIndex ≤ position ∧ position < b.writerIndex
  exact : ∃ next, b.retrieveAsString len = .ok (b.readable.take len, next)
  determined : ∀ other : Buffer, other.Valid → other.readable = b.readable →
    (other.retrieveAsString len).map Prod.fst = (b.retrieveAsString len).map Prod.fst

theorem length_resize_le {vector resized : List UInt8} {size : Nat}
    (hbounded : vector.length ≤ maxSize) (hresize : CharVector.resize vector size = .ok resized) :
    resized.length ≤ maxSize := by
  unfold CharVector.resize at hresize
  split at hresize
  next => cases hresize
  next hsize =>
    obtain rfl := Except.ok.inj hresize
    simp only [List.length_append, List.length_take, List.length_replicate]
    omega

theorem length_copyWithin {vector copied : List UInt8} {first last dest : Nat}
    (hcopy : CharVector.copyWithin vector first last dest = .ok copied) :
    copied.length = vector.length := by
  unfold CharVector.copyWithin at hcopy
  obtain ⟨-, hcopy⟩ := Except.guard_eq_ok.mp hcopy
  obtain ⟨source, -, hwrite⟩ := Except.bind_eq_ok.mp hcopy
  exact length_write hwrite

/-- What a buffer keeps even when a sum wraps around. -/
structure Ordered (b : Buffer) : Prop where
  prepend : kCheapPrepend ≤ b.readerIndex
  ordered : b.readerIndex ≤ b.writerIndex
  indexed : b.writerIndex ≤ maxSize
  bounded : b.buffer.length ≤ maxSize

theorem Ordered.readableBytes_eq (hordered : b.Ordered) :
    b.readableBytes = b.writerIndex - b.readerIndex :=
  SizeT.sub_eq hordered.ordered (lt_of_le_of_lt hordered.indexed maxSize_lt_sizeMod)

theorem Ordered.confined_iff (hordered : b.Ordered) : b.Confined len ↔
    len ≤ b.readableBytes ∧ b.readerIndex + len ≤ b.buffer.length := by
  have hread := hordered.readableBytes_eq
  have hindex := hordered.ordered
  have hindexed := hordered.indexed
  have hlength : b.readable.length =
      min (b.writerIndex - b.readerIndex) (b.buffer.length - b.readerIndex) := by
    rw [readable, List.length_take, List.length_drop]
  constructor
  · rintro ⟨-, ⟨next, hexact⟩, -⟩
    unfold retrieveAsString at hexact
    split at hexact
    next => cases hexact
    next =>
      obtain ⟨string, hstring, hreturn⟩ := Except.bind_eq_ok.mp hexact
      obtain ⟨hfits, hstring⟩ := Except.guard_eq_ok.mp hstring
      -- the string is as long as `len` and as long as its part of the readable bytes
      have hsame := (Except.ok.inj hstring).trans (Prod.mk.inj (Except.ok.inj hreturn)).1
      have hcount := congrArg List.length hsame
      simp only [List.length_take, List.length_drop, hlength] at hcount
      exact ⟨by omega, hfits⟩
  · rintro ⟨hlen, hfits⟩
    have hmax : ¬ maxSize < len := by omega
    have hstring : b.retrieveAsString len = .ok (b.readable.take len, b.retrieve len) := by
      unfold retrieveAsString CharVector.read
      rw [if_neg hmax, if_pos hfits, readable, List.take_take, Nat.min_eq_left (by omega)]
      rfl
    refine ⟨fun position hposition => ?_, ⟨_, hstring⟩, fun other hother hsame => ?_⟩
    · rw [stringReads, if_neg hmax, List.mem_range'_1] at hposition
      omega
    · have henough : len ≤ other.readableBytes := by
        rw [← hother.readable_length, hsame, hlength]
        omega
      rw [hother.retrieveAsString_eq henough, hstring, hsame]
      rfl

theorem Ordered.makeSpace (hordered : b.Ordered) (hmakes : b.makeSpace len = .ok next) :
    next.Ordered := by
  have hprepend := hordered.prepend
  have hindex := hordered.ordered
  have hindexed := hordered.indexed
  have hread := hordered.readableBytes_eq
  unfold Buffer.makeSpace at hmakes
  split at hmakes
  next =>
    obtain ⟨buffer, hresize, hreturn⟩ := Except.bind_eq_ok.mp hmakes
    obtain rfl := Except.ok.inj hreturn
    exact ⟨hprepend, hindex, hindexed, length_resize_le hordered.bounded hresize⟩
  next =>
    obtain ⟨buffer, hcopy, hreturn⟩ := Except.bind_eq_ok.mp hmakes
    obtain rfl := Except.ok.inj hreturn
    have hmoved : SizeT.add b.readableBytes kCheapPrepend = b.readableBytes + kCheapPrepend :=
      SizeT.add_eq (by have hmax := maxSize_lt_sizeMod; omega)
    refine ⟨le_refl _, ?_, ?_, ?_⟩
    · rw [hmoved]
      exact Nat.le_add_left _ _
    · simp only [hmoved]
      omega
    · exact (length_copyWithin hcopy).le.trans hordered.bounded

theorem Ordered.ensureWritableBytes (hordered : b.Ordered)
    (hensure : b.ensureWritableBytes len = .ok next) : next.Ordered := by
  unfold Buffer.ensureWritableBytes at hensure
  split at hensure
  next => exact hordered.makeSpace hensure
  next =>
    obtain rfl := Except.ok.inj hensure
    exact hordered

theorem Ordered.append {data : List UInt8} (hordered : b.Ordered)
    (happend : b.append data = .ok next) : next.Ordered := by
  unfold Buffer.append at happend
  obtain ⟨roomy, hensure, happend⟩ := Except.bind_eq_ok.mp happend
  obtain ⟨buffer, hwrite, hreturn⟩ := Except.bind_eq_ok.mp happend
  obtain rfl := Except.ok.inj hreturn
  have hroomy : roomy.Ordered := hordered.ensureWritableBytes hensure
  have hindex := hroomy.ordered
  have hbounded := hroomy.bounded
  have hlength := length_write hwrite
  obtain ⟨hfits, -⟩ := Except.guard_eq_ok.mp hwrite
  have hsum : SizeT.add roomy.writerIndex data.length = roomy.writerIndex + data.length :=
    SizeT.add_eq (by have hmax := maxSize_lt_sizeMod; omega)
  refine ⟨hroomy.prepend, ?_, ?_, hlength.le.trans hbounded⟩
  · rw [hsum]
    exact hindex.trans (Nat.le_add_right _ _)
  · rw [hsum]
    exact hfits.trans hbounded

theorem Ordered.readFd {bytes : List UInt8} (hordered : b.Ordered)
    (hread : b.readFd (.received bytes) = .ok next) : next.Ordered := by
  have hindex := hordered.ordered
  have hbounded := hordered.bounded
  simp only [Buffer.readFd] at hread
  obtain ⟨buffer, hwrite, hread⟩ := Except.bind_eq_ok.mp hread
  have hlength := length_write hwrite
  obtain ⟨hfits, -⟩ := Except.guard_eq_ok.mp hwrite
  rw [List.length_take] at hfits
  split at hread
  next hcount =>
    obtain rfl := Except.ok.inj hread
    have hsum : SizeT.add b.writerIndex bytes.length = b.writerIndex + bytes.length :=
      SizeT.add_eq (by have hmax := maxSize_lt_sizeMod; omega)
    refine ⟨hordered.prepend, ?_, ?_, hlength.le.trans hbounded⟩
    · rw [hsum]
      exact hindex.trans (Nat.le_add_right _ _)
    · simp only [hsum]
      omega
  next =>
    -- the vector is full, and what is left of the bytes is appended
    have hfull : Ordered { b with buffer, writerIndex := buffer.length } := by
      refine ⟨hordered.prepend, ?_, hlength.le.trans hbounded, hlength.le.trans hbounded⟩
      simp only [hlength]
      omega
    exact hfull.append hread

theorem Ordered.retrieveAll (hordered : b.Ordered) : b.retrieveAll.Ordered :=
  ⟨le_refl _, le_refl _, kCheapPrepend_le_maxSize, hordered.bounded⟩

theorem Ordered.retrieve (hordered : b.Ordered) (len : Nat) : (b.retrieve len).Ordered := by
  have hread := hordered.readableBytes_eq
  have hprepend := hordered.prepend
  have hindexed := hordered.indexed
  unfold Buffer.retrieve
  split
  next hlt =>
    have hsum : SizeT.add b.readerIndex len = b.readerIndex + len :=
      SizeT.add_eq (by have hmax := maxSize_lt_sizeMod; omega)
    exact ⟨by simp only [hsum]; omega, by simp only [hsum]; omega, hindexed, hordered.bounded⟩
  next => exact hordered.retrieveAll

theorem Ordered.retrieveAsString {string : List UInt8} (hordered : b.Ordered)
    (hstring : b.retrieveAsString len = .ok (string, next)) : next.Ordered := by
  unfold Buffer.retrieveAsString at hstring
  split at hstring
  next => cases hstring
  next =>
    obtain ⟨result, -, hreturn⟩ := Except.bind_eq_ok.mp hstring
    obtain rfl := (Prod.mk.inj (Except.ok.inj hreturn)).2
    exact hordered.retrieve len

/-- No operation takes the indices out of their order. -/
theorem Ordered.step (hordered : b.Ordered) (hstep : b.step op = .ok next) : next.Ordered := by
  obtain ⟨-, hstep⟩ := Except.guard_eq_ok.mp hstep
  obtain ⟨⟨string, result⟩, hexec, hreturn⟩ := Except.bind_eq_ok.mp hstep
  obtain rfl := Except.ok.inj hreturn
  cases op with
  | append data =>
      obtain ⟨next, happend, hreturn⟩ := Except.bind_eq_ok.mp hexec
      obtain rfl := (Prod.mk.inj (Except.ok.inj hreturn)).2
      exact hordered.append happend
  | readFd result =>
      obtain ⟨next, hread, hreturn⟩ := Except.bind_eq_ok.mp hexec
      obtain rfl := (Prod.mk.inj (Except.ok.inj hreturn)).2
      cases result with
      | received bytes => exact hordered.readFd hread
      | failed savedErrno =>
          obtain rfl := Except.ok.inj hread
          exact hordered
  | retrieve len =>
      obtain rfl := (Prod.mk.inj (Except.ok.inj hexec)).2
      exact hordered.retrieve len
  | retrieveAll =>
      obtain rfl := (Prod.mk.inj (Except.ok.inj hexec)).2
      exact hordered.retrieveAll
  | retrieveAllAsString => exact hordered.retrieveAsString hexec
  | retrieveAsString len => exact hordered.retrieveAsString hexec
  | ensureWritableBytes len =>
      obtain ⟨next, hensure, hreturn⟩ := Except.bind_eq_ok.mp hexec
      obtain rfl := (Prod.mk.inj (Except.ok.inj hreturn)).2
      exact hordered.ensureWritableBytes hensure

theorem create_ordered {initialSize : Nat} {start : Buffer}
    (hcreate : create initialSize = .ok start) : start.Ordered := by
  unfold create at hcreate
  obtain ⟨buffer, hresize, hreturn⟩ := Except.bind_eq_ok.mp hcreate
  obtain rfl := Except.ok.inj hreturn
  exact ⟨le_refl _, le_refl _, kCheapPrepend_le_maxSize, length_resize_le (Nat.zero_le _) hresize⟩

/-- **Reading.** After any operations `retrieveAsString` exposes readable bytes only if and
only if it asks for no more than these, and they lie inside the vector. They do when no sum
has wrapped around. -/
theorem retrieveAsString_confined_iff {initialSize : Nat} {start : Buffer}
    (hcreate : create initialSize = .ok start) {ops : List Op}
    (hrun : run step start ops = .ok b) (len : Nat) :
    (b.Confined len ↔ len ≤ b.readableBytes ∧ b.readerIndex + len ≤ b.buffer.length) ∧
    (kCheapPrepend + initialSize < sizeMod → EveryStep step NoWrap start ops →
      (b.Confined len ↔ len ≤ b.readableBytes)) := by
  have hpreserved (state : Buffer) (op : Op) (next : Buffer) (hstate : state.Ordered)
      (hstep : state.step op = .ok next) : next.Ordered := hstate.step hstep
  have hordered : b.Ordered := run_invariant hpreserved (create_ordered hcreate) hrun
  refine ⟨hordered.confined_iff, fun hsum hevery => ?_⟩
  obtain ⟨hstart, -⟩ := create_ok hsum hcreate
  have hvalid : b.Valid := run_invariant_of_everyStep
    (fun _ _ _ hstate hwrap hstep => step_valid hstate hwrap hstep) hstart hevery hrun
  have hindex := hvalid.ordered
  have hinside := hvalid.inside
  have hread := hvalid.readableBytes_eq
  rw [hordered.confined_iff]
  exact ⟨And.left, fun hlen => ⟨hlen, by omega⟩⟩

theorem retrieveAsString_confined_iff_small : ∃ start b, create 4 = .ok start ∧
    run step start [.append [1, 2, 3], .retrieve 1, .ensureWritableBytes 3] = .ok b ∧
    b.Confined 2 ∧ ¬ b.Confined 3 := by
  have hcreate : create 4 = .ok ⟨List.replicate 12 0, 8, 8⟩ := rfl
  have hrun : run step ⟨List.replicate 12 0, 8, 8⟩
      [.append [1, 2, 3], .retrieve 1, .ensureWritableBytes 3] =
      .ok ⟨[0, 0, 0, 0, 0, 0, 0, 0, 1, 2, 3, 0, 0, 0], 9, 11⟩ := rfl
  have hconfined (len : Nat) := (retrieveAsString_confined_iff hcreate hrun len).2 (by decide)
    (by decide +kernel)
  refine ⟨_, _, hcreate, hrun, (hconfined 2).mpr (by decide), fun hexposed => ?_⟩
  exact absurd ((hconfined 3).mp hexposed) (by decide)

/-- Three bytes are taken out and one arrives; a string of three bytes then shows the last
two of the consumed ones again. -/
theorem retrieveAsString_confined_false : ∃ start b next, create 4 = .ok start ∧
    run step start [.append [1, 2, 3], .retrieveAsString 3, .append [9]] = .ok b ∧
    b.readable = [9] ∧ b.retrieveAsString 3 = .ok ([9, 2, 3], next) ∧ ¬ b.Confined 3 := by
  refine ⟨_, _, _, rfl, rfl, rfl, rfl, ?_⟩
  rintro ⟨-, ⟨next, hexact⟩, -⟩
  cases hexact

end Buffer

end Muduo
