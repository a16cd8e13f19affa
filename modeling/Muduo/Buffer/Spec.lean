import Muduo.Buffer.Basic

/-! # What each buffer operation does

The readable region is the only content of a buffer. Each operation has one law
stating what it does to that region, whether it can throw, and that every access
it makes stays inside the vector.
-/

namespace Muduo.Buffer

/-- The index invariant of `Buffer`. -/
structure Valid (b : Buffer) : Prop where
  prepend : kCheapPrepend ≤ b.readerIndex
  ordered : b.readerIndex ≤ b.writerIndex
  inside : b.writerIndex ≤ b.buffer.length
  bounded : b.buffer.length ≤ maxSize

/-- The bytes between the two indices. -/
def readable (b : Buffer) : List UInt8 :=
  (b.buffer.drop b.readerIndex).take (b.writerIndex - b.readerIndex)

theorem maxSize_lt_sizeMod : maxSize < sizeMod := by decide

theorem sizeMod_eq : sizeMod = 2 * maxSize + 2 := by decide

namespace Valid

variable {b : Buffer} (hvalid : b.Valid)

include hvalid

theorem lt_sizeMod : b.buffer.length < sizeMod :=
  lt_of_le_of_lt hvalid.bounded maxSize_lt_sizeMod

theorem readableBytes_eq : b.readableBytes = b.writerIndex - b.readerIndex :=
  SizeT.sub_eq hvalid.ordered (lt_of_le_of_lt hvalid.inside hvalid.lt_sizeMod)

theorem writableBytes_eq : b.writableBytes = b.buffer.length - b.writerIndex :=
  SizeT.sub_eq hvalid.inside hvalid.lt_sizeMod

theorem readable_length : b.readable.length = b.readableBytes := by
  have hordered := hvalid.ordered
  have hinside := hvalid.inside
  rw [hvalid.readableBytes_eq, readable, List.length_take, List.length_drop]
  omega

/-- The vector splits into consumed bytes, readable bytes and free space. -/
theorem split : ∃ consumed free, b.buffer = consumed ++ b.readable ++ free ∧
    consumed.length = b.readerIndex ∧ consumed.length + b.readable.length = b.writerIndex := by
  have hordered := hvalid.ordered
  have hinside := hvalid.inside
  refine ⟨b.buffer.take b.readerIndex,
    (b.buffer.drop b.readerIndex).drop (b.writerIndex - b.readerIndex), ?_, ?_, ?_⟩
  · rw [List.append_assoc, readable, List.take_append_drop, List.take_append_drop]
  · rw [List.length_take]
    omega
  · rw [hvalid.readable_length, hvalid.readableBytes_eq, List.length_take]
    omega

end Valid

/-- A buffer assembled from its three regions. -/
theorem readable_of_split {b : Buffer} (consumed : List UInt8) {region : List UInt8}
    (free : List UInt8)
    (hbuffer : b.buffer = consumed ++ region ++ free)
    (hreader : b.readerIndex = consumed.length)
    (hwriter : b.writerIndex = consumed.length + region.length) :
    b.readable = region := by
  simp [readable, hbuffer, hreader, hwriter]

/-! ## Characters of the vector -/

theorem read_split (front region rest : List UInt8) {first len : Nat}
    (hfirst : first = front.length) (hlen : len = region.length) :
    CharVector.read (front ++ region ++ rest) first len = .ok region := by
  subst hfirst hlen
  simp [CharVector.read]

theorem write_split (front rest source : List UInt8) {dest : Nat}
    (hdest : dest = front.length) (hfits : source.length ≤ rest.length) :
    CharVector.write (front ++ rest) dest source =
      .ok (front ++ source ++ rest.drop source.length) := by
  subst hdest
  simp [CharVector.write, hfits]

theorem length_write {vector next source : List UInt8} {dest : Nat}
    (hwrite : CharVector.write vector dest source = .ok next) : next.length = vector.length := by
  unfold CharVector.write at hwrite
  obtain ⟨hfits, hwrite⟩ := Except.guard_eq_ok.mp hwrite
  obtain rfl := Except.ok.inj hwrite
  simp only [List.length_append, List.length_take, List.length_drop]
  omega

/-! ## Taking bytes out -/

theorem Valid.retrieveAll {b : Buffer} (hvalid : b.Valid) : b.retrieveAll.Valid := by
  have hprepend := hvalid.prepend
  have hordered := hvalid.ordered
  have hinside := hvalid.inside
  exact ⟨le_refl _, le_refl _, by simp only [Buffer.retrieveAll]; omega, hvalid.bounded⟩

theorem readable_retrieveAll (b : Buffer) : b.retrieveAll.readable = [] := by
  simp [readable, Buffer.retrieveAll]

theorem Valid.retrieve {b : Buffer} (hvalid : b.Valid) (len : Nat) : (b.retrieve len).Valid := by
  unfold Buffer.retrieve
  split
  next hlt =>
    have hprepend := hvalid.prepend
    have hordered := hvalid.ordered
    have hinside := hvalid.inside
    have hsize := hvalid.lt_sizeMod
    rw [hvalid.readableBytes_eq] at hlt
    have hsum : SizeT.add b.readerIndex len = b.readerIndex + len := SizeT.add_eq (by omega)
    exact ⟨by simp only [hsum]; omega, by simp only [hsum]; omega, hinside, hvalid.bounded⟩
  next => exact hvalid.retrieveAll

/-- `retrieve` drops from the front; a length above the content takes it all. -/
theorem Valid.readable_retrieve {b : Buffer} (hvalid : b.Valid) (len : Nat) :
    (b.retrieve len).readable = b.readable.drop len := by
  unfold Buffer.retrieve
  split
  next hlt =>
    have hordered := hvalid.ordered
    have hinside := hvalid.inside
    have hsize := hvalid.lt_sizeMod
    rw [hvalid.readableBytes_eq] at hlt
    have hsum : SizeT.add b.readerIndex len = b.readerIndex + len := SizeT.add_eq (by omega)
    simp only [readable, hsum, List.drop_take, List.drop_drop]
    congr 1
    omega
  next hge =>
    rw [readable_retrieveAll, List.drop_eq_nil_of_le]
    rw [hvalid.readable_length]
    omega

/-- A string of at most the readable length is exactly the prefix it drops. -/
theorem Valid.retrieveAsString_eq {b : Buffer} (hvalid : b.Valid) {len : Nat}
    (hlen : len ≤ b.readableBytes) :
    b.retrieveAsString len = .ok (b.readable.take len, b.retrieve len) := by
  have hordered := hvalid.ordered
  have hinside := hvalid.inside
  have hbounded := hvalid.bounded
  have hread := hvalid.readableBytes_eq
  unfold Buffer.retrieveAsString
  rw [if_neg (by omega), CharVector.read, if_pos (by omega), readable, List.take_take,
    Nat.min_eq_left (by omega)]
  rfl

theorem Valid.retrieveAllAsString_eq {b : Buffer} (hvalid : b.Valid) :
    b.retrieveAllAsString = .ok (b.readable, b.retrieveAll) := by
  unfold Buffer.retrieveAllAsString
  rw [hvalid.retrieveAsString_eq (le_refl _), ← hvalid.readable_length, List.take_length,
    Buffer.retrieve, hvalid.readable_length, if_neg (lt_irrefl _)]

theorem Valid.peek_eq {b : Buffer} (hvalid : b.Valid) : b.peek = .ok b.readable := by
  have hordered := hvalid.ordered
  have hinside := hvalid.inside
  unfold Buffer.peek CharVector.read
  rw [hvalid.readableBytes_eq, if_pos (by omega), readable]

/-! ## Making room and putting bytes in -/

/-- The operation returns with the postcondition, or it throws because the
vector would have to grow to `size`, above its `max_size`. It never leaves the
vector and it changes nothing when it throws. -/
def Reserves (result : Except Stop Buffer) (size : Nat) (post : Buffer → Prop) : Prop :=
  (∃ next, result = .ok next ∧ post next) ∨ (result = .error .thrown ∧ maxSize < size)

/-- After making room the content is the same and `len` more bytes fit. -/
structure HasRoom (b next : Buffer) (len : Nat) : Prop where
  valid : next.Valid
  same : next.readable = b.readable
  room : len ≤ next.writableBytes

/-- The vector is enlarged and nothing moves. -/
theorem Valid.makeSpace_grow {b : Buffer} (hvalid : b.Valid) {len : Nat}
    (hlen : len + kCheapPrepend < sizeMod) (hsum : b.writerIndex + len < sizeMod)
    (hroom : b.writableBytes < len)
    (hbranch : b.writableBytes + b.readerIndex < len + kCheapPrepend) :
    Reserves (b.makeSpace len) (b.writerIndex + len) fun next =>
      HasRoom b next len ∧ next.buffer.length = b.writerIndex + len := by
  have hordered := hvalid.ordered
  have hinside := hvalid.inside
  have hsize := hvalid.lt_sizeMod
  have hwritable := hvalid.writableBytes_eq
  obtain ⟨consumed, free, hbuffer, hreader, hwriter⟩ := hvalid.split
  have hlength := congrArg List.length hbuffer
  simp only [List.length_append] at hlength
  have hadd : SizeT.add b.writableBytes b.prependableBytes = b.writableBytes + b.readerIndex :=
    SizeT.add_eq (by unfold prependableBytes; omega)
  unfold Buffer.makeSpace
  rw [hadd, SizeT.add_eq hlen, if_pos hbranch, SizeT.add_eq hsum, CharVector.resize]
  -- `resize` throws above `max_size`
  by_cases hmax : maxSize < b.writerIndex + len
  · exact Or.inr ⟨by rw [if_pos hmax]; rfl, hmax⟩
  · have hkeep : b.buffer.take (b.writerIndex + len) = b.buffer :=
      List.take_of_length_le (by omega)
    have hgrown : (b.buffer ++ List.replicate (b.writerIndex + len - b.buffer.length) 0).length =
        b.writerIndex + len := by
      rw [List.length_append, List.length_replicate]
      omega
    refine Or.inl ⟨_, by rw [if_neg hmax]; rfl, ?_⟩
    rw [hkeep]
    have hnext : Valid
        { b with buffer := b.buffer ++ List.replicate (b.writerIndex + len - b.buffer.length) 0 } :=
      ⟨hvalid.prepend, hordered, by simp only [hgrown]; omega, by simp only [hgrown]; omega⟩
    refine ⟨⟨hnext, ?_, ?_⟩, hgrown⟩
    · apply readable_of_split consumed
        (free ++ List.replicate (b.writerIndex + len - b.buffer.length) 0)
      · simp only [← List.append_assoc, ← hbuffer]
      · exact hreader.symm
      · exact hwriter.symm
    · rw [hnext.writableBytes_eq, hgrown]
      simp only
      omega

/-- The readable bytes move down to `kCheapPrepend`, unless the copy would start inside
its own source. -/
theorem Valid.copyWithin_down {b : Buffer} (hvalid : b.Valid)
    (hdest : ¬ (b.readerIndex ≤ kCheapPrepend ∧ kCheapPrepend < b.writerIndex)) :
    ∃ buffer, CharVector.copyWithin b.buffer b.readerIndex b.writerIndex kCheapPrepend =
        .ok buffer ∧ buffer.length = b.buffer.length ∧
      let next : Buffer := ⟨buffer, kCheapPrepend, SizeT.add b.readableBytes kCheapPrepend⟩
      next.Valid ∧ next.readable = b.readable ∧
        next.writerIndex = b.readableBytes + kCheapPrepend := by
  have hprepend := hvalid.prepend
  have hordered := hvalid.ordered
  have hinside := hvalid.inside
  have hsize := hvalid.lt_sizeMod
  obtain ⟨consumed, free, hbuffer, hreader, hwriter⟩ := hvalid.split
  have hlength := congrArg List.length hbuffer
  simp only [List.length_append] at hlength
  have hreadable := hvalid.readable_length
  have hread : CharVector.read b.buffer b.readerIndex (b.writerIndex - b.readerIndex) =
      .ok b.readable := by
    conv_lhs => rw [hbuffer]
    exact read_split consumed b.readable free hreader.symm (by omega)
  have hhead : (b.buffer.take kCheapPrepend).length = kCheapPrepend := by
    rw [List.length_take]
    omega
  have hwrite := write_split (b.buffer.take kCheapPrepend) (b.buffer.drop kCheapPrepend)
    b.readable hhead.symm (by rw [List.length_drop]; omega)
  rw [List.take_append_drop] at hwrite
  have hcopy : CharVector.copyWithin b.buffer b.readerIndex b.writerIndex kCheapPrepend =
      .ok (b.buffer.take kCheapPrepend ++ b.readable ++
        (b.buffer.drop kCheapPrepend).drop b.readable.length) := by
    unfold CharVector.copyWithin
    rw [if_pos ⟨hordered, hdest⟩, hread]
    exact hwrite
  have hindex : SizeT.add b.readableBytes kCheapPrepend = b.readableBytes + kCheapPrepend :=
    SizeT.add_eq (by omega)
  have hmoved : (b.buffer.take kCheapPrepend ++ b.readable ++
      (b.buffer.drop kCheapPrepend).drop b.readable.length).length = b.buffer.length := by
    simp only [List.length_append, List.length_drop, hhead]
    omega
  refine ⟨_, hcopy, hmoved, ⟨le_refl _, ?_, ?_, ?_⟩, ?_, hindex⟩
  · simp only [hindex]
    exact Nat.le_add_left _ _
  · simp only [hindex, hmoved]
    omega
  · simp only [hmoved]
    exact hvalid.bounded
  · apply readable_of_split (b.buffer.take kCheapPrepend) _ rfl
    · exact hhead.symm
    · simp only [hindex, hhead]
      omega

/-- `makeSpace` in the branch that does not enlarge the vector. -/
theorem Valid.makeSpace_moves {b : Buffer} (hvalid : b.Valid) {len : Nat}
    (hdest : ¬ (b.readerIndex ≤ kCheapPrepend ∧ kCheapPrepend < b.writerIndex))
    (hbranch : ¬ SizeT.add b.writableBytes b.prependableBytes < SizeT.add len kCheapPrepend) :
    ∃ next, b.makeSpace len = .ok next ∧ next.Valid ∧ next.readable = b.readable ∧
      next.buffer.length = b.buffer.length ∧
      next.writerIndex = b.readableBytes + kCheapPrepend := by
  obtain ⟨buffer, hcopy, hlength, hnext, hreadable, hwriter⟩ := hvalid.copyWithin_down hdest
  unfold Buffer.makeSpace
  rw [if_neg hbranch]
  dsimp only
  rw [hcopy]
  exact ⟨_, rfl, hnext, hreadable, hlength, hwriter⟩

/-- The reader index is above `kCheapPrepend`, so the copy is defined. -/
theorem Valid.makeSpace_compact {b : Buffer} (hvalid : b.Valid) {len : Nat}
    (hlen : len + kCheapPrepend < sizeMod) (hroom : b.writableBytes < len)
    (hbranch : ¬ b.writableBytes + b.readerIndex < len + kCheapPrepend) :
    ∃ next, b.makeSpace len = .ok next ∧ HasRoom b next len ∧
      next.buffer.length = b.buffer.length := by
  have hordered := hvalid.ordered
  have hinside := hvalid.inside
  have hsize := hvalid.lt_sizeMod
  have hread := hvalid.readableBytes_eq
  have hwritable := hvalid.writableBytes_eq
  have hadd : SizeT.add b.writableBytes b.prependableBytes = b.writableBytes + b.readerIndex :=
    SizeT.add_eq (by unfold prependableBytes; omega)
  obtain ⟨next, hmakes, hnext, hreadable, hlength, hwriter⟩ :=
    hvalid.makeSpace_moves (by omega) (by rw [hadd, SizeT.add_eq hlen]; exact hbranch)
  refine ⟨next, hmakes, ⟨hnext, hreadable, ?_⟩, hlength⟩
  rw [hnext.writableBytes_eq, hlength, hwriter]
  omega

/-- The size of the vector once there is room for `len` more bytes. -/
def roomSize (b : Buffer) (len : Nat) : Nat :=
  if b.buffer.length < kCheapPrepend + b.readableBytes + len then b.writerIndex + len
  else b.buffer.length

theorem Valid.ensureWritableBytes_reserves {b : Buffer} (hvalid : b.Valid) {len : Nat}
    (hlen : len + kCheapPrepend < sizeMod) (hsum : b.writerIndex + len < sizeMod) :
    Reserves (b.ensureWritableBytes len) (b.writerIndex + len) fun next =>
      HasRoom b next len ∧ next.buffer.length = b.roomSize len := by
  have hprepend := hvalid.prepend
  have hordered := hvalid.ordered
  have hinside := hvalid.inside
  have hread := hvalid.readableBytes_eq
  have hwritable := hvalid.writableBytes_eq
  unfold Buffer.ensureWritableBytes roomSize
  split
  next hroom =>
    -- the bytes before the reader index count as room
    by_cases hbranch : b.writableBytes + b.readerIndex < len + kCheapPrepend
    · rw [if_pos (by omega)]
      exact hvalid.makeSpace_grow hlen hsum hroom hbranch
    · rw [if_neg (by omega)]
      exact Or.inl (hvalid.makeSpace_compact hlen hroom hbranch)
  next hroom =>
    rw [if_neg (by omega)]
    exact Or.inl ⟨b, rfl, ⟨hvalid, rfl, by omega⟩, rfl⟩

/-- Writing into free space extends the readable region. -/
theorem Valid.write_free {b : Buffer} (hvalid : b.Valid) (data : List UInt8)
    (hfits : data.length ≤ b.writableBytes) :
    ∃ buffer, CharVector.write b.buffer b.writerIndex data = .ok buffer ∧
      buffer.length = b.buffer.length ∧
      SizeT.add b.writerIndex data.length = b.writerIndex + data.length ∧
      let next : Buffer := ⟨buffer, b.readerIndex, SizeT.add b.writerIndex data.length⟩
      next.Valid ∧ next.readable = b.readable ++ data := by
  have hordered := hvalid.ordered
  have hinside := hvalid.inside
  have hsize := hvalid.lt_sizeMod
  rw [hvalid.writableBytes_eq] at hfits
  obtain ⟨consumed, free, hbuffer, hreader, hwriter⟩ := hvalid.split
  have hlength := congrArg List.length hbuffer
  simp only [List.length_append] at hlength
  have hsum : SizeT.add b.writerIndex data.length = b.writerIndex + data.length :=
    SizeT.add_eq (by omega)
  have hdest : b.writerIndex = (consumed ++ b.readable).length := by
    rw [List.length_append, hwriter]
  have hwrite := write_split (consumed ++ b.readable) free data hdest (by omega)
  rw [← hbuffer] at hwrite
  have hsame : (consumed ++ b.readable ++ data ++ free.drop data.length).length =
      b.buffer.length := by
    simp only [List.length_append, List.length_drop]
    omega
  refine ⟨_, hwrite, hsame, hsum, ⟨hvalid.prepend, ?_, ?_, ?_⟩, ?_⟩
  · simp only [hsum]
    omega
  · simp only [hsum, hsame]
    omega
  · simp only [hsame]
    exact hvalid.bounded
  · apply readable_of_split consumed (free.drop data.length)
    · simp only [List.append_assoc]
    · exact hreader.symm
    · simp only [hsum, List.length_append]
      omega

theorem Valid.append_reserves {b : Buffer} (hvalid : b.Valid) {data : List UInt8}
    (hlen : data.length + kCheapPrepend < sizeMod)
    (hsum : b.writerIndex + data.length < sizeMod) :
    Reserves (b.append data) (b.writerIndex + data.length)
      fun next => next.Valid ∧ next.readable = b.readable ++ data := by
  unfold Buffer.append
  rcases hvalid.ensureWritableBytes_reserves hlen hsum with
    ⟨roomy, hensure, hroom, -⟩ | ⟨hensure, hmax⟩
  · obtain ⟨buffer, hwrite, -, -, hnext, hreadable⟩ := hroom.valid.write_free data hroom.room
    refine Or.inl ⟨_, ?_, hnext, hroom.same ▸ hreadable⟩
    rw [hensure]
    simp only [bind, Except.bind, hwrite]
    rfl
  · exact Or.inr ⟨by rw [hensure]; rfl, hmax⟩

/-- A string appended to a valid buffer never overflows a `size_t` sum. -/
theorem Valid.append_string {b : Buffer} (hvalid : b.Valid) {data : List UInt8}
    (hfits : data.length ≤ maxSize) :
    Reserves (b.append data) (b.writerIndex + data.length)
      fun next => next.Valid ∧ next.readable = b.readable ++ data := by
  have hinside := hvalid.inside
  have hbounded := hvalid.bounded
  have hmod := sizeMod_eq
  have hprepend : kCheapPrepend ≤ maxSize := by decide
  exact hvalid.append_reserves (by omega) (by omega)

/-- `readFd` has the effect of appending what was received, whether it fits the
vector tail or spills into the stack buffer. -/
theorem Valid.readFd_reserves {b : Buffer} (hvalid : b.Valid) {bytes : List UInt8}
    (hlen : bytes.length ≤ b.iovecLength) :
    Reserves (b.readFd (.received bytes))
      (b.buffer.length + (bytes.length - b.writableBytes))
      fun next => next.Valid ∧ next.readable = b.readable ++ bytes := by
  have hinside := hvalid.inside
  have hwritable := hvalid.writableBytes_eq
  have hmod := sizeMod_eq
  have hbounded := hvalid.bounded
  obtain ⟨buffer, hwrite, hlength, hindex, hnext, hreadable⟩ :=
    hvalid.write_free (bytes.take b.writableBytes) (by
      rw [List.length_take]
      omega)
  simp only [Buffer.readFd, hwrite, bind, Except.bind]
  split
  next hfits =>
    rw [List.take_of_length_le hfits] at hnext hreadable
    exact Or.inl ⟨_, rfl, hnext, hreadable⟩
  next hspill =>
    -- the vector is full and `append` is entered again for the rest
    have htake : (bytes.take b.writableBytes).length = b.writableBytes := by
      rw [List.length_take]
      omega
    have hfull : SizeT.add b.writerIndex (bytes.take b.writableBytes).length = buffer.length := by
      rw [hindex, htake, hlength]
      omega
    rw [hfull] at hnext hreadable
    have hextra : (bytes.drop b.writableBytes).length ≤ maxSize := by
      have hextrabuf : extrabufSize ≤ maxSize := by decide
      unfold iovecLength at hlen
      rw [List.length_drop]
      split at hlen <;> omega
    have happend := hnext.append_string hextra
    rw [hreadable, List.append_assoc, List.take_append_drop, List.length_drop] at happend
    rw [← hlength]
    exact happend

/-! ## Construction -/

theorem create_reserves {initialSize : Nat} (hsum : kCheapPrepend + initialSize < sizeMod) :
    Reserves (create initialSize) (kCheapPrepend + initialSize) fun next =>
      next.Valid ∧ next.readable = [] ∧ next.buffer.length = kCheapPrepend + initialSize := by
  unfold create CharVector.resize
  rw [SizeT.add_eq hsum]
  by_cases hmax : maxSize < kCheapPrepend + initialSize
  · exact Or.inr ⟨by rw [if_pos hmax]; rfl, hmax⟩
  · refine Or.inl ⟨_, by rw [if_neg hmax]; rfl, ⟨le_refl _, le_refl _, ?_, ?_⟩, ?_, ?_⟩
    · simp
    · simpa using Nat.not_lt.mp hmax
    · simp [readable]
    · simp

/-- A constructed buffer is empty. -/
theorem create_ok {initialSize : Nat} {start : Buffer}
    (hsum : kCheapPrepend + initialSize < sizeMod) (hcreate : create initialSize = .ok start) :
    start.Valid ∧ start.readable = [] ∧
      start.buffer.length = kCheapPrepend + initialSize := by
  rcases create_reserves hsum with ⟨next, hnext, hpost⟩ | ⟨hthrown, -⟩
  · rw [hnext, Except.ok.injEq] at hcreate
    exact hcreate ▸ hpost
  · rw [hthrown] at hcreate
    cases hcreate

end Muduo.Buffer
