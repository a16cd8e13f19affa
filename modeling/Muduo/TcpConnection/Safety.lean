import Muduo.TcpConnection.Effect

/-! # No undefined behavior on one connection

On a connection that keeps its invariant no member function reads or writes outside its buffers,
and none makes a call of `epoll_ctl` that fails. A buffer that outgrows `max_size` throws.
-/

namespace Muduo

/-- A reservation returns or throws. -/
theorem Buffer.Reserves.returns {result : Except Stop Buffer} {size : Nat}
    {property : Buffer → Prop} (hreserves : Buffer.Reserves result size property) :
    result.Returns := by
  rcases hreserves with ⟨value, rfl, -⟩ | ⟨rfl, -⟩
  · exact .ok value
  · exact Or.inr rfl

namespace TcpConnection

variable {self : ConnId} {f : Frame}

/-! ## Sending -/

/-- Buffering only fails where the buffer would outgrow `max_size`. -/
theorem sendInLoopBuffer_stores (hf : f.Sound self) {rest : List UInt8}
    (hfits : rest.length ≤ maxSize) : (∃ next, sendInLoopBuffer self rest f = .ok next) ∨
      sendInLoopBuffer self rest f = .error .thrown ∧
        maxSize < f.conn.outputBuffer.writerIndex + rest.length := by
  unfold sendInLoopBuffer
  obtain ⟨marked, hmarked, hconn, hpoller⟩ : ∃ marked, marked =
      (if f.conn.outputBuffer.readableBytes + rest.length ≥ f.conn.highWaterMark ∧
          f.conn.outputBuffer.readableBytes < f.conn.highWaterMark ∧
          f.conn.hasHighWaterMarkCallback then
        f.queueInLoop (.highWaterMarkCallback self
          (f.conn.outputBuffer.readableBytes + rest.length)) else f) ∧
      marked.conn = f.conn ∧ marked.poller = f.poller := by
    refine ⟨_, rfl, ?_⟩
    split
    · exact ⟨rfl, rfl⟩
    · exact ⟨rfl, rfl⟩
  simp only [← hmarked]
  rw [hconn]
  rcases hf.output.append_string hfits with ⟨outputBuffer, happend, -⟩ | ⟨hthrown, hfull⟩
  · rw [happend]
    have htracks : marked.poller.Tracks self marked.conn.channel := by
      rw [hpoller, hconn]
      exact hf.tracks
    obtain ⟨next, hset, -⟩ := Frame.onChannel_setEvents self
      { marked with conn := { f.conn with outputBuffer } } Channel.enableWriting
      (hconn ▸ htracks) rfl
    refine Or.inl ?_
    change ∃ value, (if !f.conn.channel.isWriting then Frame.onChannel Channel.enableWriting self
      { marked with conn := { f.conn with outputBuffer } } else _) = .ok value
    split
    next => exact ⟨next, hset⟩
    next => exact ⟨_, rfl⟩
  · rw [hthrown]
    exact Or.inr ⟨rfl, hfull⟩

theorem sendInLoopBuffer_returns (hf : f.Sound self) {rest : List UInt8}
    (hfits : rest.length ≤ maxSize) : (sendInLoopBuffer self rest f).Returns :=
  (sendInLoopBuffer_stores hf hfits).imp_right And.left

/-- A message of which the socket takes nothing is buffered if there is room for it. -/
theorem sendInLoop_stores (hf : f.Sound self) (hstate : f.conn.Established)
    (hempty : f.conn.backlog = []) {data : List UInt8} (hdata : data ≠ [])
    (hroom : f.conn.outputBuffer.writerIndex + data.length ≤ maxSize) :
    ∃ next, sendInLoop self data (.accepted 0) f = .ok next ∧ next.conn.backlog = data := by
  let tried := f.emit (.write data (.accepted 0))
  have hpos : 0 < data.length := List.length_pos_iff.mpr hdata
  have hwrite : sendInLoopWrite self data (.accepted 0) f = .ok (tried, 0, false) := by
    have hnone : f.conn.outputBuffer.readableBytes = 0 := hf.readableBytes_eq_zero.mpr hempty
    have hwrote : f.write data (.accepted 0) = .ok tried := by
      simp only [Frame.write, Nat.zero_le, ↓reduceIte, tried]
    have hleft : ¬ (data.length - 0 = 0 ∧ tried.conn.hasWriteCompleteCallback = true) := by
      rintro ⟨hall, -⟩
      omega
    unfold sendInLoopWrite
    rw [hf.not_isWriting, hwrote]
    simp only [hnone, Bool.not_false, decide_true, Bool.and_self, ↓reduceIte]
    exact if_neg hleft
  have hsend : sendInLoop self data (.accepted 0) f = sendInLoopBuffer self data tried := by
    have hopen : f.conn.state ≠ .kDisconnected := by
      rcases hstate with hstate | hstate <;> rw [hstate] <;> decide
    unfold sendInLoop
    rw [if_neg hopen, hwrite]
    change (if !false && decide (data.length - 0 > 0) then
      sendInLoopBuffer self (data.drop 0) tried else _) = _
    rw [if_pos (by simpa using hpos), List.drop_zero]
  have hsound : tried.Sound self := ⟨hf.input, hf.output, hf.tracks, hf.mask⟩
  have hfits : data.length ≤ maxSize := (Nat.le_add_left _ _).trans hroom
  rcases sendInLoopBuffer_stores hsound hfits with ⟨next, hnext⟩ | ⟨-, hfull⟩
  · obtain ⟨-, -, hbacklog, -⟩ := sendInLoopBuffer_ok hsound hstate hdata hfits hnext
    have hbefore : tried.conn.backlog = [] := hempty
    rw [hbefore, List.nil_append] at hbacklog
    exact ⟨next, hsend.trans hnext, hbacklog⟩
  · exact absurd hroom (Nat.not_le.mpr hfull)

end TcpConnection

end Muduo
