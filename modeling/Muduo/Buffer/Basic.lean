import Muduo.Platform

/-! # The network buffer

`Buffer` of `Buffer.h` and `Buffer.cc`: a byte vector with a reader and a writer
index. Indices and lengths are `size_t`, so every sum and difference is taken
modulo 2^64 as the code computes it.
-/

namespace Muduo

structure Buffer where
  buffer : List UInt8
  readerIndex : Nat
  writerIndex : Nat
  deriving DecidableEq, Repr

namespace Buffer

def kCheapPrepend : Nat := 8

def kInitialSize : Nat := 1024

/-- Length of the stack buffer `extrabuf` of `readFd`. -/
def extrabufSize : Nat := 65536

/-- The constructor. -/
def create (initialSize : Nat) : Except Stop Buffer := do
  let buffer ← CharVector.resize [] (SizeT.add kCheapPrepend initialSize)
  return { buffer, readerIndex := kCheapPrepend, writerIndex := kCheapPrepend }

def readableBytes (b : Buffer) : Nat := SizeT.sub b.writerIndex b.readerIndex

def writableBytes (b : Buffer) : Nat := SizeT.sub b.buffer.length b.writerIndex

def prependableBytes (b : Buffer) : Nat := b.readerIndex

def retrieveAll (b : Buffer) : Buffer :=
  { b with readerIndex := kCheapPrepend, writerIndex := kCheapPrepend }

def retrieve (b : Buffer) (len : Nat) : Buffer :=
  if len < b.readableBytes then { b with readerIndex := SizeT.add b.readerIndex len }
  else b.retrieveAll

/-- `std::string result(peek(), len)` and the retrieve of the same length. -/
def retrieveAsString (b : Buffer) (len : Nat) : Except Stop (List UInt8 × Buffer) :=
  if maxSize < len then .error .thrown
  else do
    let result ← CharVector.read b.buffer b.readerIndex len
    return (result, b.retrieve len)

def retrieveAllAsString (b : Buffer) : Except Stop (List UInt8 × Buffer) :=
  b.retrieveAsString b.readableBytes

def makeSpace (b : Buffer) (len : Nat) : Except Stop Buffer :=
  if SizeT.add b.writableBytes b.prependableBytes < SizeT.add len kCheapPrepend then do
    let buffer ← CharVector.resize b.buffer (SizeT.add b.writerIndex len)
    return { b with buffer }
  else do
    let readable := b.readableBytes
    let buffer ← CharVector.copyWithin b.buffer b.readerIndex b.writerIndex kCheapPrepend
    return {
      buffer
      readerIndex := kCheapPrepend
      writerIndex := SizeT.add readable kCheapPrepend }

def ensureWritableBytes (b : Buffer) (len : Nat) : Except Stop Buffer :=
  if b.writableBytes < len then b.makeSpace len else .ok b

def append (b : Buffer) (data : List UInt8) : Except Stop Buffer := do
  let b ← b.ensureWritableBytes data.length
  let buffer ← CharVector.write b.buffer b.writerIndex data
  return { b with buffer, writerIndex := SizeT.add b.writerIndex data.length }

/-- Total length of the `iovec` entries passed to `readv`. The stack buffer is
offered only when the vector tail is smaller than it. -/
def iovecLength (b : Buffer) : Nat :=
  if b.writableBytes < extrabufSize then b.writableBytes + extrabufSize
  else b.writableBytes

/-- `readFd`: the kernel fills the vector tail first and then `extrabuf`. -/
def readFd (b : Buffer) : ReadResult → Except Stop Buffer
  | .failed _ => .ok b
  | .received bytes => do
      let writable := b.writableBytes
      let extrabuf := bytes.drop writable
      let buffer ← CharVector.write b.buffer b.writerIndex (bytes.take writable)
      if bytes.length ≤ writable then
        return { b with buffer, writerIndex := SizeT.add b.writerIndex bytes.length }
      else
        let b := { b with buffer, writerIndex := buffer.length }
        b.append extrabuf

/-- `peek` up to the writer index: the bytes `writeFd` offers to `write`. -/
def peek (b : Buffer) : Except Stop (List UInt8) :=
  CharVector.read b.buffer b.readerIndex b.readableBytes

end Buffer

end Muduo
