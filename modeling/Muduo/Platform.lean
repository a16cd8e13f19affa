import Muduo.Library.Transition

/-! # What the code takes from the language and the kernel

`size_t` arithmetic, `std::string` and `std::vector<char>`, and the results of
the system calls the library makes. An access outside a vector is undefined
behavior; a resize above `max_size` throws and changes nothing.
-/

namespace Muduo

/-- `size_t` arithmetic. -/
def sizeMod : Nat := 2 ^ 64

namespace SizeT

def add (left right : Nat) : Nat := (left + right) % sizeMod

def sub (left right : Nat) : Nat := (left + (sizeMod - right)) % sizeMod

theorem add_eq {left right : Nat} (hfits : left + right < sizeMod) :
    add left right = left + right := Nat.mod_eq_of_lt hfits

theorem sub_eq {left right : Nat} (hle : right ≤ left) (hfits : left < sizeMod) :
    sub left right = left - right := by
  unfold sub
  have hsum : left + (sizeMod - right) = left - right + sizeMod := by omega
  rw [hsum, Nat.add_mod_right]
  exact Nat.mod_eq_of_lt (by omega)

end SizeT

/-- `max_size` of `std::vector<char>` and of `std::string`. -/
def maxSize : Nat := 2 ^ 63 - 1

/-- A `std::string`, which cannot be longer than its `max_size`. -/
structure CppString where
  bytes : List UInt8
  fits : bytes.length ≤ maxSize

namespace CppString

/-- The constructor throws when the text is too long. -/
def ofBytes (bytes : List UInt8) : Except Stop CppString :=
  if hfits : bytes.length ≤ maxSize then .ok ⟨bytes, hfits⟩ else .error .thrown

theorem ofBytes_ok {bytes : List UInt8} {text : CppString} (htext : ofBytes bytes = .ok text) :
    text.bytes = bytes := by
  unfold ofBytes at htext
  split at htext
  next =>
    obtain rfl := Except.ok.inj htext
    rfl
  next => cases htext

end CppString

/-- The bytes of a literal, whose characters are its bytes. -/
def literal (text : String) : List UInt8 := text.toList.map Char.toUInt8

/-- What `snprintf` leaves in a buffer of the given size: the terminating zero
takes one character. -/
def snprintf (size : Nat) (text : String) : String :=
  String.ofList (text.toList.take (size - 1))

theorem snprintf_eq {size : Nat} {text : String} (hfits : text.length < size) :
    snprintf size text = text := by
  unfold snprintf
  rw [List.take_of_length_le, String.ofList_toList]
  rw [String.length_toList]
  omega

namespace CharVector

/-- `vector::resize`: new elements are zero. -/
def resize (vector : List UInt8) (size : Nat) : Except Stop (List UInt8) :=
  if maxSize < size then .error .thrown
  else .ok (vector.take size ++ List.replicate (size - vector.length) 0)

/-- Read `len` characters from position `first`. -/
def read (vector : List UInt8) (first len : Nat) : Except Stop (List UInt8) :=
  if first + len ≤ vector.length then .ok ((vector.drop first).take len)
  else .error .undefined

/-- Copy characters from elsewhere to position `dest`. -/
def write (vector : List UInt8) (dest : Nat) (source : List UInt8) :
    Except Stop (List UInt8) :=
  if dest + source.length ≤ vector.length then
    .ok (vector.take dest ++ source ++ vector.drop (dest + source.length))
  else .error .undefined

/-- `std::copy` inside one vector. The destination may not start inside the
source range. -/
def copyWithin (vector : List UInt8) (first last dest : Nat) : Except Stop (List UInt8) :=
  if first ≤ last ∧ ¬ (first ≤ dest ∧ dest < last) then do
    let source ← read vector first (last - first)
    write vector dest source
  else .error .undefined

end CharVector

/-! ## Threads and system calls -/

abbrev ThreadId := Nat

/-- The values of `errno` the code compares with, and all others. On Linux
`EAGAIN` and `EWOULDBLOCK` are one value. -/
inductive Errno where
  | ewouldblock
  | eintr
  | epipe
  | econnreset
  | other (code : Int)
  deriving DecidableEq, Repr

/-- What `readv` reports: the received bytes, or the saved `errno`. -/
inductive ReadResult where
  | received (bytes : List UInt8)
  | failed (savedErrno : Errno)
  deriving DecidableEq, Repr

/-- What `write` reports: the number of accepted bytes, or `errno`. -/
inductive WriteResult where
  | accepted (count : Nat)
  | failed (errno : Errno)
  deriving DecidableEq, Repr

end Muduo
