import Mathlib
import Muduo.Platform

/-! # Names of connections

`TcpServer::newConnection` names a connection after the server, the listening
address and a running number. The suffix is printed into a buffer of 64
characters, which is long enough, so the name tells the number.
-/

namespace Muduo

/-- `InetAddress`: the bytes of `sin_addr` and the port. -/
structure InetAddress where
  addr : Fin 4 → UInt8
  port : UInt16

namespace InetAddress

def toIp (address : InetAddress) : String :=
  (address.addr 0).toNat.repr ++ "." ++ (address.addr 1).toNat.repr ++ "." ++
    (address.addr 2).toNat.repr ++ "." ++ (address.addr 3).toNat.repr

def toIpPort (address : InetAddress) : String :=
  address.toIp ++ ":" ++ address.port.toNat.repr

/-- The characters of `255.255.255.255:65535`. -/
def maxLength : Nat := 21

theorem repr_byte_length (byte : UInt8) : byte.toNat.repr.length ≤ 3 := by
  rw [Nat.length_repr_le_iff (by decide)]
  exact lt_trans byte.toNat_lt (by decide)

theorem repr_port_length (port : UInt16) : port.toNat.repr.length ≤ 5 := by
  rw [Nat.length_repr_le_iff (by decide)]
  exact lt_trans port.toNat_lt (by decide)

theorem toIpPort_length (address : InetAddress) : address.toIpPort.length ≤ maxLength := by
  have hfirst := repr_byte_length (address.addr 0)
  have hsecond := repr_byte_length (address.addr 1)
  have hthird := repr_byte_length (address.addr 2)
  have hfourth := repr_byte_length (address.addr 3)
  have hport := repr_port_length address.port
  have hdot : ".".length = 1 := rfl
  have hcolon : ":".length = 1 := rfl
  simp only [toIpPort, toIp, String.length_append, maxLength]
  omega

end InetAddress

/-- The name of the connection with this number. -/
def connName (name ipPort : String) (connId : BitVec 32) : String :=
  name ++ snprintf 64 ("-" ++ ipPort ++ "#" ++ connId.toInt.repr)

theorem repr_int_length (connId : BitVec 32) : connId.toInt.repr.length ≤ 11 := by
  have hupper := BitVec.toInt_lt (x := connId)
  have hlower := BitVec.le_toInt (x := connId)
  rw [Int.repr_eq_if]
  split
  next hnonneg =>
    have hdigits : connId.toInt.toNat.repr.length ≤ 10 := by
      rw [Nat.length_repr_le_iff (by decide)]
      omega
    omega
  next hneg =>
    have hdigits : (-connId.toInt).toNat.repr.length ≤ 10 := by
      rw [Nat.length_repr_le_iff (by decide)]
      omega
    have hminus : "-".length = 1 := rfl
    rw [String.length_append]
    omega

/-- The buffer holds the whole suffix. -/
theorem connName_eq (name : String) {ipPort : String}
    (hipPort : ipPort.length ≤ InetAddress.maxLength) (connId : BitVec 32) :
    connName name ipPort connId = name ++ ("-" ++ ipPort ++ "#" ++ connId.toInt.repr) := by
  unfold connName
  rw [snprintf_eq]
  have hdigits := repr_int_length connId
  have hminus : "-".length = 1 := rfl
  have hnumber : "#".length = 1 := rfl
  simp only [String.length_append, InetAddress.maxLength] at hipPort ⊢
  omega

/-- The name of a connection tells its number. -/
theorem connName_injective (name : String) {ipPort : String}
    (hipPort : ipPort.length ≤ InetAddress.maxLength) :
    Function.Injective (connName name ipPort) := by
  intro first second hname
  rw [connName_eq name hipPort, connName_eq name hipPort, String.append_right_inj,
    String.append_right_inj] at hname
  exact BitVec.toInt_inj.mp (Int.repr_inj.mp hname)

end Muduo
