import SecondGear.Lib.Assert
import SecondGear.Lib.ByteOrder
import SecondGear.Lib.Decimal

/-!
# `SecondGear.Model.InetAddress`: endpoints and their texts

`InetAddress` (`InetAddress.h`, `InetAddress.cpp`) wraps a `sockaddr_in`. The port and the
address lie in memory in network order. `SocketsOps.h` has the conversions, `SocketsOps.cpp`
has `toHostPort` and `fromHostPort`, which go through `inet_ntop` and `inet_pton`. The byte
order of the machine is a parameter.

A `char` array is the list of the characters in front of its zero. `none` is an `abort`.
-/

set_option autoImplicit false

namespace SecondGear

open SecondGear.Lib

def AF_INET : Nat := 2

def INADDR_ANY : UInt32 := 0

def INET_ADDRSTRLEN : Nat := 16

/-- `struct sockaddr_in`, with the values that the machine reads from its fields. -/
structure SockaddrIn where
  sinFamily : Nat
  sinPort : UInt16
  sAddr : UInt32
deriving DecidableEq, Repr

/-- `bzero` -/
def SockaddrIn.zero : SockaddrIn where
  sinFamily := 0
  sinPort := 0
  sAddr := 0

/-- `s.c_str()`: a zero ends it. -/
def cStr (s : String) : List Char := s.toList.takeWhile (· ≠ Char.ofNat 0)

namespace Sockets

variable (order : ByteOrder)

/-! ### Byte order -/

def hostToNetwork16 (host16 : UInt16) : UInt16 := .ofNat (order.hton 2 host16.toNat)

def networkToHost32 (net32 : UInt32) : UInt32 := .ofNat (order.hton 4 net32.toNat)

def networkToHost16 (net16 : UInt16) : UInt16 := .ofNat (order.hton 2 net16.toNat)

/-! ### Texts -/

/-- Four bytes, as `inet_ntop` writes them. -/
def dotted (bytes : List UInt8) : List Char :=
  ['.'].intercalate (bytes.map fun b => decimal b.toNat)

/-- `inet_ntop(AF_INET, &addr, dst, size)`. `none` is `ENOSPC`. -/
def inetNtop (addr : UInt32) (size : Nat) : Option (List Char) :=
  let text := dotted (order.store 4 addr.toNat)
  if text.length < size then some text else none

/-- One field of an address: a number up to 255 without leading zeros. -/
def octet? (cs : List Char) : Option UInt8 := do
  let n ← number? cs
  assert (cs.head? = some '0' → cs.length = 1)
  assert (n ≤ 255)
  return UInt8.ofNat n

/-- `inet_pton(AF_INET, ip, &addr)`. `none` is a text that is no address. -/
def inetPton (ip : List Char) : Option UInt32 := do
  let bytes ← (ip.splitOn '.').mapM octet?
  assert (bytes.length = 4)
  return UInt32.ofNat (order.load bytes)

/-- `toHostPort(buf, size, addr)`. When `inet_ntop` fails, `host` keeps what it had. -/
def toHostPort (size : Nat) (addr : SockaddrIn) : List Char :=
  let host := (inetNtop order addr.sAddr INET_ADDRSTRLEN).getD "INVALID".toList
  let port := networkToHost16 order addr.sinPort
  snprintf size (host ++ [':'] ++ decimal port.toNat)

def fromHostPort (ip : List Char) (port : UInt16) (addr : SockaddrIn) : Option SockaddrIn := do
  let addr := { addr with sinFamily := AF_INET, sinPort := hostToNetwork16 order port }
  let sAddr ← inetPton order ip
  return { addr with sAddr }

end Sockets

structure InetAddress where
  addr : SockaddrIn
deriving DecidableEq, Repr

namespace InetAddress

variable (order : ByteOrder)

/-- `InetAddress(port)`. The conversions are those of the other direction. -/
def new (port : UInt16) : InetAddress where
  addr := { SockaddrIn.zero with
    sinFamily := AF_INET
    sinPort := Sockets.networkToHost16 order port
    sAddr := Sockets.networkToHost32 order INADDR_ANY }

/-- `InetAddress(ip, port)` -/
def ofIp (ip : String) (port : UInt16) : Option InetAddress :=
  (Sockets.fromHostPort order (cStr ip) port .zero).map InetAddress.mk

/-- `toHostPort`, with a `buf` of 32 characters. -/
def toHostPort (a : InetAddress) : String := String.ofList (Sockets.toHostPort order 32 a.addr)

end InetAddress

end SecondGear
