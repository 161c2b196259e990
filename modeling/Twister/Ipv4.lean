import Twister.Mbuf

/-! IPv4, ICMP and UDP headers inside packet buffers, and the two checksum routines. -/
namespace Twister

def sizeofIpv4Hdr : ℕ := 20
def sizeofIcmpEcho : ℕ := 8
def sizeofUdpHdr : ℕ := 8
def icmpProtoId : UInt8 := 1
def udpProtoId : UInt8 := 17

section Checksum

/-- The sum is an unsigned long, and an odd last byte is added as a signed character. The
load of that byte reaches one byte past the buffer, which the cast drops. -/
def calcsumFrom : UInt64 → List UInt8 → UInt64
  | sum, [] => sum
  | sum, [x] => sum + x.toInt8.toInt64.toUInt64
  | sum, x :: y :: rest => calcsumFrom (sum + (le16 ![x, y]).toUInt64) rest

def twCalcsum (buffer : List UInt8) : UInt16 :=
  let sum := calcsumFrom 0 buffer
  let sum := (sum >>> 16) + (sum &&& 0xffff)
  let sum := sum + (sum >>> 16)
  (~~~sum).toUInt16

/-- The loop of the source is unrolled four times, with the words in the same order. -/
def rawCksumFrom : UInt32 → List UInt8 → UInt32
  | sum, [] => sum
  | sum, [x] => sum + x.toUInt32
  | sum, x :: y :: rest => rawCksumFrom (sum + (le16 ![x, y]).toUInt32) rest

def rawCksumReduce (sum : UInt32) : UInt16 :=
  let sum := ((sum &&& 0xffff0000) >>> 16) + (sum &&& 0xffff)
  let sum := ((sum &&& 0xffff0000) >>> 16) + (sum &&& 0xffff)
  sum.toUInt16

def rteRawCksum (buf : List UInt8) : UInt16 := rawCksumReduce (rawCksumFrom 0 buf)

def rteIpv4Cksum (hdr : List UInt8) : UInt16 :=
  let cksum := rteRawCksum hdr
  if cksum = 0xffff then cksum else ~~~cksum

end Checksum

namespace Mbuf

def bytesAt (m : Mbuf) (p n : ℕ) : List UInt8 := List.ofFn (m.load p n)

/-- Fields of the IPv4 header that starts `p` bytes into the data area. -/
def ipProto (m : Mbuf) (p : ℕ) : UInt8 := m.load (p + 9) 1 0
def ipSrc (m : Mbuf) (p : ℕ) : UInt32 := le32 (m.load (p + 12) 4)
def ipDst (m : Mbuf) (p : ℕ) : UInt32 := le32 (m.load (p + 16) 4)

def setIpVersionIhl (m : Mbuf) (p : ℕ) (x : UInt8) : Mbuf := m.store p fun _ : Fin 1 => x
def setIpTotalLength (m : Mbuf) (p : ℕ) (x : UInt16) : Mbuf := m.store (p + 2) (bytes16 x)
def setIpTtl (m : Mbuf) (p : ℕ) (x : UInt8) : Mbuf := m.store (p + 8) fun _ : Fin 1 => x
def setIpProto (m : Mbuf) (p : ℕ) (x : UInt8) : Mbuf := m.store (p + 9) fun _ : Fin 1 => x
def setIpCksum (m : Mbuf) (p : ℕ) (x : UInt16) : Mbuf := m.store (p + 10) (bytes16 x)
def setIpSrc (m : Mbuf) (p : ℕ) (x : UInt32) : Mbuf := m.store (p + 12) (bytes32 x)
def setIpDst (m : Mbuf) (p : ℕ) (x : UInt32) : Mbuf := m.store (p + 16) (bytes32 x)

def icmpType (m : Mbuf) (p : ℕ) : UInt8 := m.load p 1 0

def setIcmpType (m : Mbuf) (p : ℕ) (x : UInt8) : Mbuf := m.store p fun _ : Fin 1 => x
def setIcmpCode (m : Mbuf) (p : ℕ) (x : UInt8) : Mbuf := m.store (p + 1) fun _ : Fin 1 => x
def setIcmpCksum (m : Mbuf) (p : ℕ) (x : UInt16) : Mbuf := m.store (p + 2) (bytes16 x)
def setIcmpIdentifier (m : Mbuf) (p : ℕ) (x : UInt16) : Mbuf := m.store (p + 4) (bytes16 x)
def setIcmpSequence (m : Mbuf) (p : ℕ) (x : UInt16) : Mbuf := m.store (p + 6) (bytes16 x)

def udpSrc (m : Mbuf) (p : ℕ) : UInt16 := le16 (m.load p 2)
def udpDst (m : Mbuf) (p : ℕ) : UInt16 := le16 (m.load (p + 2) 2)
def udpCksum (m : Mbuf) (p : ℕ) : UInt16 := le16 (m.load (p + 6) 2)

def setUdpSrc (m : Mbuf) (p : ℕ) (x : UInt16) : Mbuf := m.store p (bytes16 x)
def setUdpDst (m : Mbuf) (p : ℕ) (x : UInt16) : Mbuf := m.store (p + 2) (bytes16 x)
def setUdpLen (m : Mbuf) (p : ℕ) (x : UInt16) : Mbuf := m.store (p + 4) (bytes16 x)
def setUdpCksum (m : Mbuf) (p : ℕ) (x : UInt16) : Mbuf := m.store (p + 6) (bytes16 x)

end Mbuf

/-- Clears the field and returns the sum that the caller stores there. -/
def twIpv4Cksum (m : Mbuf) (p : ℕ) : Mbuf × UInt16 :=
  let m := m.setIpCksum p 0
  (m, rteIpv4Cksum (m.bytesAt p sizeofIpv4Hdr))

end Twister
