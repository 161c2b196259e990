import Twister.ByteBuffer
import Twister.Outcome

/-! Packet buffers and the Ethernet and ARP headers inside them. A buffer is one
segment: its bytes, the data area in it, and the address that identifies it. Header
fields are loads and stores at the offsets of the packed structures. -/
namespace Twister

abbrev EtherAddr := Fin 6 → UInt8

def etherTypeIPv4 : UInt16 := 0x0800
def etherTypeARP : UInt16 := 0x0806
def etherTypeVLAN : UInt16 := 0x8100

def arpHrdEther : UInt16 := 1
def arpOpRequest : UInt16 := 1
def arpOpReply : UInt16 := 2

/-- The machine is little-endian, so both directions swap. -/
def rteCpuToBe16 (x : UInt16) : UInt16 := bswap16 x
def rteBeToCpu16 (x : UInt16) : UInt16 := bswap16 x
def rteCpuToBe32 (x : UInt32) : UInt32 := bswap32 x
def rteBeToCpu32 (x : UInt32) : UInt32 := bswap32 x

@[simp] lemma rteBeToCpu16_rteCpuToBe16 (x : UInt16) : rteBeToCpu16 (rteCpuToBe16 x) = x :=
  bswap16_bswap16 x
@[simp] lemma rteBeToCpu32_rteCpuToBe32 (x : UInt32) : rteBeToCpu32 (rteCpuToBe32 x) = x :=
  bswap32_bswap32 x

structure Mbuf where
  addr : ℕ
  buf : Bytes
  bufLen : ℕ
  dataOff : ℕ
  dataLen : ℕ

namespace Mbuf
variable {n k : ℕ}

/-- Loads and stores are relative to `rte_pktmbuf_mtod`. -/
def load (m : Mbuf) (off n : ℕ) : Fin n → UInt8 := m.buf.load (m.dataOff + off) n

def store (m : Mbuf) (off : ℕ) (v : Fin n → UInt8) : Mbuf :=
  { m with buf := m.buf.store (m.dataOff + off) v }

@[simp] lemma store_addr (m : Mbuf) (off : ℕ) (v : Fin n → UInt8) :
    (m.store off v).addr = m.addr := rfl
@[simp] lemma store_bufLen (m : Mbuf) (off : ℕ) (v : Fin n → UInt8) :
    (m.store off v).bufLen = m.bufLen := rfl
@[simp] lemma store_dataOff (m : Mbuf) (off : ℕ) (v : Fin n → UInt8) :
    (m.store off v).dataOff = m.dataOff := rfl
@[simp] lemma store_dataLen (m : Mbuf) (off : ℕ) (v : Fin n → UInt8) :
    (m.store off v).dataLen = m.dataLen := rfl

@[simp] lemma load_store_self (m : Mbuf) (off : ℕ) (v : Fin n → UInt8) :
    (m.store off v).load off n = v := by simp [load, store]

lemma load_store_of_disjoint (m : Mbuf) {off off' : ℕ} (v : Fin k → UInt8)
    (h : off' + n ≤ off ∨ off + k ≤ off') : (m.store off v).load off' n = m.load off' n :=
  Bytes.load_store_of_disjoint _ _ (by simp only [store_dataOff]; omega)

/-- The bytes that go on the wire. -/
def frame (m : Mbuf) : List UInt8 := List.ofFn (m.load 0 m.dataLen)

lemma frame_length (m : Mbuf) : m.frame.length = m.dataLen := by simp [frame]

end Mbuf

def frameLoad (f : List UInt8) (off n : ℕ) : Fin n → UInt8 := fun i => f.getD (off + i) 0

lemma Mbuf.load_eq_frameLoad {m : Mbuf} {off n : ℕ} (hb : off + n ≤ m.dataLen) :
    m.load off n = frameLoad m.frame off n := by
  funext i
  have hi := i.isLt
  have hlt : off + i < m.dataLen := by omega
  simp [Mbuf.frame, Mbuf.load, frameLoad, Bytes.load, List.getD_eq_getElem?_getD,
    hlt, Nat.add_assoc]

lemma Mbuf.load_congr {m m' : Mbuf} {off n : ℕ} (h : m.frame = m'.frame)
    (hb : off + n ≤ m.dataLen) : m.load off n = m'.load off n := by
  have hlen : m.dataLen = m'.dataLen := by rw [← m.frame_length, h, m'.frame_length]
  rw [load_eq_frameLoad hb, load_eq_frameLoad (hlen ▸ hb), h]

def headroom : ℕ := 128
def mbufBufLen : ℕ := 2048 + headroom

/-- A buffer fresh from its pool is empty and holds whatever its last user left. -/
def rtePktmbufAlloc (addr : ℕ) (stale : Bytes) : Mbuf := ⟨addr, stale, mbufBufLen, headroom, 0⟩

def rtePktmbufAppend (m : Mbuf) (len : ℕ) : Mbuf :=
  if len > m.bufLen - m.dataOff - m.dataLen then m
  else { m with dataLen := (m.dataLen + len) % 65536 }

def rtePktmbufPrepend (m : Mbuf) (len : ℕ) : Mbuf :=
  if len > m.dataOff then m
  else { m with dataOff := m.dataOff - len, dataLen := (m.dataLen + len) % 65536 }

def rtePktmbufAdj (m : Mbuf) (len : ℕ) : Option Mbuf :=
  if len > m.dataLen then none
  else some { m with dataOff := m.dataOff + len, dataLen := m.dataLen - len }

lemma rtePktmbufAppend_addr (m : Mbuf) (len : ℕ) : (rtePktmbufAppend m len).addr = m.addr := by
  unfold rtePktmbufAppend
  split <;> rfl

lemma rtePktmbufPrepend_addr (m : Mbuf) (len : ℕ) : (rtePktmbufPrepend m len).addr = m.addr := by
  unfold rtePktmbufPrepend
  split <;> rfl

lemma rtePktmbufPrepend_load {m : Mbuf} {len off n : ℕ} (hr : len ≤ m.dataOff) (ho : len ≤ off) :
    (rtePktmbufPrepend m len).load off n = m.load (off - len) n := by
  unfold rtePktmbufPrepend
  rw [if_neg (Nat.not_lt.mpr hr)]
  simp only [Mbuf.load]
  congr 1
  omega

section EtherHeader

def sizeofEtherHdr : ℕ := 14
def sizeofVlanHdr : ℕ := 4

namespace Mbuf

def dAddr (m : Mbuf) : EtherAddr := m.load 0 6
def sAddr (m : Mbuf) : EtherAddr := m.load 6 6
def etherType (m : Mbuf) : UInt16 := le16 (m.load 12 2)
def setDAddr (m : Mbuf) (a : EtherAddr) : Mbuf := m.store 0 a
def setSAddr (m : Mbuf) (a : EtherAddr) : Mbuf := m.store 6 a
def setEtherType (m : Mbuf) (t : UInt16) : Mbuf := m.store 12 (bytes16 t)

end Mbuf

def rteVlanStrip (m : Mbuf) : Outcome Mbuf :=
  if m.etherType ≠ rteCpuToBe16 etherTypeVLAN then .ret m
  else match rtePktmbufAdj m sizeofVlanHdr with
    -- the two addresses are moved to a null pointer
    | none => .fault
    | some m' => .ret (m'.store 0 (m.load 0 12))

end EtherHeader

section ArpHeader

def sizeofArpHdr : ℕ := 28

namespace Mbuf

/-- Fields of the ARP header that starts `p` bytes into the data area. -/
def arpOp (m : Mbuf) (p : ℕ) : UInt16 := le16 (m.load (p + 6) 2)
def arpSha (m : Mbuf) (p : ℕ) : EtherAddr := m.load (p + 8) 6
def arpSip (m : Mbuf) (p : ℕ) : UInt32 := le32 (m.load (p + 14) 4)
def arpTha (m : Mbuf) (p : ℕ) : EtherAddr := m.load (p + 18) 6
def arpTip (m : Mbuf) (p : ℕ) : UInt32 := le32 (m.load (p + 24) 4)

def setArpHrd (m : Mbuf) (p : ℕ) (x : UInt16) : Mbuf := m.store p (bytes16 x)
def setArpPro (m : Mbuf) (p : ℕ) (x : UInt16) : Mbuf := m.store (p + 2) (bytes16 x)
def setArpHln (m : Mbuf) (p : ℕ) (x : UInt8) : Mbuf := m.store (p + 4) fun _ : Fin 1 => x
def setArpPln (m : Mbuf) (p : ℕ) (x : UInt8) : Mbuf := m.store (p + 5) fun _ : Fin 1 => x
def setArpOp (m : Mbuf) (p : ℕ) (x : UInt16) : Mbuf := m.store (p + 6) (bytes16 x)
def setArpSha (m : Mbuf) (p : ℕ) (a : EtherAddr) : Mbuf := m.store (p + 8) a
def setArpSip (m : Mbuf) (p : ℕ) (x : UInt32) : Mbuf := m.store (p + 14) (bytes32 x)
def setArpTha (m : Mbuf) (p : ℕ) (a : EtherAddr) : Mbuf := m.store (p + 18) a
def setArpTip (m : Mbuf) (p : ℕ) (x : UInt32) : Mbuf := m.store (p + 24) (bytes32 x)

end Mbuf
end ArpHeader

/-- What becomes of a packet that a function owned: `rte_pktmbuf_free` or
`tw_add_pkt_to_tx_queue`. -/
inductive PktEffect
  | free (pkt : Mbuf)
  | addToTxQueue (pkt : Mbuf) (portId : UInt8)

namespace PktEffect

def sent : List PktEffect → List (Mbuf × UInt8)
  | [] => []
  | free _ :: es => sent es
  | addToTxQueue m portId :: es => (m, portId) :: sent es

end PktEffect
end Twister
