import Twister.LcoreConf
import Twister.Run

/-! Transmit buffering of one engine: packets are collected per port and handed to
the device in bursts, when a buffer is full or when the drain timer fires. -/
namespace Twister

/-- The counters of `tw_stats` that sending and receiving update. -/
structure TwStats where
  pktsRx : UInt64
  pktsTx : UInt64
  pktsDropped : UInt64
  deriving DecidableEq, Repr

structure TxState (μ : Type) where
  conf : LcoreConf μ
  stats : TwStats
  prevTsc : UInt64

/-- A packet leaves its buffer into the device or back into its pool. -/
inductive TxEvent (μ : Type)
  | accepted (port : UInt8) (m : μ)
  | dropped (port : UInt8) (m : μ)
  deriving DecidableEq, Repr

/-- The device takes some prefix of every burst it is offered. -/
structure Nic where
  accept : UInt8 → ℕ → ℕ
  accept_le : ∀ port n, accept port n ≤ n

variable {μ : Type}

/-- The value of an `int` read as `unsigned`. -/
def asUnsigned (x : Int) : ℕ := (x % 4294967296).toNat

def txSlot (port : ℕ) : Outcome (Fin maxEthPorts) :=
  if h : port < maxEthPorts then .ret ⟨port, h⟩ else .fault

namespace MbufTable

def entry (t : MbufTable μ) (i : ℕ) : Outcome μ :=
  if h : i < maxTxPktBurst then .ret (t.mTable ⟨i, h⟩) else .fault

def setEntry (t : MbufTable μ) (i : ℕ) (m : μ) : Outcome (MbufTable μ) :=
  if h : i < maxTxPktBurst then .ret { t with mTable := Function.update t.mTable ⟨i, h⟩ m }
  else .fault

def first (t : MbufTable μ) (n : ℕ) : List μ := ((List.finRange maxTxPktBurst).take n).map t.mTable

def readFirst (t : MbufTable μ) (n : ℕ) : Outcome (List μ) :=
  if n ≤ maxTxPktBurst then .ret (t.first n) else .fault

def buffered (t : MbufTable μ) : List μ := t.first t.len.toNat

end MbufTable

namespace LcoreConf

def setTable (c : LcoreConf μ) (p : Fin maxEthPorts) (t : MbufTable μ) : LcoreConf μ :=
  { c with txMbufs := Function.update c.txMbufs p t }

def setLen (c : LcoreConf μ) (p : Fin maxEthPorts) (len : Int) : LcoreConf μ :=
  c.setTable p { c.txMbufs p with len := len }

end LcoreConf

/-- `do { rte_pktmbuf_free(m_table[ret]); } while (++ret < n);` with the packets it
frees and the final index. -/
def freeTail (t : MbufTable μ) (n : ℕ) : ℕ → ℕ → Outcome (List μ × ℕ)
  | 0, _ => .timeout
  | fuel + 1, ret => do
    let m ← t.entry ret
    if ret + 1 < n then do
      let rest ← freeTail t n fuel (ret + 1)
      .ret (m :: rest.1, rest.2)
    else .ret ([m], ret + 1)

def twSendBurst (nic : Nic) (st : TxState μ) (n : ℕ) (port : UInt8) :
    Outcome (TxState μ × List (TxEvent μ)) := do
  let p ← txSlot port.toNat
  let table := st.conf.txMbufs p
  let ret := nic.accept port (n % 65536)
  let taken ← table.readFirst ret
  let stats := { st.stats with pktsTx := st.stats.pktsTx + UInt64.ofNat ret }
  if ret < n then do
    let tail ← freeTail table n n ret
    -- the loop has moved the index up to n
    let stats := { stats with
      pktsDropped := stats.pktsDropped + (UInt64.ofNat n - UInt64.ofNat tail.2) }
    .ret ({ st with stats := stats }, taken.map (.accepted port) ++ tail.1.map (.dropped port))
  else .ret ({ st with stats := stats }, taken.map (.accepted port))

def burstTxDrainUs : UInt64 := 200
def usPerS : UInt64 := 1000000
def drainTsc (hz : UInt64) : UInt64 := (hz + usPerS - 1) / usPerS * burstTxDrainUs

def drainPort (nic : Nic) (curTsc : UInt32) (st : TxState μ) (portid : ℕ) :
    Outcome (TxState μ × List (TxEvent μ)) := do
  let p ← txSlot portid
  let len := (st.conf.txMbufs p).len
  if len = 0 then .ret (st, [])
  else do
    let sent ← twSendBurst nic st (asUnsigned len) (UInt8.ofNat portid)
    .ret ({ sent.1 with conf := sent.1.conf.setLen p 0, prevTsc := curTsc.toUInt64 }, sent.2)

/-- Cycles since the last flush, in the 32 bits the source keeps of them. -/
def diffTsc (tsc prevTsc : UInt64) : UInt32 := (tsc.toUInt32.toUInt64 - prevTsc).toUInt32

def twTimelyBurst (hz : UInt64) (nic : Nic) (tsc : UInt64) (st : TxState μ) :
    Outcome (TxState μ × List (TxEvent μ)) :=
  if (diffTsc tsc st.prevTsc).toUInt64 > drainTsc hz then
    -- the counter of the managed ports is used as a device port id
    runOps (drainPort nic tsc.toUInt32) st (List.range st.conf.numPort.toNat)
  else .ret (st, [])

def twAddPktToTxQueue (nic : Nic) (st : TxState μ) (m : μ) (port : UInt8) :
    Outcome (TxState μ × List (TxEvent μ)) := do
  let p ← txSlot port.toNat
  let len := asUnsigned (st.conf.txMbufs p).len
  let table ← (st.conf.txMbufs p).setEntry len m
  let st := { st with conf := st.conf.setTable p table }
  if len + 1 = maxTxPktBurst then do
    let sent ← twSendBurst nic st maxTxPktBurst port
    .ret ({ sent.1 with conf := sent.1.conf.setLen p 0 }, sent.2)
  else .ret ({ st with conf := st.conf.setLen p (len + 1) }, [])

end Twister
