import Twister.ArpLogic
import Twister.LcoreConf
import Twister.Run
import Twister.Tx

/-! The receive phase of one event loop iteration: a burst from each managed port,
and the dispatch of every packet on its ether type. -/
namespace Twister

def maxRxPktBurst : ℕ := 32

/-- A received packet, and the allocator as it stands when the packet is handled. -/
structure RxPkt where
  pkt : Mbuf
  mem : Malloc (Node ArpEntry)

/-- What each call of `rte_eth_rx_burst` yields: the port asked and the how manieth
call of the iteration it is. -/
structure RxDevice where
  rteEthRxBurst : UInt8 → ℕ → List RxPkt
  burst_le : ∀ port k, (rteEthRxBurst port k).length ≤ maxRxPktBurst

structure RxSlot where
  portid : UInt8
  mTable : List RxPkt

variable {μ : Type}

def rxSlots (dev : RxDevice) (conf : LcoreConf μ) :
    List ℕ → UInt32 → TwStats → Outcome (List RxSlot × UInt32 × TwStats)
  | [], total, stats => .ret ([], total, stats)
  | i :: is, total, stats =>
    if h : i < maxEthPorts then do
      let port := conf.managedPort ⟨i, h⟩
      let pkts := dev.rteEthRxBurst port i
      let (rest, total, stats) ← rxSlots dev conf is (total + UInt32.ofNat pkts.length)
        { stats with pktsRx := stats.pktsRx + UInt64.ofNat pkts.length }
      .ret (⟨port, pkts⟩ :: rest, total, stats)
    else .fault

def twRxForEachQueue (dev : RxDevice) (conf : LcoreConf μ) (stats : TwStats) :
    Outcome (List RxSlot × UInt32 × TwStats) :=
  rxSlots dev conf (List.range conf.numPort.toNat) 0 stats

/-- The buffer description handed to the application. `portName` is the entry of the
port table whose name array it points to. -/
structure TwBuf where
  pkt : Mbuf
  data : ℕ
  size : UInt16
  portName : Fin maxEthPorts

/-- The registered receive handle. Its callback may change the ARP table but leaves a
well-formed list. -/
structure RxHandle where
  recvCb : TwBuf → ArpState → ArpState
  keeps : ∀ buf st xs, st.Lists xs → ∃ xs', (recvCb buf st).Lists xs'

/-- The calls that the dispatch makes, with the ARP table before and after a parse
and what the parse did with the packet. -/
inductive RxCall
  | parseArp (pkt : Mbuf) (portId : UInt8) (before after : ArpState) (es : List PktEffect)
  | recvCb (buf : TwBuf)

/-- `case ETHER_TYPE_VLAN: rte_vlan_strip(pkt); goto label;` -/
def untag : ℕ → Mbuf → Outcome Mbuf
  | 0, _ => .timeout
  | fuel + 1, pkt =>
    if rteBeToCpu16 pkt.etherType = etherTypeVLAN then do
      let pkt ← rteVlanStrip pkt
      untag fuel pkt
    else .ret pkt

structure RxItem where
  slot : ℕ
  portid : UInt8
  rx : RxPkt

def rxItems (m : List RxSlot) : List RxItem :=
  m.zipIdx.flatMap fun x => x.1.mTable.map fun rx => ⟨x.2, x.1.portid, rx⟩

def dispatch (ports : PortTable) (handle : RxHandle) (st : ArpState) (item : RxItem) :
    Outcome (ArpState × List RxCall) := do
  let pkt ← untag (item.rx.pkt.dataLen + 1) item.rx.pkt
  let ethType := rteBeToCpu16 pkt.etherType
  if ethType = etherTypeARP then do
    -- the slot is passed where a device port id is expected
    let (_, st', es) ← twParseArp ports item.rx.mem st pkt (UInt8.ofNat item.slot)
    .ret (st', [.parseArp pkt (UInt8.ofNat item.slot) st st' es])
  else if ethType = etherTypeIPv4 then
    if h : item.slot < maxEthPorts then
      let buf : TwBuf := ⟨pkt, pkt.dataOff, UInt16.ofNat pkt.dataLen, ⟨item.slot, h⟩⟩
      .ret (handle.recvCb buf st, [.recvCb buf])
    else .fault
  -- the switch has no default case
  else .ret (st, [])

def rxPhase (dev : RxDevice) (ports : PortTable) (handle : RxHandle) (conf : LcoreConf μ)
    (stats : TwStats) (st : ArpState) : Outcome (TwStats × ArpState × List RxCall) := do
  let (m, numRxPkts, stats) ← twRxForEachQueue dev conf stats
  -- the count comes back as an int
  if 0 < numRxPkts.toInt32 then
    let (st, calls) ← runOps (dispatch ports handle) st (rxItems m)
    .ret (stats, st, calls)
  else .ret (stats, st, [])

section Slots
variable {dev : RxDevice} {conf : LcoreConf μ}

def slotsOf (dev : RxDevice) (managed : List UInt8) : List RxSlot :=
  managed.zipIdx.map fun x => ⟨x.1, dev.rteEthRxBurst x.1 x.2⟩

def received (dev : RxDevice) (managed : List UInt8) : List RxItem := rxItems (slotsOf dev managed)

def slotAt (dev : RxDevice) (conf : LcoreConf μ) (i : Fin maxEthPorts) : RxSlot :=
  ⟨conf.managedPort i, dev.rteEthRxBurst (conf.managedPort i) i⟩

def pktCount (m : List RxSlot) : ℕ := (m.map fun s => s.mTable.length).sum

lemma rxItems_length (m : List RxSlot) : (rxItems m).length = pktCount m := by
  have hlen : ∀ k, ((m.zipIdx k).flatMap fun x =>
      x.1.mTable.map fun rx => (⟨x.2, x.1.portid, rx⟩ : RxItem)).length = pktCount m := by
    induction m with
    | nil => intro k; rfl
    | cons s m ih => intro k; simp [ih, pktCount]
  exact hlen 0

lemma rxSlots_eq (dev : RxDevice) (conf : LcoreConf μ) (is : List (Fin maxEthPorts))
    (total : UInt32) (stats : TwStats) :
    ∃ stats', rxSlots dev conf (is.map Fin.val) total stats =
      .ret (is.map (slotAt dev conf), total + UInt32.ofNat (pktCount (is.map (slotAt dev conf))),
        stats') := by
  induction is generalizing total stats with
  | nil => exact ⟨stats, by simp [rxSlots, pktCount]⟩
  | cons i is ih =>
    obtain ⟨stats', hrest⟩ := ih (total + UInt32.ofNat (slotAt dev conf i).mTable.length)
      { stats with pktsRx := stats.pktsRx + UInt64.ofNat (slotAt dev conf i).mTable.length }
    refine ⟨stats', ?_⟩
    have hrun : rxSlots dev conf ((i :: is).map Fin.val) total stats = (do
        let r ← rxSlots dev conf (is.map Fin.val)
          (total + UInt32.ofNat (slotAt dev conf i).mTable.length)
          { stats with pktsRx := stats.pktsRx + UInt64.ofNat (slotAt dev conf i).mTable.length }
        .ret (slotAt dev conf i :: r.1, r.2.1, r.2.2)) := by
      rw [List.map_cons, rxSlots, dif_pos i.isLt]
      rfl
    rw [hrun, hrest, Outcome.ret_bind]
    simp [pktCount, UInt32.ofNat_add, add_assoc]

lemma range_eq_finRange {n : ℕ} (hn : n ≤ maxEthPorts) :
    List.range n = ((List.finRange maxEthPorts).take n).map Fin.val := by
  rw [List.map_take, List.map_coe_finRange_eq_range, List.take_range, Nat.min_eq_left hn]

lemma slotsOf_managed (hn : conf.numPort.toNat ≤ maxEthPorts) :
    slotsOf dev conf.managed =
      ((List.finRange maxEthPorts).take conf.numPort.toNat).map (slotAt dev conf) := by
  refine List.ext_getElem? fun k => ?_
  by_cases hk : k < conf.numPort.toNat
  · have hk8 : k < maxEthPorts := by omega
    simp [slotsOf, LcoreConf.managed, slotAt, hk, hk8]
  · simp [slotsOf, LcoreConf.managed, hk]

lemma twRxForEachQueue_eq (dev : RxDevice) (hn : conf.numPort.toNat ≤ maxEthPorts)
    (stats : TwStats) :
    ∃ stats', twRxForEachQueue dev conf stats =
      .ret (slotsOf dev conf.managed, UInt32.ofNat (received dev conf.managed).length, stats') := by
  obtain ⟨stats', h⟩ := rxSlots_eq dev conf
    ((List.finRange maxEthPorts).take conf.numPort.toNat) 0 stats
  refine ⟨stats', ?_⟩
  rw [twRxForEachQueue, range_eq_finRange hn, h, received, rxItems_length, slotsOf_managed hn,
    zero_add]

lemma pktCount_le (m : List RxSlot) (h : ∀ s ∈ m, s.mTable.length ≤ maxRxPktBurst) :
    pktCount m ≤ m.length * maxRxPktBurst := by
  induction m with
  | nil => rfl
  | cons s m ih =>
    have hs := h s (by simp)
    have hm := ih fun t ht => h t (by simp [ht])
    simp only [pktCount, List.map_cons, List.sum_cons, List.length_cons, Nat.add_mul] at hm ⊢
    omega

lemma received_length_le (dev : RxDevice) (hn : conf.numPort.toNat ≤ maxEthPorts) :
    (received dev conf.managed).length ≤ 256 := by
  have hle := pktCount_le (slotsOf dev conf.managed) fun s hs => by
    obtain ⟨x, -, rfl⟩ := List.mem_map.mp hs
    exact dev.burst_le x.1 x.2
  rw [received, rxItems_length]
  have hlen : (slotsOf dev conf.managed).length = conf.numPort.toNat := by
    rw [slotsOf, List.length_map, List.length_zipIdx, LcoreConf.managed_length hn]
  have hmax : maxEthPorts = 8 := rfl
  have hburst : maxRxPktBurst = 32 := rfl
  rw [hlen, hburst] at hle
  omega

lemma toInt32_pos_iff {n : ℕ} (hn : n < 2 ^ 31) : 0 < (UInt32.ofNat n).toInt32 ↔ 0 < n := by
  have hint : (UInt32.ofNat n).toInt32.toInt = n := by
    change (BitVec.ofNat 32 n).toInt = n
    rw [BitVec.toInt_eq_toNat_of_lt (by simp; omega)]
    simp
    omega
  rw [Int32.lt_iff_toInt_lt, hint]
  simp

lemma rxPhase_eq (dev : RxDevice) (hn : conf.numPort.toNat ≤ maxEthPorts) (ports : PortTable)
    (handle : RxHandle) (stats : TwStats) (st : ArpState) :
    ∃ stats', rxPhase dev ports handle conf stats st = (do
      let r ← runOps (dispatch ports handle) st (received dev conf.managed)
      .ret (stats', r.1, r.2)) := by
  obtain ⟨stats', hrx⟩ := twRxForEachQueue_eq dev hn stats
  refine ⟨stats', ?_⟩
  have hle := received_length_le dev hn
  have hpos := toInt32_pos_iff (n := (received dev conf.managed).length) (by omega)
  simp only [rxPhase, hrx, Outcome.ret_bind]
  by_cases hany : 0 < (received dev conf.managed).length
  · rw [if_pos (hpos.mpr hany)]
    rfl
  · have hnil : received dev conf.managed = [] := List.eq_nil_of_length_eq_zero (by omega)
    rw [if_neg fun h => hany (hpos.mp h), hnil]
    rfl

end Slots

section Untag

lemma etherType_of_vlan {m : Mbuf} (hv : rteBeToCpu16 m.etherType = etherTypeVLAN) :
    m.etherType = rteCpuToBe16 etherTypeVLAN := by
  rw [← hv, rteCpuToBe16, rteBeToCpu16, bswap16_bswap16]

lemma rteVlanStrip_fault {m : Mbuf} (hv : rteBeToCpu16 m.etherType = etherTypeVLAN)
    (hlen : ¬ sizeofVlanHdr ≤ m.dataLen) : rteVlanStrip m = .fault := by
  have hadj : rtePktmbufAdj m sizeofVlanHdr = none := if_pos (Nat.not_le.mp hlen)
  simp only [rteVlanStrip, etherType_of_vlan hv, ne_eq, not_true_eq_false, if_false, hadj]

lemma rteVlanStrip_ret {m : Mbuf} (hv : rteBeToCpu16 m.etherType = etherTypeVLAN)
    (hlen : sizeofVlanHdr ≤ m.dataLen) :
    ∃ m', rteVlanStrip m = .ret m' ∧ m'.addr = m.addr ∧ m'.dataLen = m.dataLen - sizeofVlanHdr ∧
      m'.etherType = le16 (m.load 16 2) := by
  have hadj : rtePktmbufAdj m sizeofVlanHdr = some (Mbuf.mk m.addr m.buf m.bufLen
      (m.dataOff + sizeofVlanHdr) (m.dataLen - sizeofVlanHdr)) := if_neg (Nat.not_lt.mpr hlen)
  refine ⟨Mbuf.store (Mbuf.mk m.addr m.buf m.bufLen (m.dataOff + sizeofVlanHdr)
    (m.dataLen - sizeofVlanHdr)) 0 (m.load 0 12), ?_, rfl, rfl, ?_⟩
  · simp only [rteVlanStrip, etherType_of_vlan hv, ne_eq, not_true_eq_false, if_false, hadj]
  · rw [Mbuf.etherType, Mbuf.load_store_of_disjoint _ _ (by omega)]
    rfl

lemma rteVlanStrip_addr {m m' : Mbuf} (h : rteVlanStrip m = .ret m') : m'.addr = m.addr := by
  unfold rteVlanStrip at h
  split at h
  · cases h
    rfl
  · cases hadj : rtePktmbufAdj m sizeofVlanHdr with
    | none =>
      rw [hadj] at h
      cases h
    | some m₁ =>
      rw [hadj] at h
      cases h
      unfold rtePktmbufAdj at hadj
      split at hadj
      · cases hadj
      · cases hadj
        rfl

lemma untag_addr {fuel : ℕ} {m m' : Mbuf} (h : untag fuel m = .ret m') : m'.addr = m.addr := by
  induction fuel generalizing m with
  | zero => cases h
  | succ fuel ih =>
    unfold untag at h
    split at h
    · obtain ⟨m₁, hs, hrest⟩ := Outcome.bind_eq_ret.mp h
      rw [ih hrest, rteVlanStrip_addr hs]
    · cases h
      rfl

/-- The loop over the tags ends, at the latest with a fault behind the frame. -/
lemma untag_ret_or_fault {fuel : ℕ} {m : Mbuf} (hf : m.dataLen < fuel) :
    (∃ m', untag fuel m = .ret m') ∨ untag fuel m = .fault := by
  induction fuel generalizing m with
  | zero => omega
  | succ fuel ih =>
    unfold untag
    by_cases hv : rteBeToCpu16 m.etherType = etherTypeVLAN
    · rw [if_pos hv]
      by_cases hlen : sizeofVlanHdr ≤ m.dataLen
      · obtain ⟨m', hstrip, -, hdata, -⟩ := rteVlanStrip_ret hv hlen
        rw [hstrip, Outcome.ret_bind]
        have hsize : sizeofVlanHdr = 4 := rfl
        exact ih (by omega)
      · rw [rteVlanStrip_fault hv hlen]
        exact Or.inr rfl
    · rw [if_neg hv]
      exact Or.inl ⟨m, rfl⟩

end Untag
end Twister
