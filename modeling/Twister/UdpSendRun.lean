import Twister.AppLoop
import Twister.MbufOwner
import Twister.UdpEcho
import Twister.UdpSend

/-! Runs of the UDP sender. Its transmit callback looks for the server in the ARP table, asks for
it, and from then on writes one buffer and queues it over and over. The seconds by which it asks
again and stops are counted by a call that the sender never makes. -/
namespace Twister.UdpSend

section Model

/-- What the start of `main` sets. -/
structure Sender extends Tw0App where
  userParams : UserParams
  ppsdelay : UInt64
  ipv4Tw0 : UInt32

/-- The globals. `dstEthAddr` is the address in the ARP entry found, `secsPassed` the field of
`tw_stats`. -/
structure SendState where
  prevStatsCalc : UInt64
  arpSecs : UInt64
  totalArps : UInt32
  dstEthAddr : Option EtherAddr
  txBuf : TwBuf
  secsPassed : UInt64

def packetLimit : UInt64 := 0

def fillDatagram (app : Sender) (dst : EtherAddr) (size : UInt16) (m : Mbuf) : Mbuf :=
  let ip := sizeofEtherHdr
  let udp := sizeofEtherHdr + sizeofIpv4Hdr
  let m := m.setUdpSrc udp (rteCpuToBe16 7777)
  let m := m.setUdpDst udp (rteCpuToBe16 app.userParams.serverPort)
  let m := m.setUdpLen udp
    (rteCpuToBe16 (size - UInt16.ofNat sizeofEtherHdr - UInt16.ofNat sizeofIpv4Hdr))
  let m := m.setUdpCksum udp 0
  let m := m.setIpTotalLength ip (rteCpuToBe16 (size - UInt16.ofNat sizeofEtherHdr))
  let m := m.setIpProto ip udpProtoId
  let m := m.setIpSrc ip app.ipv4Tw0
  let m := m.setIpDst ip (rteCpuToBe32 app.userParams.serverIp)
  let m := m.setIpVersionIhl ip 0x45
  let m := m.setIpTtl ip 63
  let (m, cksum) := twIpv4Cksum m ip
  let m := m.setIpCksum ip cksum
  let m := m.setEtherType (rteCpuToBe16 etherTypeIPv4)
  let m := m.setDAddr dst
  m.setSAddr app.mac

/-- What a call that is due and within the limits does. -/
def transmit (app : Sender) (pools : MbufPools) (arp : ArpState) (st : SendState) :
    Outcome (SendState × List PktEffect) :=
  match st.dstEthAddr with
  | none => do
    match ← twSearchArpTable arp (rteBeToCpu32 app.userParams.serverIp) with
    | none =>
      if st.arpSecs ≠ st.secsPassed then do
        let (_, es) ← twConstructArpPacket app.ports pools app.userParams.serverIp app.tw0Id
        .ret ({ st with arpSecs := st.secsPassed, totalArps := st.totalArps + 1 }, es)
      else .ret (st, [])
    | some a => do
      let entry ← arp.heap.load (some a)
      .ret ({ st with dstEthAddr := some entry.val.ethMac }, [])
  | some dst =>
    let txBuf := st.txBuf.edit (fillDatagram app dst st.txBuf.size)
    .ret ({ st with txBuf }, [.addToTxQueue txBuf.pkt app.tw0Id])

def pktTx (app : Sender) (currTimeCycle pktsTx : UInt64) (pools : MbufPools) (arp : ArpState)
    (st : SendState) : Outcome (SendState × List PktEffect) :=
  if currTimeCycle - st.prevStatsCalc > app.ppsdelay then
    let st := { st with prevStatsCalc := currTimeCycle }
    if (pktsTx < packetLimit ∨ packetLimit = 0) ∧
        (st.secsPassed < app.userParams.testRuntime.toUInt64 ∨ app.userParams.testRuntime = 0) then
      transmit app pools arp st
    else .ret (st, [])
  else .ret (st, [])

/-- The sender with the ARP table and the last reading of the clock. -/
structure Sys where
  app : SendState
  arp : ArpState
  clock : UInt64

inductive Op
  | tx (currTimeCycle pktsTx : UInt64) (pools : MbufPools)
  | rx (pkt : Mbuf) (slot : Fin maxEthPorts) (mem : Malloc (Node ArpEntry))

/-- What the transmit callback has done with a packet, and when. -/
structure Queued where
  time : UInt64
  effect : PktEffect

/-- The branch of `pkt_rx` for ARP is never taken: the loop parses ARP itself and hands out IPv4
only. -/
def pktRx (buffer : TwBuf) : List (AppEvent Queued) :=
  [.handled buffer.portName buffer.pkt (.free buffer.pkt)]

def step (app : Sender) (s : Sys) : Op → Outcome (Sys × List (AppEvent Queued))
  | .tx currTimeCycle pktsTx pools => do
    let (st, es) ← pktTx app currTimeCycle pktsTx pools s.arp s.app
    .ret (⟨st, s.arp, currTimeCycle⟩, es.map fun e => .sent ⟨currTimeCycle, e⟩)
  | .rx pkt slot mem => do
    let (arp, es) ← appReceive app.ports pktRx mem s.arp pkt slot
    .ret ({ s with arp }, es)

/-- The clock does not go back. -/
def Legal (s : Sys) (_ : List (AppEvent Queued)) : Op → Prop
  | .tx currTimeCycle _ _ => s.clock ≤ currTimeCycle
  | .rx _ _ _ => True

end Model

section Calls
variable {app : Sender} {pools : MbufPools} {arp : ArpState} {st st' : SendState}
  {es : List PktEffect}

/-- The limits never keep a call from transmitting while no second has been counted. -/
lemma pktTx_eq (hsecs : st.secsPassed = 0) (currTimeCycle pktsTx : UInt64) :
    pktTx app currTimeCycle pktsTx pools arp st =
      if currTimeCycle - st.prevStatsCalc > app.ppsdelay then
        transmit app pools arp { st with prevStatsCalc := currTimeCycle }
      else .ret (st, []) := by
  have hlimits : (pktsTx < packetLimit ∨ packetLimit = 0) ∧
      (st.secsPassed < app.userParams.testRuntime.toUInt64 ∨ app.userParams.testRuntime = 0) := by
    refine ⟨Or.inr rfl, ?_⟩
    by_cases hzero : app.userParams.testRuntime = 0
    · exact Or.inr hzero
    · left
      rw [hsecs, UInt64.lt_iff_toNat_lt, UInt32.toNat_toUInt64]
      exact Nat.pos_of_ne_zero fun h => hzero (UInt32.toNat.inj h)
  unfold pktTx
  dsimp only
  rw [if_pos hlimits]

/-- The packets of the callback: what a datagram has of the server. -/
structure IsDatagram (app : Sender) (dst : EtherAddr) (m : Mbuf) : Prop where
  etherType : m.etherType = rteCpuToBe16 etherTypeIPv4
  dAddr : m.dAddr = dst
  sAddr : m.sAddr = app.mac
  ipProto : m.ipProto sizeofEtherHdr = udpProtoId
  ipSrc : m.ipSrc sizeofEtherHdr = app.ipv4Tw0
  ipDst : m.ipDst sizeofEtherHdr = rteCpuToBe32 app.userParams.serverIp
  udpDst : m.udpDst (sizeofEtherHdr + sizeofIpv4Hdr) = rteCpuToBe16 app.userParams.serverPort

lemma fillDatagram_isDatagram (app : Sender) (dst : EtherAddr) (size : UInt16) (m : Mbuf) :
    IsDatagram app dst (fillDatagram app dst size m) := by
  simp only [fillDatagram, twIpv4Cksum]
  generalize rteIpv4Cksum _ = cksum
  constructor
  all_goals
    simp (disch := decide) only [Mbuf.etherType, Mbuf.setEtherType, Mbuf.dAddr, Mbuf.setDAddr,
      Mbuf.sAddr, Mbuf.setSAddr, Mbuf.ipProto, Mbuf.setIpProto, Mbuf.ipSrc, Mbuf.setIpSrc,
      Mbuf.ipDst, Mbuf.setIpDst, Mbuf.udpDst, Mbuf.setUdpDst, Mbuf.setUdpSrc, Mbuf.setUdpLen,
      Mbuf.setUdpCksum, Mbuf.setIpTotalLength, Mbuf.setIpVersionIhl, Mbuf.setIpTtl,
      Mbuf.setIpCksum, Mbuf.load_store_self, Mbuf.load_store_of_disjoint, le16_bytes16,
      le32_bytes32]

lemma fillDatagram_frame (app : Sender) (dst : EtherAddr) (size : UInt16) (m : Mbuf) :
    (fillDatagram app dst size m).addr = m.addr ∧
      (fillDatagram app dst size m).dataOff = m.dataOff := by
  simp only [fillDatagram, twIpv4Cksum, Mbuf.setEtherType, Mbuf.setDAddr, Mbuf.setSAddr,
    Mbuf.setIpProto, Mbuf.setIpSrc, Mbuf.setIpDst, Mbuf.setUdpDst, Mbuf.setUdpSrc, Mbuf.setUdpLen,
    Mbuf.setUdpCksum, Mbuf.setIpTotalLength, Mbuf.setIpVersionIhl, Mbuf.setIpTtl,
    Mbuf.setIpCksum, Mbuf.store_addr, Mbuf.store_dataOff, and_self]

/-- What a call queues: nothing, a request for the server while its address is unknown, or the
buffer with a datagram. -/
inductive Transmits (app : Sender) (arp : ArpState) (st : SendState) :
    SendState → List PktEffect → Prop
  | asks {m : Mbuf} (hdst : st.dstEthAddr = none) (hsecs : st.arpSecs ≠ st.secsPassed)
      (hrequest : IsRequest (app.ports app.port) app.userParams.serverIp m) :
      Transmits app arp st
        { st with arpSecs := st.secsPassed, totalArps := st.totalArps + 1 }
        [.addToTxQueue m app.tw0Id]
  | waits (hdst : st.dstEthAddr = none) : Transmits app arp st st []
  | finds {e : ArpEntry}
      (hentry : arp.entry (rteBeToCpu32 app.userParams.serverIp) = .ret (some e)) :
      Transmits app arp st { st with dstEthAddr := some e.ethMac } []
  | sends {dst : EtherAddr} (hdst : st.dstEthAddr = some dst) :
      Transmits app arp st
        { st with txBuf := st.txBuf.edit (fillDatagram app dst st.txBuf.size) }
        [.addToTxQueue (st.txBuf.edit (fillDatagram app dst st.txBuf.size)).pkt app.tw0Id]

lemma transmit_cases (h : transmit app pools arp st = .ret (st', es)) :
    Transmits app arp st st' es := by
  unfold transmit at h
  split at h
  · rename_i hdst
    obtain ⟨found, hfound, h⟩ := Outcome.bind_eq_ret.mp h
    cases found with
    | some a =>
      obtain ⟨node, hnode, h⟩ := Outcome.bind_eq_ret.mp h
      obtain ⟨rfl, rfl⟩ := Prod.mk.inj (Outcome.ret.inj h)
      exact .finds (ArpState.entry_eq_some.mpr ⟨a, node, hfound, hnode, rfl⟩)
    | none =>
      dsimp only at h
      split at h
      · rename_i hsecs
        obtain ⟨⟨code, fs⟩, hrequest, h⟩ := Outcome.bind_eq_ret.mp h
        obtain ⟨rfl, rfl⟩ := Prod.mk.inj (Outcome.ret.inj h)
        unfold twConstructArpPacket at hrequest
        dsimp only at hrequest
        split at hrequest
        · cases hrequest
        · rename_i addr stale hpool
          rw [app.tw0Id_eq, portInfo_portByte, Outcome.ret_bind] at hrequest
          obtain ⟨-, rfl⟩ := Prod.mk.inj (Outcome.ret.inj hrequest)
          rw [← app.tw0Id_eq]
          exact .asks hdst hsecs (fillRequest_isRequest _ _ addr stale)
      · obtain ⟨rfl, rfl⟩ := Prod.mk.inj (Outcome.ret.inj h)
        exact .waits hdst
  · rename_i dst hdst
    obtain ⟨rfl, rfl⟩ := Prod.mk.inj (Outcome.ret.inj h)
    exact .sends hdst

end Calls

/-- Times more than `d` apart: `n` of them need a window of `n` times that length. -/
lemma spaced_length_le {d w n a : ℕ} {ts : List ℕ} (hspaced : ts.Pairwise fun t t' => t + d < t')
    (hwindow : ∀ t ∈ ts, a ≤ t ∧ t < a + w) (hw : w ≤ n * (d + 1)) : ts.length ≤ n := by
  induction ts generalizing a w n with
  | nil => exact Nat.zero_le n
  | cons t ts ih =>
    obtain ⟨hlater, hspaced⟩ := List.pairwise_cons.mp hspaced
    have hfirst := hwindow t List.mem_cons_self
    cases n with
    | zero => omega
    | succ n =>
      -- the others lie in the window that starts `d + 1` later
      have hrest : ∀ t' ∈ ts, a + (d + 1) ≤ t' ∧ t' < a + (d + 1) + (w - (d + 1)) := by
        intro t' ht'
        have hgap := hlater t' ht'
        have hin := hwindow t' (List.mem_cons_of_mem t ht')
        omega
      have hshort : w - (d + 1) ≤ n * (d + 1) := by
        rw [Nat.add_mul] at hw
        omega
      exact Nat.succ_le_succ (ih hspaced hrest hshort)

lemma entryOf_grows {xs xs' : List (ℕ × ArpEntry)} {ip : UInt32} {e : ArpEntry}
    (hgrows : xs <+: xs') (h : entryOf xs ip = some e) : entryOf xs' ip = some e := by
  obtain ⟨zs, rfl⟩ := hgrows
  rw [entryOf] at h ⊢
  rw [bindings, List.map_append, FirstWins.lookup_append, ← bindings, h]
  rfl

section Run
variable {app : Sender} {s s' : Sys} {es : List Queued} {evs evs' : List (AppEvent Queued)}
  {os : List Op} {b : ℕ} {hz : UInt64} {xs : List (ℕ × ArpEntry)}

/-- A call of the callback that is not due, or one that transmits. -/
lemma step_tx {now pktsTx : UInt64} {pools : MbufPools} (hsecs : s.app.secsPassed = 0)
    (h : step app s (.tx now pktsTx pools) = .ret (s', evs)) :
    (s' = { s with clock := now } ∧ evs = []) ∨
      (app.ppsdelay < now - s.app.prevStatsCalc ∧ ∃ st fs,
        Transmits app s.arp { s.app with prevStatsCalc := now } st fs ∧ s' = ⟨st, s.arp, now⟩ ∧
          evs = fs.map fun e => .sent ⟨now, e⟩) := by
  obtain ⟨⟨st, fs⟩, htx, h⟩ := Outcome.bind_eq_ret.mp h
  obtain ⟨rfl, rfl⟩ := Prod.mk.inj (Outcome.ret.inj h)
  rw [pktTx_eq hsecs] at htx
  split at htx
  · rename_i hdue
    exact Or.inr ⟨hdue, st, fs, transmit_cases htx, rfl, rfl⟩
  · obtain ⟨rfl, rfl⟩ := Prod.mk.inj (Outcome.ret.inj htx)
    exact Or.inl ⟨rfl, rfl⟩

lemma pktRx_frees : Frees pktRx := fun _ _ _ => rfl

/-- A received packet can only add to the ARP table, and is freed or answered by the loop. -/
lemma step_rx {pkt : Mbuf} {slot : Fin maxEthPorts} {mem : Malloc (Node ArpEntry)}
    (hlists : s.arp.Lists xs) (h : step app s (.rx pkt slot mem) = .ret (s', evs)) :
    (∀ ev ∈ evs, ev.Owed app.ports) ∧
      ∃ arp xs', s' = { s with arp } ∧ arp.Lists xs' ∧ xs <+: xs' := by
  obtain ⟨⟨arp, fs⟩, hreceive, h⟩ := Outcome.bind_eq_ret.mp h
  obtain ⟨rfl, rfl⟩ := Prod.mk.inj (Outcome.ret.inj h)
  obtain ⟨⟨xs', hlists', hgrows⟩, howed⟩ := appReceive_ret pktRx_frees hlists hreceive
  exact ⟨howed, arp, xs', rfl, hlists', hgrows⟩

/-- The packets of the callback that ask for an address. -/
def asked (es : List Queued) : ℕ :=
  es.countP fun q => decide (q.effect.pkt.etherType = rteCpuToBe16 etherTypeARP)

/-- What goes to the queue of `tw0`: a request for the server, or the buffer at `b` with a datagram
to the address that the table has for it. -/
def ToServer (app : Sender) (b : ℕ) (xs : List (ℕ × ArpEntry)) (q : Queued) : Prop :=
  ∃ m, q.effect = .addToTxQueue m app.tw0Id ∧
    (IsRequest (app.ports app.port) app.userParams.serverIp m ∨
      m.addr = b ∧ ∃ e, entryOf xs app.userParams.serverIp = some e ∧ IsDatagram app e.ethMac m)

/-- As long as no second has been counted, the server is asked for once, while `arp_secs` still
has its first value. -/
structure Inv (app : Sender) (b : ℕ) (_ : List Op) (s : Sys) (es : List Queued) : Prop where
  secs : s.app.secsPassed = 0
  buf : s.app.txBuf.pkt.addr = b ∧ s.app.txBuf.data = s.app.txBuf.pkt.dataOff
  asks : s.app.arpSecs ≠ 0 ∧ asked es = 0 ∨ s.app.arpSecs = 0 ∧ asked es = 1
  table : ∃ xs, s.arp.Lists xs ∧ (∀ dst, s.app.dstEthAddr = some dst →
    ∃ e, entryOf xs app.userParams.serverIp = some e ∧ e.ethMac = dst) ∧
      ∀ q ∈ es, ToServer app b xs q
  clock : s.app.prevStatsCalc ≤ s.clock
  due : ∀ q ∈ es, q.time ≤ s.app.prevStatsCalc
  paced : es.Pairwise fun q q' => q.time.toNat + app.ppsdelay.toNat < q'.time.toNat

lemma asked_append (es es' : List Queued) : asked (es ++ es') = asked es + asked es' :=
  List.countP_append

lemma asked_request {q : Queued} {info : PortInfo} {ip : UInt32}
    (h : IsRequest info ip q.effect.pkt) : asked [q] = 1 := by
  simp [asked, h.etherType]

lemma asked_datagram {q : Queued} {dst : EtherAddr} (h : IsDatagram app dst q.effect.pkt) :
    asked [q] = 0 := by
  have hne : rteCpuToBe16 etherTypeIPv4 ≠ rteCpuToBe16 etherTypeARP := by decide
  simp [asked, h.etherType, hne]

lemma Inv.due_le (hinv : Inv app b os s es) {now : UInt64} (hle : s.app.prevStatsCalc ≤ now) :
    ∀ q ∈ es, q.time ≤ now := fun q hq => UInt64.le_trans (hinv.due q hq) hle

lemma Inv.due_snoc (hinv : Inv app b os s es) {now : UInt64} (hle : s.app.prevStatsCalc ≤ now)
    (e : PktEffect) : ∀ q ∈ es ++ [⟨now, e⟩], q.time ≤ now := by
  intro q hq
  rcases List.mem_append.mp hq with hq | hq
  · exact hinv.due_le hle q hq
  · obtain rfl := List.mem_singleton.mp hq
    exact UInt64.le_refl now

/-- What is queued in a call that is due comes late enough after all that was queued before. -/
lemma Inv.paced_snoc (hinv : Inv app b os s es) {now : UInt64} (hle : s.app.prevStatsCalc ≤ now)
    (hdue : app.ppsdelay < now - s.app.prevStatsCalc) (e : PktEffect) :
    List.Pairwise (fun q q' => q.time.toNat + app.ppsdelay.toNat < q'.time.toNat)
      (es ++ [⟨now, e⟩]) := by
  rw [List.pairwise_append]
  refine ⟨hinv.paced, List.pairwise_singleton _ _, fun q hq q' hq' => ?_⟩
  obtain rfl := List.mem_singleton.mp hq'
  have hbefore := UInt64.le_iff_toNat_le.mp (hinv.due q hq)
  have hgap := UInt64.lt_iff_toNat_lt.mp hdue
  rw [UInt64.toNat_sub_of_le _ _ hle] at hgap
  show q.time.toNat + app.ppsdelay.toNat < now.toNat
  omega

/-- The buffer with the datagram in it. -/
lemma edit_fillDatagram {t t' : TwBuf} (hdata : t.data = t.pkt.dataOff) {dst : EtherAddr}
    (hedit : t.edit (fillDatagram app dst t.size) = t') :
    (t'.pkt.addr = t.pkt.addr ∧ t'.data = t'.pkt.dataOff) ∧ IsDatagram app dst t'.pkt := by
  have hframe := fillDatagram_frame app dst t.size t.pkt
  rw [TwBuf.edit_pkt hdata hframe.2] at hedit
  subst hedit
  exact ⟨⟨hframe.1, hdata.trans hframe.2.symm⟩, fillDatagram_isDatagram app dst t.size t.pkt⟩

/-- A call that is due. -/
lemma Inv.transmits (hinv : Inv app b os s es) (os' : List Op) {now : UInt64} {st : SendState}
    {fs : List PktEffect} (hlists : s.arp.Lists xs) (hle : s.app.prevStatsCalc ≤ now)
    (hdst : ∀ dst, s.app.dstEthAddr = some dst →
      ∃ e, entryOf xs app.userParams.serverIp = some e ∧ e.ethMac = dst)
    (hto : ∀ q ∈ es, ToServer app b xs q) (hdue : app.ppsdelay < now - s.app.prevStatsCalc)
    (htx : Transmits app s.arp { s.app with prevStatsCalc := now } st fs) :
    Inv app b os' ⟨st, s.arp, now⟩ (es ++ fs.map (Queued.mk now)) := by
  have hbuf := hinv.buf
  cases htx with
  | @asks m hnone hsecs hrequest =>
    have hfirst : asked es = 0 := by
      rcases hinv.asks with ⟨-, hzero⟩ | ⟨hzero, -⟩
      · exact hzero
      · exact absurd (hzero.trans hinv.secs.symm) hsecs
    refine ⟨hinv.secs, hbuf, Or.inr ⟨hinv.secs, ?_⟩, ⟨xs, hlists, hdst, ?_⟩, UInt64.le_refl now,
      hinv.due_snoc hle _, hinv.paced_snoc hle hdue _⟩
    · rw [asked_append, hfirst]
      exact (Nat.zero_add _).trans (asked_request hrequest)
    · exact List.forall_mem_append.mpr
        ⟨hto, List.forall_mem_singleton.mpr ⟨m, rfl, Or.inl hrequest⟩⟩
  | waits hnone =>
    rw [List.map_nil, List.append_nil]
    exact ⟨hinv.secs, hbuf, hinv.asks, ⟨xs, hlists, hdst, hto⟩, UInt64.le_refl now,
      hinv.due_le hle, hinv.paced⟩
  | @finds e hentry =>
    rw [List.map_nil, List.append_nil]
    refine ⟨hinv.secs, hbuf, hinv.asks, ⟨xs, hlists, fun dst h => ?_, hto⟩, UInt64.le_refl now,
      hinv.due_le hle, hinv.paced⟩
    have hswap : rteBeToCpu32 (rteBeToCpu32 app.userParams.serverIp) = app.userParams.serverIp :=
      bswap32_bswap32 _
    rw [entry_eq hlists, hswap] at hentry
    exact ⟨e, Outcome.ret.inj hentry, Option.some.inj h⟩
  | @sends dst hsome =>
    obtain ⟨e, he, rfl⟩ := hdst dst hsome
    generalize hedit : TwBuf.edit _ _ = t
    obtain ⟨⟨haddr, hdata⟩, hdatagram⟩ := edit_fillDatagram hbuf.2 hedit
    refine ⟨hinv.secs, ⟨haddr.trans hbuf.1, hdata⟩, ?_, ⟨xs, hlists, hdst, ?_⟩,
      UInt64.le_refl now, hinv.due_snoc hle _, hinv.paced_snoc hle hdue _⟩
    · rw [asked_append, List.map_singleton, asked_datagram hdatagram]
      exact hinv.asks
    · refine List.forall_mem_append.mpr ⟨hto, List.forall_mem_singleton.mpr ?_⟩
      exact ⟨t.pkt, rfl, Or.inr ⟨haddr.trans hbuf.1, e, he, hdatagram⟩⟩

/-- What the callback has sent keeps the invariant, and the loop owes the rest. -/
def RunInv (app : Sender) (b : ℕ) (os : List Op) (s : Sys) (evs : List (AppEvent Queued)) : Prop :=
  Inv app b os s (AppEvent.sentOf evs) ∧ ∀ ev ∈ evs, ev.Owed app.ports ∨ ∃ q, ev = .sent q

lemma RunInv.step (hinv : RunInv app b os s evs) {o : Op} (hlegal : Legal s evs o)
    (h : UdpSend.step app s o = .ret (s', evs')) :
    RunInv app b (os ++ [o]) s' (evs ++ evs') := by
  obtain ⟨hsent, hall⟩ := hinv
  obtain ⟨xs, hlists, hdst, hto⟩ := hsent.table
  rw [RunInv, AppEvent.sentOf_append]
  cases o with
  | rx pkt slot mem =>
    obtain ⟨howed, arp, xs', rfl, hlists', hgrows⟩ := step_rx hlists h
    rw [AppEvent.sentOf_owed howed, List.append_nil]
    refine ⟨{ hsent with table := ⟨xs', hlists', fun dst h => ?_, fun q hq => ?_⟩ },
      List.forall_mem_append.mpr ⟨hall, fun ev hev => Or.inl (howed ev hev)⟩⟩
    · obtain ⟨e, he, hmac⟩ := hdst dst h
      exact ⟨e, entryOf_grows hgrows he, hmac⟩
    · obtain ⟨m, heffect, hm⟩ := hto q hq
      refine ⟨m, heffect, hm.imp_right ?_⟩
      rintro ⟨haddr, e, he, hdatagram⟩
      exact ⟨haddr, e, entryOf_grows hgrows he, hdatagram⟩
  | tx now pktsTx pools =>
    have hle : s.app.prevStatsCalc ≤ now := UInt64.le_trans hsent.clock hlegal
    rcases step_tx hsent.secs h with ⟨rfl, rfl⟩ | ⟨hdue, st, fs, htx, rfl, rfl⟩
    · refine ⟨?_, List.forall_mem_append.mpr ⟨hall, List.forall_mem_nil _⟩⟩
      exact (List.append_nil (AppEvent.sentOf evs)).symm ▸ { hsent with clock := hle }
    · have hmap : (fs.map fun e => AppEvent.sent (Queued.mk now e)) =
          (fs.map (Queued.mk now)).map .sent := by
        rw [List.map_map]
        rfl
      rw [hmap, AppEvent.sentOf_sent]
      refine ⟨hsent.transmits (os ++ [.tx now pktsTx pools]) hlists hle hdst hto hdue htx,
        List.forall_mem_append.mpr ⟨hall, fun ev hev => ?_⟩⟩
      obtain ⟨q, -, rfl⟩ := List.mem_map.mp hev
      exact Or.inr ⟨q, rfl⟩

/-- The globals as the program starts, and its one buffer. -/
structure Starts (b : ℕ) (s : Sys) : Prop where
  secsPassed : s.app.secsPassed = 0
  arpSecs : s.app.arpSecs = -1
  prevStatsCalc : s.app.prevStatsCalc = 0
  dstEthAddr : s.app.dstEthAddr = none
  arp : ∃ xs, s.arp.Lists xs
  addr : s.app.txBuf.pkt.addr = b
  data : s.app.txBuf.data = s.app.txBuf.pkt.dataOff

lemma Starts.inv (h : Starts b s) : Inv app b [] s [] := by
  obtain ⟨xs, hlists⟩ := h.arp
  refine ⟨h.secsPassed, ⟨h.addr, h.data⟩, Or.inl ⟨?_, rfl⟩, ⟨xs, hlists, fun dst hdst => ?_, ?_⟩,
    ?_, ?_, List.Pairwise.nil⟩
  · rw [h.arpSecs]
    decide
  · rw [h.dstEthAddr] at hdst
    cases hdst
  · exact List.forall_mem_nil _
  · rw [h.prevStatsCalc]
    exact UInt64.zero_le
  · exact List.forall_mem_nil _

/-- What a run has queued. Of the packets of the callback at most one asks for the server, the
others are the one buffer with a datagram to the address learnt for it, and no window of a second
has more than the limit; all else is what the loop owes for the packets received. -/
structure Course (app : Sender) (hz : UInt64) (b : ℕ) (s : Sys) (evs : List (AppEvent Queued)) :
    Prop where
  asksOnce : asked (AppEvent.sentOf evs) ≤ 1
  toServer : ∃ xs, s.arp.Lists xs ∧ ∀ q ∈ AppEvent.sentOf evs, ToServer app b xs q
  rate : ∀ a, ((AppEvent.sentOf evs).filter fun q =>
    a ≤ q.time.toNat ∧ q.time.toNat < a + hz.toNat).length ≤ app.userParams.ppsLimit.toNat
  owed : ∀ ev ∈ evs, ev.Owed app.ports ∨ ∃ q, ev = .sent q

lemma RunInv.course (h : RunInv app b os s evs) (hlimit : app.userParams.ppsLimit ≠ 0)
    (hdelay : app.ppsdelay = hz / app.userParams.ppsLimit.toUInt64) : Course app hz b s evs := by
  obtain ⟨hinv, howed⟩ := h
  obtain ⟨xs, hlists, -, hto⟩ := hinv.table
  refine ⟨?_, ⟨xs, hlists, hto⟩, fun a => ?_, howed⟩
  · rcases hinv.asks with ⟨-, h⟩ | ⟨-, h⟩ <;> omega
  · have hpos : 0 < app.userParams.ppsLimit.toNat :=
      Nat.pos_of_ne_zero fun h => hlimit (UInt32.toNat.inj h)
    have hw : hz.toNat ≤ app.userParams.ppsLimit.toNat * (app.ppsdelay.toNat + 1) := by
      rw [hdelay, UInt64.toNat_div, UInt32.toNat_toUInt64]
      exact (Nat.lt_mul_div_succ hz.toNat hpos).le
    rw [← List.length_map fun q : Queued => q.time.toNat]
    refine spaced_length_le (a := a) (List.pairwise_map.mpr (hinv.paced.filter _)) ?_ hw
    intro t ht
    obtain ⟨q, hq, rfl⟩ := List.mem_map.mp ht
    exact of_decide_eq_true (List.mem_filter.mp hq).2

/-- In every run the callback asks for the server at most once, and whatever else it queues is its
one buffer, with a datagram to the address the table has for the server, no faster than the limit
allows. The loop adds only the answers to the requests that came in. -/
theorem udpSend_course (app : Sender) (hz : UInt64) {b : ℕ} {s₀ : Sys} {os : List Op}
    (hstart : Starts b s₀) (hlimit : app.userParams.ppsLimit ≠ 0)
    (hdelay : app.ppsdelay = hz / app.userParams.ppsLimit.toUInt64)
    (legal : EachCall (step app) s₀ Legal os) :
    Always (step app) s₀ (fun _ s evs => Course app hz b s evs) os := by
  have hinv : Always (step app) s₀ (RunInv app b) os :=
    always_of_keep ⟨hstart.inv, List.forall_mem_nil _⟩
      fun pre o hpre s evs hrun hinv s' evs' hstep =>
        hinv.step (legal pre o hpre s evs hrun) hstep
  intro pre hpre s evs hrun
  exact (hinv pre hpre s evs hrun).course hlimit hdelay

def udpSender : Sender :=
  { echoServer with
    userParams := ⟨0x0a000001, 9, 100, 1000, 10⟩
    ppsdelay := 1000
    ipv4Tw0 := 0x0a000002 }

def startSender : Sys :=
  ⟨⟨0, -1, 0, none, ⟨⟨3, fun _ => 0, mbufBufLen, headroom, 100⟩, headroom, 100, 0⟩, 0⟩, .empty, 0⟩

def somePools : MbufPools := ⟨fun _ => 0, fun _ => some (7, fun _ => 0)⟩

theorem udpSend_course_request :
    (∃ s q, runOps (step udpSender) startSender [.tx 2000 0 somePools, .tx 4000 0 somePools] =
      .ret (s, [q])) ∧
      Always (step udpSender) startSender (fun _ s es => Course udpSender 1000000 3 s es)
        [.tx 2000 0 somePools, .tx 4000 0 somePools] := by
  have hstart : Starts 3 startSender := ⟨rfl, rfl, rfl, rfl, ⟨[], rfl⟩, rfl, rfl⟩
  have hdelay : udpSender.ppsdelay = 1000000 / udpSender.userParams.ppsLimit.toUInt64 := by decide
  refine ⟨⟨_, _, rfl⟩, udpSend_course udpSender 1000000 hstart (by decide) hdelay ?_⟩
  exact eachCall_cons rfl (show (0 : UInt64) ≤ 2000 by decide)
    (eachCall_singleton (show (2000 : UInt64) ≤ 4000 by decide))

section Runtime

lemma step_secsPassed (hsecs : s.app.secsPassed = 0) {o : Op}
    (h : step app s o = .ret (s', evs)) : s'.app.secsPassed = 0 := by
  cases o with
  | rx pkt slot mem =>
    obtain ⟨⟨arp, fs⟩, -, h⟩ := Outcome.bind_eq_ret.mp h
    obtain ⟨rfl, rfl⟩ := Prod.mk.inj (Outcome.ret.inj h)
    exact hsecs
  | tx now pktsTx pools =>
    rcases step_tx hsecs h with ⟨rfl, rfl⟩ | ⟨-, st, fs, htx, rfl, rfl⟩
    · exact hsecs
    · cases htx <;> exact hsecs

def withRuntime (app : Sender) (testRuntime : UInt32) : Sender :=
  { app with userParams := { app.userParams with testRuntime } }

lemma step_withRuntime (app : Sender) (testRuntime : UInt32) (hsecs : s.app.secsPassed = 0)
    (o : Op) : step (withRuntime app testRuntime) s o = step app s o := by
  cases o with
  | rx pkt slot mem => rfl
  | tx now pktsTx pools =>
    have htransmit : transmit (withRuntime app testRuntime) = transmit app := rfl
    have hdelay : (withRuntime app testRuntime).ppsdelay = app.ppsdelay := rfl
    rw [step, step, pktTx_eq hsecs, pktTx_eq hsecs, htransmit, hdelay]

/-- The configured duration of the test changes nothing: no call counts the seconds it is
compared with. -/
theorem runOps_withRuntime (app : Sender) (testRuntime : UInt32) {s₀ : Sys}
    (hsecs : s₀.app.secsPassed = 0) (os : List Op) :
    runOps (step (withRuntime app testRuntime)) s₀ os = runOps (step app) s₀ os :=
  runOps_congr (fun _ o hsecs => step_withRuntime app testRuntime hsecs o)
    (fun _ _ _ _ hsecs hstep => step_secsPassed hsecs hstep) hsecs os

theorem runOps_withRuntime_one :
    startSender.app.secsPassed = 0 ∧
      runOps (step (withRuntime udpSender 1)) startSender [.tx 2000 0 somePools] =
        runOps (step udpSender) startSender [.tx 2000 0 somePools] :=
  ⟨rfl, runOps_withRuntime udpSender 1 rfl _⟩

end Runtime

end Run
end Twister.UdpSend
