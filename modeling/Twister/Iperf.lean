import Twister.Echo
import Twister.EventLoop
import Twister.IperfStats

/-! The client of the bandwidth test: it looks for the server with ARP requests, and when it
has found it registers its transmit callback, which sends one buffer over and over. -/
namespace Twister

/-- What the command line and the start set, in `test` and in globals. Callbacks are code
addresses. -/
structure IperfTest extends Tw0App where
  serverPort : UInt32
  clientPort : UInt32
  serverIp : UInt32
  clientIp : UInt32
  packetSize : UInt32
  ppsDelay : UInt64
  clockRate : UInt64
  pktTx : ℕ
  printPerfStats : ℕ

/-- What changes: `arpCount` is a static of `tw_udp_connect`. -/
structure IperfState where
  arpCount : Int
  serverMac : Option EtherAddr
  txBuf : TwBuf
  prevTimeCycle : UInt64
  testStats : IperfStats
  loop : LoopState
  arp : ArpState

/-- What a call of `tw_udp_connect` finds: the packet pools, the allocator, the frequency of
the cycle counter and its reading. -/
structure ConnectEnv where
  pools : MbufPools
  txMem : Malloc (Node TwTx)
  timerMem : Malloc (Node TwTimer)
  hz : UInt64
  now : UInt64

namespace Iperf

/-- Where the test data starts, behind the UDP header. -/
def offset : ℕ := sizeofEtherHdr + sizeofIpv4Hdr + sizeofUdpHdr

def sizeofAppHdr : ℕ := 8

def payload (m : Mbuf) : UInt64 := le64 (m.load offset 8)

def setPayload (m : Mbuf) (off : ℕ) (x : UInt64) : Mbuf := m.store off (bytes64 x)

/-- `make_pkt` writes the headers of the one packet. -/
def makePkt (test : IperfTest) (serverMac : EtherAddr) (now : UInt64) (size : UInt16)
    (m : Mbuf) : Mbuf :=
  let ip := sizeofEtherHdr
  let udp := sizeofEtherHdr + sizeofIpv4Hdr
  let m := m.setUdpSrc udp (rteCpuToBe16 test.clientPort.toUInt16)
  let m := m.setUdpDst udp (rteCpuToBe16 test.serverPort.toUInt16)
  let m := m.setUdpLen udp (rteCpuToBe16 test.packetSize.toUInt16)
  let m := m.setUdpCksum udp 0
  let m := m.setIpTotalLength ip (rteCpuToBe16 (size - UInt16.ofNat sizeofEtherHdr))
  let m := m.setIpProto ip udpProtoId
  let m := m.setIpSrc ip test.clientIp
  let m := m.setIpDst ip test.serverIp
  let m := m.setIpVersionIhl ip 0x45
  let m := m.setIpTtl ip 63
  let (m, cksum) := twIpv4Cksum m ip
  let m := m.setIpCksum ip cksum
  let m := m.setEtherType (rteCpuToBe16 etherTypeIPv4)
  let m := m.setDAddr serverMac
  let m := m.setSAddr test.mac
  setPayload m (sizeofEtherHdr + sizeofIpv4Hdr + sizeofAppHdr) now

def notFound : String := "unable to find the ip on network.\n"

/-- The branch of `tw_udp_connect` for a resolved server. -/
def connect (test : IperfTest) (env : ConnectEnv) (timerHandle : Option ℕ) (st : IperfState)
    (serverMac : EtherAddr) : Outcome IperfState := do
  let txBuf := st.txBuf.edit (makePkt test serverMac env.now st.txBuf.size)
  let (txHandle, loop) ← twTxInit env.txMem st.loop
  if txHandle = none then .exit "Error in TX initn"
  else do
    let (status, loop) ← twTxStart txHandle test.pktTx loop
    if status ≠ 0 then .exit "Error in transmit startn"
    else do
      let (_, loop) ← twTimerUnregister timerHandle loop
      let (timerPerfStats, loop) ← twTimerInit env.timerMem loop
      let (_, loop) ← twTimerStart timerPerfStats test.printPerfStats 1000 env.hz loop
      .ret { st with serverMac := some serverMac, txBuf, loop }

lemma connect_inv {test : IperfTest} {env : ConnectEnv} {timerHandle : Option ℕ}
    {st st' : IperfState} {serverMac : EtherAddr}
    (h : connect test env timerHandle st serverMac = .ret st') :
    ∃ loop, st' = { st with
      serverMac := some serverMac
      txBuf := st.txBuf.edit (makePkt test serverMac env.now st.txBuf.size)
      loop } := by
  unfold connect at h
  obtain ⟨⟨txHandle, l₁⟩, -, h⟩ := Outcome.bind_eq_ret.mp h
  simp only at h
  split_ifs at h with hnone
  obtain ⟨⟨status, l₂⟩, -, h⟩ := Outcome.bind_eq_ret.mp h
  simp only at h
  split_ifs at h with hstatus
  obtain ⟨⟨code, l₃⟩, -, h⟩ := Outcome.bind_eq_ret.mp h
  obtain ⟨⟨ptr, l₄⟩, -, h⟩ := Outcome.bind_eq_ret.mp h
  obtain ⟨⟨code', l₅⟩, -, h⟩ := Outcome.bind_eq_ret.mp h
  exact ⟨l₅, (Outcome.ret.inj h).symm⟩

def twUdpConnect (test : IperfTest) (env : ConnectEnv) (timerHandle : Option ℕ)
    (st : IperfState) : Outcome (IperfState × List PktEffect) :=
  if st.arpCount < 4 then do
    match ← twSearchArpTable st.arp test.serverIp with
    | none => do
      let es ← twSendArpRequest test.ports env.pools (rteCpuToBe32 test.serverIp) tw0
      .ret ({ st with arpCount := st.arpCount + 1 }, es)
    | some a => do
      let entry ← st.arp.heap.load (some a)
      let st ← connect test env timerHandle st entry.val.ethMac
      .ret (st, [])
  -- the entry is looked up only above, so it is null here
  else .exit notFound

def pktTx (test : IperfTest) (currTimeCycle now : UInt64) (st : IperfState) :
    IperfState × List PktEffect :=
  if currTimeCycle - st.prevTimeCycle > test.ppsDelay then
    let txBuf := st.txBuf.edit fun m => setPayload m offset now
    ({ st with
      prevTimeCycle := currTimeCycle
      txBuf
      testStats := { st.testStats with datagramsSent := st.testStats.datagramsSent + 1 } },
      [.addToTxQueue txBuf.pkt test.tw0Id])
  else (st, [])

/-- A packet is taken for an answer and freed. -/
def pktRx (test : IperfTest) (now : UInt64) (st : IperfState) (buffer : TwBuf) :
    Outcome (IperfState × List PktEffect) := do
  let testStats ← calculateLatency test.clockRate now (payload buffer.hdr) st.testStats
  .ret ({ st with
    testStats := { testStats with datagramsRecv := testStats.datagramsRecv + 1 } },
    [.free buffer.pkt])

def iperfClient : IperfTest :=
  ⟨echoServer, 5001, 5002, 0x0a000001, 0x0a000002, 18, 0, 1, 0, 1⟩

end Iperf
end Twister
