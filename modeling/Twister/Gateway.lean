import Twister.Ipv4
import Twister.Receive

/-! The gateway application: a packet is answered, routed, parked until its
destination is resolved, or dropped, and a timer replays what is parked. -/
namespace Twister

def maxQueuePackets : ℕ := 1000

instance : NeZero maxQueuePackets := ⟨by decide⟩

section Ports

def portAt (ports : PortTable) (id : Int) : Outcome PortInfo :=
  if h : 0 ≤ id ∧ id.toNat < maxEthPorts then .ret (ports ⟨id.toNat, h.2⟩) else .fault

/-- An `int` passed where a `uint8_t` is expected. -/
def portIdByte (id : Int) : UInt8 := UInt8.ofNat (id % 256).toNat

def twGetIpAddr (ports : PortTable) (portName : CString) : Outcome UInt32 := do
  let info ← portAt ports (twEthNameToId ports portName)
  .ret info.startIpAddr

def twGetEtherAddr (ports : PortTable) (portName : CString) : Outcome EtherAddr := do
  let info ← portAt ports (twEthNameToId ports portName)
  .ret info.ethMac

def twSendArpRequest (ports : PortTable) (pools : MbufPools) (ipAddr : UInt32)
    (portName : CString) : Outcome (List PktEffect) := do
  let (_, es) ← twConstructArpPacket ports pools ipAddr (portIdByte (twEthNameToId ports portName))
  .ret es

end Ports

section Routes

structure Route where
  netAddr : UInt32
  gateway : UInt32
  netMask : UInt32
  portName : Fin 3 → UInt8

/-- `address` is where the allocator placed each block. -/
structure RouteTable where
  heap : Heap (Node Route)
  routeTableRoot : Option ℕ
  address : ℕ → UInt64
  routeTableSize : UInt32

namespace RouteTable

def pointer (routes : RouteTable) : Option ℕ → UInt64
  | none => 0
  | some a => routes.address a

/-- The name as the string functions read it. The array has no room for a
terminator, so they read on into the bytes of `next` that follow it. -/
def nameOf (routes : RouteTable) (route : Node Route) : Outcome CString :=
  let bytes := List.ofFn route.val.portName ++ List.ofFn (bytes64 (routes.pointer route.next))
  if 0 ∈ bytes then .ret (bytes.takeWhile fun c => c ≠ 0) else .fault

end RouteTable

/-- `memcpy(port_name, port_id, 3)` -/
def copyName (portId : CString) : Outcome (Fin 3 → UInt8) := do
  let a ← charAt portId 0
  let b ← charAt portId 1
  let c ← charAt portId 2
  .ret ![a, b, c]

def twAddRouteEntry (mem : Malloc (Node Route)) (routes : RouteTable)
    (netToAdd netmaskToAdd gatewayToAdd : UInt32) (portId : CString) :
    Outcome (Int × RouteTable) := do
  let (heap, root, routeTablePtr) ← pushBack routes.heap routes.routeTableRoot mem
  match routeTablePtr with
  | none => .exit ""
  | some _ => do
    let portName ← copyName portId
    let heap ← heap.store routeTablePtr ⟨⟨rteBeToCpu32 netToAdd, rteBeToCpu32 gatewayToAdd,
      rteBeToCpu32 netmaskToAdd, portName⟩, none⟩
    .ret (0, ⟨heap, root, routes.address, routes.routeTableSize + 1⟩)

def twSearchRoute (routes : RouteTable) (ipToSearch : UInt32) : Outcome (Option ℕ) :=
  findNode routes.heap (fun r => r.netMask &&& ipToSearch = r.netAddr) (routes.heap.top + 1)
    routes.routeTableRoot

/-- The walk of `check_gateway_ping`: the name of the first route whose port has the
address. -/
def findPinged (ports : PortTable) (routes : RouteTable) (dstAddr : UInt32) :
    ℕ → Option ℕ → Outcome (Option CString)
  | 0, _ => .timeout
  | _ + 1, none => .ret none
  | fuel + 1, some a => do
    let route ← routes.heap.load (some a)
    let portName ← routes.nameOf route
    let tempIp ← twGetIpAddr ports portName
    if tempIp = rteBeToCpu32 dstAddr then .ret (some portName)
    else findPinged ports routes dstAddr fuel route.next

end Routes

section Queue
variable {β : Type}

/-- The slots hold pointers to buffer descriptions. -/
structure SqPkt (β : Type) where
  pkt : Fin maxQueuePackets → Option β
  nPkts : UInt32

def twSqPush (qList : SqPkt β) (pkt : β) : Int × SqPkt β :=
  if h : qList.nPkts.toNat < maxQueuePackets then
    (1, ⟨Function.update qList.pkt ⟨qList.nPkts.toNat, h⟩ (some pkt), qList.nPkts + 1⟩)
  else (0, qList)

def twNQueue (qList : SqPkt β) : Int :=
  if qList.nPkts < 1 then 0 else qList.nPkts.toInt32.toInt

end Queue

/-- The buffer descriptions there are: the event loop has one. -/
inductive TwBufPtr
  | tempBuffer
  deriving DecidableEq

namespace TwBuf

/-- The packet as seen from the data pointer. -/
def hdr (b : TwBuf) : Mbuf := { b.pkt with dataOff := b.data }

def edit (b : TwBuf) (f : Mbuf → Mbuf) : TwBuf :=
  { b with pkt := { f b.hdr with dataOff := b.pkt.dataOff } }

end TwBuf

/-- The reused description, filled in for a packet. -/
def describe (pkt : Mbuf) (portName : Fin maxEthPorts) : TwBuf :=
  ⟨pkt, pkt.dataOff, UInt16.ofNat pkt.dataLen, portName⟩

/-- The configuration, which nothing changes after the start. -/
structure Gateway where
  ports : PortTable
  routes : RouteTable
  dstEth0 : EtherAddr
  dstEth1 : EtherAddr

structure GwState where
  arp : ArpState
  sqPktQ : SqPkt TwBufPtr
  tempBuffer : TwBuf

/-- The memory a call finds: the pools of packet buffers and the allocator. -/
structure GwEnv where
  pools : MbufPools
  mem : Malloc (Node ArpEntry)

/-- What the gateway does, in order. `sqPush` and `replay` name the packet that the
slot describes at that moment. -/
inductive GwCall
  | sendPkt (pkt : Mbuf) (portId : UInt8)
  | freePkt (pkt : Mbuf)
  | sendArpRequest (es : List PktEffect)
  | arpParser (es : List PktEffect)
  | sqPush (slot : Fin maxQueuePackets) (pkt : Mbuf)
  | replay (slot : Fin maxQueuePackets) (pkt : Mbuf)

namespace GwState

def buf (st : GwState) : TwBufPtr → TwBuf
  | .tempBuffer => st.tempBuffer

def setBuf (st : GwState) : TwBufPtr → TwBuf → GwState
  | .tempBuffer, b => { st with tempBuffer := b }

end GwState

def answerPing (mac : EtherAddr) (m : Mbuf) : Mbuf :=
  let ip := sizeofEtherHdr
  let m :=
    if m.ipProto ip = icmpProtoId then
      let icmp := sizeofEtherHdr + sizeofIpv4Hdr
      let m := m.setIcmpType icmp 0
      let m := m.setIcmpCksum icmp 0
      m.setIcmpCksum icmp (twCalcsum (m.bytesAt icmp sizeofIcmpEcho))
    else m
  let dstIp := m.ipDst ip
  let srcIp := m.ipSrc ip
  let m := m.setIpDst ip srcIp
  let m := m.setIpSrc ip dstIp
  let (m, cksum) := twIpv4Cksum m ip
  let m := m.setIpCksum ip cksum
  let m := m.setDAddr m.sAddr
  m.setSAddr mac

def checkGatewayPing (gw : Gateway) (st : GwState) (buffer : TwBufPtr) :
    Outcome (Int × GwState × List GwCall) := do
  let b := st.buf buffer
  match ← findPinged gw.ports gw.routes (b.hdr.ipDst sizeofEtherHdr) (gw.routes.heap.top + 1)
      gw.routes.routeTableRoot with
  | none => .ret (1, st, [])
  | some portName => do
    let mac ← twGetEtherAddr gw.ports portName
    let b := b.edit (answerPing mac)
    .ret (0, st.setBuf buffer b,
      [.sendPkt b.pkt (portIdByte (twEthNameToId gw.ports portName))])

def tw0 : CString := [0x74, 0x77, 0x30]
def tw1 : CString := [0x74, 0x77, 0x31]

/-- `if(strcmp(port_name, "tw0") == 0)` and the same for the second port: a packet
for any other name is left as it is. -/
def forwardOn (gw : Gateway) (portName : CString) (b : TwBuf) : TwBuf × List GwCall :=
  if portName = tw0 then
    let b := b.edit fun m => m.setSAddr gw.dstEth0
    (b, [.sendPkt b.pkt (portIdByte (twEthNameToId gw.ports tw0))])
  else if portName = tw1 then
    let b := b.edit fun m => m.setSAddr gw.dstEth1
    (b, [.sendPkt b.pkt (portIdByte (twEthNameToId gw.ports tw1))])
  else (b, [])

def pushCall (q : SqPkt TwBufPtr) (pkt : Mbuf) : List GwCall :=
  if h : q.nPkts.toNat < maxQueuePackets then [.sqPush ⟨q.nPkts.toNat, h⟩ pkt] else []

def routePkt (gw : Gateway) (env : GwEnv) (st : GwState) (buffer : TwBufPtr) :
    Outcome (GwState × List GwCall) := do
  let b := st.buf buffer
  let dstAddr := b.hdr.ipDst sizeofEtherHdr
  match ← twSearchRoute gw.routes dstAddr with
  | none => .ret (st, [.freePkt b.pkt])
  | some a => do
    let route ← gw.routes.heap.load (some a)
    match ← twSearchArpTable st.arp dstAddr with
    | none => do
      let portName ← gw.routes.nameOf route
      let es ← twSendArpRequest gw.ports env.pools dstAddr portName
      -- the result of the push is ignored
      .ret ({ st with sqPktQ := (twSqPush st.sqPktQ buffer).2 },
        .sendArpRequest es :: pushCall st.sqPktQ b.pkt)
    | some e => do
      let arpEntry ← st.arp.heap.load (some e)
      let portName ← gw.routes.nameOf route
      let (b, calls) := forwardOn gw portName (b.edit fun m => m.setDAddr arpEntry.val.ethMac)
      .ret (st.setBuf buffer b, calls)

def replyPayload (gw : Gateway) (env : GwEnv) (st : GwState) (buffer : TwBufPtr) :
    Outcome (GwState × List GwCall) :=
  let b := st.buf buffer
  let ethType := rteBeToCpu16 b.hdr.etherType
  if ethType = etherTypeARP then do
    let portName := (gw.ports b.portName).portName
    let (_, arp, es) ← twParseArp gw.ports env.mem st.arp b.pkt
      (portIdByte (twEthNameToId gw.ports portName))
    .ret ({ st with arp }, [.arpParser es])
  else if ethType = etherTypeIPv4 then do
    let (gatewayPing, st, calls) ← checkGatewayPing gw st buffer
    if gatewayPing ≠ 0 then routePkt gw env st buffer else .ret (st, calls)
  else .ret (st, [])

def updateSlots (gw : Gateway) (env : Fin maxQueuePackets → GwEnv) :
    List (Fin maxQueuePackets) → GwState → Outcome (GwState × List GwCall)
  | [], st => .ret (st, [])
  | i :: is, st =>
    match st.sqPktQ.pkt i with
    | none => updateSlots gw env is st
    | some buffer => do
      let (st', calls) ← replyPayload gw (env i) st buffer
      let q : SqPkt TwBufPtr :=
        ⟨Function.update st'.sqPktQ.pkt i none, st'.sqPktQ.nPkts - 1⟩
      let (st'', rest) ← updateSlots gw env is { st' with sqPktQ := q }
      .ret (st'', .replay i (st.buf buffer).pkt :: calls ++ rest)

def updateQueue (gw : Gateway) (env : Fin maxQueuePackets → GwEnv) (st : GwState) :
    Outcome (GwState × List GwCall) :=
  if twNQueue st.sqPktQ < 1 then .ret (st, [])
  else updateSlots gw env (List.finRange maxQueuePackets) st

end Twister
