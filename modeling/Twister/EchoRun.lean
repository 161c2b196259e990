import Twister.IcmpEcho
import Twister.ReceiveRun
import Twister.TxRun
import Twister.UdpEcho

/-! The echo servers in the event loop, from the frames that arrive to those that the device gets:
each answer leaves once, in the order of arrival, and no later than at the next drain. -/
namespace Twister

section Model

/-- `reply_payload` of the Ethernet echo, and `reply_ether_payload` of the bandwidth test. -/
def EtherEcho.replyPayload (app : Tw0App) (buffer : TwBuf) : TwBuf × List PktEffect :=
  let buffer := buffer.edit (turnEther app.mac)
  (buffer, [.addToTxQueue buffer.pkt app.tw0Id])

/-- The echo on two ports sends where the packet came from, but always from the address of
`tw0`. -/
def MEtherEcho.replyPayload (app : Tw0App) (buffer : TwBuf) : TwBuf × List PktEffect :=
  let buffer := buffer.edit (turnEther app.mac)
  (buffer, [.addToTxQueue buffer.pkt
    (portIdByte (twEthNameToId app.ports (app.ports buffer.portName).portName))])

/-- An application that sends every IPv4 packet back. -/
structure EchoApp where
  State : Type
  ports : PortTable
  replyPayload : Malloc (Node ArpEntry) → State → ArpState → TwBuf →
    Outcome (State × ArpState × List PktEffect)
  -- where it can answer what the loop hands it, with what, and on which port
  serves : Fin maxEthPorts → Prop
  answer : Mbuf → Mbuf
  out : Fin maxEthPorts → Fin maxEthPorts
  answers : ∀ (mem : Malloc (Node ArpEntry)) (st : State) (arp : ArpState) {pkt : Mbuf}
    {slot : Fin maxEthPorts}, serves slot → rteBeToCpu16 pkt.etherType = etherTypeIPv4 →
    ∃ st', replyPayload mem st arp (describe pkt slot) =
      .ret (st', arp, [.addToTxQueue (answer pkt) (portByte (out slot))])

namespace EchoRun

structure Server (app : EchoApp) where
  st : app.State
  arp : ArpState
  tx : TxState Mbuf

inductive Op
  | recv (slot : Fin maxEthPorts) (rx : RxPkt) (nic : Nic)
  | flush (tsc : UInt64) (nic : Nic)

def handle (app : EchoApp) (mem : Malloc (Node ArpEntry)) (slot : Fin maxEthPorts)
    (st : app.State) (arp : ArpState) (pkt : Mbuf) :
    Outcome (app.State × ArpState × List PktEffect) :=
  let ethType := rteBeToCpu16 pkt.etherType
  if ethType = etherTypeARP then do
    let (_, arp, es) ← twParseArp app.ports mem arp pkt (portByte slot)
    .ret (st, arp, es)
  else if ethType = etherTypeIPv4 then app.replyPayload mem st arp (describe pkt slot)
  else .ret (st, arp, [])

def dispose (nic : Nic) (tx : TxState Mbuf) :
    PktEffect → Outcome (TxState Mbuf × List (TxEvent Mbuf))
  | .free _ => .ret (tx, [])
  | .addToTxQueue m portId => twAddPktToTxQueue nic tx m portId

/-- The loop has received a packet, or finds the drain due. -/
def step (app : EchoApp) (hz : UInt64) (s : Server app) :
    Op → Outcome (Server app × List (TxEvent Mbuf))
  | .recv slot rx nic => do
    let pkt ← untag (rx.pkt.dataLen + 1) rx.pkt
    let (st, arp, es) ← handle app rx.mem slot s.st s.arp pkt
    let (tx, fs) ← runOps (dispose nic) s.tx es
    .ret (⟨st, arp, tx⟩, fs)
  | .flush tsc nic => do
    let (tx, fs) ← twTimelyBurst hz nic tsc s.tx
    .ret ({ s with tx }, fs)

end EchoRun
end Model

section Servers

lemma edit_describe {f : Mbuf → Mbuf} (hf : ∀ m, (f m).dataOff = m.dataOff) (pkt : Mbuf)
    (slot : Fin maxEthPorts) : ((describe pkt slot).edit f).pkt = f pkt := by
  rw [TwBuf.edit_pkt rfl (hf _)]
  rfl

lemma replyUdp_dataOff (cut : UInt16 → UInt16) (mac : EtherAddr) (m : Mbuf) :
    (replyUdp cut mac m).dataOff = m.dataOff := by rfl

def udpEchoApp (app : Tw0App) : EchoApp where
  State := Unit
  ports := app.ports
  replyPayload mem _ arp buffer := do
    let (arp, _, es) ← UdpEcho.replyPayload app mem arp buffer
    .ret ((), arp, es)
  serves _ := True
  answer := replyUdp lowByte app.mac
  out _ := app.port
  answers mem _ arp _ slot _ htype := by
    have hreply := echoPayload_ipv4 mem arp (replyUdp_dataOff lowByte app.mac)
      (b := describe _ slot) rfl htype
    exact ⟨(), by rw [UdpEcho.replyPayload, hreply]; rfl⟩

def iperfUdpApp (app : Tw0App) : EchoApp where
  State := IperfStats
  ports := app.ports
  replyPayload _ testStats arp buffer :=
    let (testStats, _, es) := Iperf.replyUdpPayload app testStats buffer
    .ret (testStats, arp, es)
  serves _ := True
  answer := replyUdp id app.mac
  out _ := app.port
  answers _ testStats _ pkt slot _ _ := by
    have hedit := edit_describe (replyUdp_dataOff id app.mac) pkt slot
    simp only [Iperf.replyUdpPayload, hedit, app.tw0Id_eq]
    exact ⟨_, rfl⟩

def etherEchoApp (app : Tw0App) : EchoApp where
  State := Unit
  ports := app.ports
  replyPayload _ _ arp buffer := .ret ((), arp, (EtherEcho.replyPayload app buffer).2)
  serves _ := True
  answer := turnEther app.mac
  out _ := app.port
  answers _ _ _ pkt slot _ _ := by
    have hedit := edit_describe (fun _ => rfl) pkt slot (f := turnEther app.mac)
    exact ⟨(), by rw [EtherEcho.replyPayload, hedit, app.tw0Id_eq]⟩

def metherEchoApp (app : Tw0App) : EchoApp where
  State := Unit
  ports := app.ports
  replyPayload _ _ arp buffer := .ret ((), arp, (MEtherEcho.replyPayload app buffer).2)
  serves p := twEthNameToId app.ports (app.ports p).portName = p.val
  answer := turnEther app.mac
  out := id
  answers _ _ _ pkt slot hname _ := by
    have hedit := edit_describe (fun _ => rfl) pkt slot (f := turnEther app.mac)
    have hslot : ((describe pkt slot).edit (turnEther app.mac)).portName = slot := rfl
    exact ⟨(), by rw [MEtherEcho.replyPayload, hedit, hslot, hname, portIdByte_val]; rfl⟩

end Servers

namespace EchoRun
section Run
variable {app : EchoApp} {hz : UInt64} {s : Server app} {tx : TxState Mbuf}

/-- What a received packet is owed, and on which ports. -/
def owes (app : EchoApp) (slot : Fin maxEthPorts) (m : Mbuf) : List (Mbuf × UInt8) :=
  match untag (m.dataLen + 1) m with
  | .ret pkt =>
    if rteBeToCpu16 pkt.etherType = etherTypeARP then
      PktEffect.sent (parseEffects (app.ports slot) pkt (portByte slot))
    else if rteBeToCpu16 pkt.etherType = etherTypeIPv4 then
      [(app.answer pkt, portByte (app.out slot))]
    else []
  | _ => []

def onPort (p : Fin maxEthPorts) (sent : List (Mbuf × UInt8)) : List Mbuf :=
  (sent.filter fun x => x.2 = portByte p).map Prod.fst

def Op.owed (app : EchoApp) (p : Fin maxEthPorts) : Op → List Mbuf
  | .recv slot rx _ => onPort p (owes app slot rx.pkt)
  | .flush _ _ => []

def owed (app : EchoApp) (p : Fin maxEthPorts) (ops : List Op) : List Mbuf :=
  ops.flatMap (Op.owed app p)

/-- The tags of the packet can be read, it comes from a port that is served, and there is memory
for the ARP table. -/
def Op.Fine (app : EchoApp) : Op → Prop
  | .recv slot rx _ => Strippable rx.pkt ∧ app.serves slot ∧ ∀ heap, rx.mem.pick heap ≠ none
  | .flush _ _ => True

lemma onPort_append (p : Fin maxEthPorts) (xs ys : List (Mbuf × UInt8)) :
    onPort p (xs ++ ys) = onPort p xs ++ onPort p ys := by
  simp [onPort]

lemma onPort_singleton (p q : Fin maxEthPorts) (m : Mbuf) :
    onPort p [(m, portByte q)] = if q = p then [m] else [] := by
  by_cases h : q = p
  · simp [onPort, h]
  · have hne : portByte q ≠ portByte p := fun heq => h (portByte_injective heq)
    simp [onPort, h, hne]

/-- Every packet goes to a port that there is. -/
def Routed (es : List PktEffect) : Prop := ∀ x ∈ PktEffect.sent es, ∃ p, x.2 = portByte p

/-- From `tx` the packets `ms` of each port have gone to the ends of the buffers. -/
structure Moves (tx tx' : TxState Mbuf) (fs : List (TxEvent Mbuf))
    (ms : Fin maxEthPorts → List Mbuf) : Prop where
  valid : tx'.Valid
  numPort : tx'.conf.numPort = tx.conf.numPort
  order : ∀ p, leftPort p fs ++ tx'.conf.queues p = tx.conf.queues p ++ ms p

lemma execTx_moves (hz : UInt64) (hv : tx.Valid) (op : TxOp Mbuf) :
    ∃ tx' fs, execTx hz tx op = .ret (tx', fs) ∧ Moves tx tx' fs (op.enqueues ·) := by
  obtain ⟨tx', hrun, hv', hnum, hq, -⟩ := execTx_refines hz hv op
  refine ⟨tx', _, hrun, hv', hnum, fun p => ?_⟩
  rw [hq, absTx_fifo]

lemma dispose_moves (nic : Nic) (hv : tx.Valid) {e : PktEffect} (he : Routed [e]) :
    ∃ tx' fs, dispose nic tx e = .ret (tx', fs) ∧
      Moves tx tx' fs fun p => onPort p (PktEffect.sent [e]) := by
  cases e with
  | free m =>
    exact ⟨tx, [], rfl, hv, rfl, fun p => by simp [leftPort, onPort, PktEffect.sent]⟩
  | addToTxQueue m portId =>
    obtain ⟨q, rfl⟩ : ∃ q, portId = portByte q := he (m, portId) List.mem_cons_self
    obtain ⟨tx', fs, hrun, hmoves⟩ := execTx_moves 0 hv (.add m q nic)
    refine ⟨tx', fs, hrun, hmoves.valid, hmoves.numPort, fun p => ?_⟩
    rw [hmoves.order p, PktEffect.sent, PktEffect.sent, onPort_singleton]
    rfl

lemma runDispose_moves (nic : Nic) (hv : tx.Valid) {es : List PktEffect} (hes : Routed es) :
    ∃ tx' fs, runOps (dispose nic) tx es = .ret (tx', fs) ∧
      Moves tx tx' fs fun p => onPort p (PktEffect.sent es) := by
  induction es generalizing tx with
  | nil => exact ⟨tx, [], rfl, hv, rfl, fun p => by simp [leftPort, onPort, PktEffect.sent]⟩
  | cons e es ih =>
    have hsent : PktEffect.sent (e :: es) = PktEffect.sent [e] ++ PktEffect.sent es := by
      cases e <;> rfl
    have hfirst : Routed [e] := fun x hx => hes x (hsent ▸ List.mem_append_left _ hx)
    obtain ⟨tx₁, fs₁, hrun₁, hmoves₁⟩ := dispose_moves nic hv hfirst
    obtain ⟨tx', fs, hrun, hmoves⟩ :=
      ih hmoves₁.valid fun x hx => hes x (hsent ▸ List.mem_append_right _ hx)
    refine ⟨tx', fs₁ ++ fs, by rw [runOps, hrun₁, Outcome.ret_bind, hrun]; rfl, hmoves.valid,
      hmoves.numPort.trans hmoves₁.numPort, fun p => ?_⟩
    rw [leftPort_append, List.append_assoc, hmoves.order, ← List.append_assoc, hmoves₁.order,
      List.append_assoc, hsent, onPort_append]

lemma handle_ret {mem : Malloc (Node ArpEntry)} {arp : ArpState} (pkt : Mbuf)
    {slot : Fin maxEthPorts} (hslot : app.serves slot) (st : app.State)
    (hmem : ∀ heap, mem.pick heap ≠ none) (hlists : ∃ xs, arp.Lists xs) :
    ∃ st' arp' es, handle app mem slot st arp pkt = .ret (st', arp', es) ∧
      (∃ xs, arp'.Lists xs) ∧ Routed es ∧ PktEffect.sent es =
        if rteBeToCpu16 pkt.etherType = etherTypeARP then
          PktEffect.sent (parseEffects (app.ports slot) pkt (portByte slot))
        else if rteBeToCpu16 pkt.etherType = etherTypeIPv4 then
          [(app.answer pkt, portByte (app.out slot))]
        else [] := by
  unfold handle
  by_cases harp : rteBeToCpu16 pkt.etherType = etherTypeARP
  · obtain ⟨xs, hxs⟩ := hlists
    have hneeds : NeedsEntry (app.ports slot) xs pkt → mem.pick arp.heap ≠ none :=
      fun _ => hmem _
    obtain ⟨arp', xs', hparse, hxs', -⟩ := twParseArp_ret app.ports hxs slot hneeds
    simp only [if_pos harp, hparse, Outcome.ret_bind]
    refine ⟨st, arp', _, rfl, ⟨xs', hxs'⟩, fun x hx => ⟨slot, ?_⟩, rfl⟩
    unfold parseEffects at hx
    split at hx
    · rw [PktEffect.sent, PktEffect.sent, List.mem_singleton] at hx
      rw [hx]
    · cases hx
  · simp only [if_neg harp]
    by_cases hip : rteBeToCpu16 pkt.etherType = etherTypeIPv4
    · obtain ⟨st', hreply⟩ := app.answers mem st arp hslot hip
      simp only [if_pos hip, hreply]
      refine ⟨st', arp, _, rfl, hlists, fun x hx => ⟨app.out slot, ?_⟩, rfl⟩
      rw [PktEffect.sent, PktEffect.sent, List.mem_singleton] at hx
      rw [hx]
    · simp only [if_neg hip]
      exact ⟨st, arp, [], rfl, hlists, fun x hx => absurd hx List.not_mem_nil, rfl⟩

/-- One step of the loop gives each port what it is owed. -/
lemma step_moves (hz : UInt64) (hv : s.tx.Valid) (hlists : ∃ xs, s.arp.Lists xs) {op : Op}
    (hop : op.Fine app) :
    ∃ s' fs, step app hz s op = .ret (s', fs) ∧ (∃ xs, s'.arp.Lists xs) ∧
      Moves s.tx s'.tx fs (op.owed app ·) := by
  cases op with
  | recv slot rx nic =>
    obtain ⟨⟨pkt, htag⟩, hslot, hmem⟩ := hop
    obtain ⟨st', arp', es, hhandle, hlists', hrouted, hsent⟩ :=
      handle_ret pkt hslot s.st hmem hlists
    obtain ⟨tx', fs, hrun, hmoves⟩ := runDispose_moves nic hv hrouted
    refine ⟨⟨st', arp', tx'⟩, fs, ?_, hlists', hmoves.valid, hmoves.numPort, fun p => ?_⟩
    · simp only [step, htag, hhandle, hrun, Outcome.ret_bind]
    · rw [hmoves.order p, hsent, Op.owed, owes, htag]
  | flush tsc nic =>
    obtain ⟨tx', fs, hrun, hmoves⟩ := execTx_moves hz hv (.timely tsc nic)
    have hburst : twTimelyBurst hz nic tsc s.tx = .ret (tx', fs) := hrun
    exact ⟨{ s with tx := tx' }, fs, by rw [step, hburst, Outcome.ret_bind], hlists, hmoves⟩

/-- What has left a port, followed by the few packets in its buffer, is what it was owed, and a
drain that is due leaves nothing in the buffers of the ports with ids below their number. -/
structure Serves (app : EchoApp) (hz : UInt64) (ops : List Op) (s : Server app)
    (es : List (TxEvent Mbuf)) : Prop where
  order : ∀ p, leftPort p es ++ s.tx.conf.queues p = owed app p ops
  short : ∀ p, (s.tx.conf.queues p).length < maxTxPktBurst
  drained : ∀ tsc nic, drainDue hz tsc s.tx →
    ∃ s' fs, step app hz s (.flush tsc nic) = .ret (s', fs) ∧ ∀ p : Fin maxEthPorts,
      p.val < s.tx.conf.numPort.toNat → leftPort p (es ++ fs) = owed app p ops

/-- What every step keeps. -/
structure InOrder (app : EchoApp) (ops : List Op) (s : Server app) (es : List (TxEvent Mbuf)) :
    Prop where
  valid : s.tx.Valid
  lists : ∃ xs, s.arp.Lists xs
  order : ∀ p, leftPort p es ++ s.tx.conf.queues p = owed app p ops

lemma InOrder.serves {ops : List Op} {es : List (TxEvent Mbuf)} (h : InOrder app ops s es) :
    Serves app hz ops s es := by
  refine ⟨h.order, fun p => ?_, fun tsc nic hdue => ?_⟩
  · have hlen := LcoreConf.queues_length h.valid.bounded p
    have hb := h.valid.bounded p
    omega
  · obtain ⟨tx', hburst, -⟩ := twTimelyBurst_due nic h.valid.bounded h.valid.ports hdue
    refine ⟨{ s with tx := tx' }, _, by rw [step, hburst, Outcome.ret_bind], fun p hp => ?_⟩
    have hleft : leftPort p (s.tx.conf.queues.drain nic s.tx.conf.numPort.toNat).2 =
        s.tx.conf.queues p := by
      simp only [TxQueues.drain, leftPort_drainEvents, if_pos hp]
    rw [leftPort_append, hleft, h.order p]

/-- A loop that has just been entered: nothing is buffered. -/
structure Fresh (s : Server app) : Prop where
  ports : s.tx.conf.numPort.toNat ≤ maxEthPorts
  empty : ∀ p, (s.tx.conf.txMbufs p).len = 0
  lists : ∃ xs, s.arp.Lists xs

lemma Fresh.inOrder (hs : Fresh s) : InOrder app [] s [] := by
  refine ⟨⟨fun p => ?_, hs.ports⟩, hs.lists, fun p => ?_⟩
  · simp [hs.empty p, maxTxPktBurst]
  · rw [LcoreConf.queues, MbufTable.buffered, hs.empty p]
    rfl

lemma run_inOrder (hz : UInt64) (hs : Fresh s) {ops pre : List Op} (hops : ∀ op ∈ ops, op.Fine app)
    (hpre : pre <+: ops) :
    ∃ s' es, runOps (step app hz) s pre = .ret (s', es) ∧ InOrder app pre s' es := by
  refine runOps_reaches (L := fun _ _ op => op.Fine app) (C := fun _ _ => True) hs.inOrder ?_
    (eachCall_of_forall fun op hop _ _ => hops op hop) (fun _ _ _ _ _ _ _ => trivial) hpre
  intro pre s es op h hop _
  obtain ⟨s', fs, hstep, hlists, hmoves⟩ := step_moves hz h.valid h.lists hop
  refine ⟨s', fs, hstep, hmoves.valid, hlists, fun p => ?_⟩
  rw [leftPort_append, List.append_assoc, hmoves.order, ← List.append_assoc, h.order, owed, owed,
    List.flatMap_append, List.flatMap_singleton]

def emptyTx : TxState Mbuf where
  conf := ⟨[], 2, fun p => portByte p, fun _ => ⟨0, fun _ => smallPing 0⟩⟩
  stats := ⟨0, 0, 0⟩
  prevTsc := 0

lemma fresh_emptyTx (app : EchoApp) (st : app.State) :
    Fresh (⟨st, .empty, emptyTx⟩ : Server app) :=
  ⟨show emptyTx.conf.numPort.toNat ≤ maxEthPorts by decide, fun _ => rfl, [], rfl⟩

def pingThenFlush (slot : Fin maxEthPorts) : List Op :=
  [.recv slot ⟨smallPing 0, .bump zeroEntry⟩ nicTwo, .flush 5000 nicTwo]

lemma pingThenFlush_fine {app : EchoApp} {slot : Fin maxEthPorts} (hslot : app.serves slot) :
    ∀ op ∈ pingThenFlush slot, op.Fine app := by
  have htag : Strippable (smallPing 0) := ⟨smallPing 0, by rw [untag, if_neg (by decide)]⟩
  intro op hop
  simp only [pingThenFlush, List.mem_cons, List.not_mem_nil, or_false] at hop
  rcases hop with rfl | rfl
  · exact ⟨htag, hslot, fun heap h => by cases h⟩
  · trivial

end Run

section Senders
variable {app : Tw0App} {m : Mbuf} {p : Fin maxEthPorts}

/-- An ARP reply names the port it leaves, the answer to an IPv4 packet names `tw0`. -/
def Sender (app : Tw0App) (p : Fin maxEthPorts) (m : Mbuf) : Prop :=
  rteBeToCpu16 m.etherType = etherTypeARP ∧ m.sAddr = (app.ports p).ethMac ∨
    rteBeToCpu16 m.etherType = etherTypeIPv4 ∧ m.sAddr = app.mac

lemma turnEther_etherType (mac : EtherAddr) (m : Mbuf) :
    (turnEther mac m).etherType = m.etherType := by
  have hload : (turnEther mac m).load 12 2 = m.load 12 2 :=
    Mbuf.load_congr_byteAt fun i _ => turnEther_byteAt (by omega)
  rw [Mbuf.etherType, hload, Mbuf.etherType]

lemma sender_of_owes {slot : Fin maxEthPorts} {rx : Mbuf}
    (hm : m ∈ onPort p (owes (metherEchoApp app) slot rx)) : Sender app p m := by
  obtain ⟨⟨m', id⟩, hx, rfl⟩ := List.mem_map.mp hm
  obtain ⟨hx, hid⟩ := List.mem_filter.mp hx
  have hport : id = portByte p := of_decide_eq_true hid
  unfold owes at hx
  split at hx
  case h_1 pkt _ =>
    split at hx
    case isTrue harp =>
      unfold parseEffects at hx
      split at hx
      · simp only [PktEffect.sent, List.mem_singleton, Prod.mk.injEq] at hx
        obtain ⟨rfl, hslot⟩ := hx
        obtain rfl : slot = p := portByte_injective (hslot.symm.trans hport)
        have hreply := overwriteWithReply_isReply (app.ports slot) pkt
        exact Or.inl ⟨by rw [← harp]; exact congrArg _ hreply.etherType, hreply.sAddr⟩
      · cases hx
    case isFalse =>
      split at hx
      case isTrue hip =>
        obtain ⟨rfl, -⟩ := Prod.mk.inj (List.mem_singleton.mp hx)
        refine Or.inr ⟨?_, turnEther_sAddr app.mac pkt⟩
        exact (congrArg _ (turnEther_etherType app.mac pkt)).trans hip
      case isFalse => cases hx
  case h_2 => cases hx

/-- In every run of the echo on two ports what leaves `tw1` for a host there comes from the address
of `tw0`, though an ARP reply has told the host the address of `tw1`. -/
theorem metherEcho_senders (app : Tw0App) (hz : UInt64) {s₀ : Server (metherEchoApp app)}
    (hs : Fresh s₀) {ops : List Op} (hops : ∀ op ∈ ops, op.Fine (metherEchoApp app)) :
    Throughout (step (metherEchoApp app) hz) s₀
      (fun _ _ es => ∀ p, ∀ m ∈ leftPort p es, Sender app p m) ops := by
  intro pre hpre
  obtain ⟨s, es, hrun, h⟩ := run_inOrder hz hs hops hpre
  refine ⟨s, es, hrun, fun p m hm => ?_⟩
  have howed : m ∈ owed (metherEchoApp app) p pre := h.order p ▸ List.mem_append_left _ hm
  obtain ⟨op, -, hop⟩ := List.mem_flatMap.mp howed
  cases op with
  | recv slot rx nic => exact sender_of_owes hop
  | flush tsc nic => cases hop

theorem metherEcho_senders_ping :
    Throughout (step (metherEchoApp echoServer) 1000000) ⟨(), .empty, emptyTx⟩
      (fun _ _ es => ∀ p, ∀ m ∈ leftPort p es, Sender echoServer p m) (pingThenFlush 1) :=
  metherEcho_senders echoServer 1000000 (fresh_emptyTx _ _) (pingThenFlush_fine rfl)

end Senders
end EchoRun
end Twister
