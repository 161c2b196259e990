import Twister.Receive

/-! What the receive phase does with every packet: who gets it, on behalf of which
port, and what becomes of its buffer. -/
namespace Twister

def wireType (m : Mbuf) : Outcome UInt16 := do
  let m ← untag (m.dataLen + 1) m
  .ret (rteBeToCpu16 m.etherType)

/-- The dispatch has a case for the packet. -/
def RxItem.Handled (item : RxItem) : Prop :=
  wireType item.rx.pkt = .ret etherTypeARP ∨ wireType item.rx.pkt = .ret etherTypeIPv4

instance : DecidablePred RxItem.Handled := fun item =>
  inferInstanceAs (Decidable (wireType item.rx.pkt = _ ∨ wireType item.rx.pkt = _))

/-- The call handles the packet as one that arrived on `port`: an ARP packet is
answered and learned from for that port, and the application is told the name of that
port. -/
inductive HandledFor (ports : PortTable) (item : RxItem) (port : Fin maxEthPorts) : RxCall → Prop
  | arp {pkt : Mbuf} {portId : UInt8} {before after : ArpState} {es : List PktEffect}
      {xs xs' : List (ℕ × ArpEntry)}
      (htag : untag (item.rx.pkt.dataLen + 1) item.rx.pkt = .ret pkt)
      (htype : rteBeToCpu16 pkt.etherType = etherTypeARP) (hid : portId = portByte port)
      (heffects : es = parseEffects (ports port) pkt (portByte port))
      (hbefore : before.Lists xs) (hafter : after.Lists xs')
      (hlearns : Learns xs xs' (taught (ports port) pkt (portByte port))) :
      HandledFor ports item port (.parseArp pkt portId before after es)
  | ipv4 {buf : TwBuf} (htag : untag (item.rx.pkt.dataLen + 1) item.rx.pkt = .ret buf.pkt)
      (htype : rteBeToCpu16 buf.pkt.etherType = etherTypeIPv4) (hname : buf.portName = port) :
      HandledFor ports item port (.recvCb buf)

lemma HandledFor.port_unique {ports : PortTable} {item : RxItem} {p q : Fin maxEthPorts}
    {call : RxCall} (hp : HandledFor ports item p call) (hq : HandledFor ports item q call) :
    p = q := by
  cases hp with
  | arp _ _ hid =>
    cases hq with
    | arp _ _ hid' => exact portByte_injective (hid.symm.trans hid')
  | ipv4 _ _ hname =>
    cases hq with
    | ipv4 _ _ hname' => rw [← hname, hname']

/-- The calls stand in the order of the packets, one for each, and are made for the
port whose id is the slot. -/
def HandledInSlot (ports : PortTable) (items : List RxItem) (calls : List RxCall) : Prop :=
  List.Forall₂ (fun i c => ∃ s : Fin maxEthPorts, i.slot = s.val ∧ HandledFor ports i s c)
    items calls

section Dispatch
variable {st : ArpState} {xs : List (ℕ × ArpEntry)} {item : RxItem}

/-- The packet's tags fit into it, so that what follows them can be read. -/
def Strippable (m : Mbuf) : Prop := ∃ m', untag (m.dataLen + 1) m = .ret m'

/-- One packet: handled for the port whose id is the slot, or, without a case, left
alone. The process ends for want of memory and faults on tags that do not fit. -/
lemma dispatch_spec (ports : PortTable) (handle : RxHandle) (h : st.Lists xs)
    {slot : Fin maxEthPorts} (hslot : item.slot = slot.val) :
    (∃ st' calls, dispatch ports handle st item = .ret (st', calls) ∧ (∃ xs', st'.Lists xs') ∧
      HandledInSlot ports ([item].filter (RxItem.Handled ·)) calls) ∨
    (dispatch ports handle st item = .exit "CAN'T ALLOCATE ARP TABLE ENTRY\n" ∧
      ∃ heap, item.rx.mem.pick heap = none) ∨
    (dispatch ports handle st item = .fault ∧ ¬ Strippable item.rx.pkt) := by
  rcases untag_ret_or_fault (Nat.lt_succ_self item.rx.pkt.dataLen) with ⟨pkt, htag⟩ | htag
  swap
  · refine Or.inr (Or.inr ⟨by rw [dispatch, htag]; rfl, fun hs => ?_⟩)
    obtain ⟨m', hm'⟩ := hs
    rw [htag] at hm'
    cases hm'
  have hwire : wireType item.rx.pkt = .ret (rteBeToCpu16 pkt.etherType) := by
    simp only [wireType, htag, Outcome.ret_bind]
  have hbyte : UInt8.ofNat item.slot = portByte slot := by rw [hslot, portByte]
  simp only [dispatch, htag, Outcome.ret_bind, hbyte]
  by_cases harp : rteBeToCpu16 pkt.etherType = etherTypeARP
  · have hhandled : item.Handled := Or.inl (hwire.trans (congrArg _ harp))
    rw [if_pos harp]
    by_cases hm : NeedsEntry (ports slot) xs pkt → item.rx.mem.pick st.heap ≠ none
    · obtain ⟨st', xs', hrun, hlist, -, hl⟩ := twParseArp_ret ports h slot hm
      refine Or.inl ⟨st', _, by rw [hrun]; rfl, ⟨xs', hlist⟩, ?_⟩
      simp only [hhandled, decide_true, List.filter_cons_of_pos, List.filter_nil]
      exact .cons ⟨slot, hslot, .arp htag harp rfl rfl h hlist hl⟩ .nil
    · rw [Classical.not_imp, not_not] at hm
      exact Or.inr (Or.inl ⟨by rw [twParseArp_exit h slot hm.1 hm.2]; rfl, st.heap, hm.2⟩)
  · by_cases hip : rteBeToCpu16 pkt.etherType = etherTypeIPv4
    · have hhandled : item.Handled := Or.inr (hwire.trans (congrArg _ hip))
      have hlt : item.slot < maxEthPorts := hslot ▸ slot.isLt
      rw [if_neg harp, if_pos hip, dif_pos hlt]
      refine Or.inl ⟨_, _, rfl, handle.keeps _ st xs h, ?_⟩
      simp only [hhandled, decide_true, List.filter_cons_of_pos, List.filter_nil]
      exact .cons ⟨slot, hslot, .ipv4 htag hip (Fin.ext hslot)⟩ .nil
    · have hnot : ¬ item.Handled := by
        intro hh
        rcases hh with hh | hh
        · exact harp (by simpa [hwire] using hh)
        · exact hip (by simpa [hwire] using hh)
      rw [if_neg harp, if_neg hip]
      refine Or.inl ⟨st, [], rfl, ⟨xs, h⟩, ?_⟩
      simp [HandledInSlot, hnot]

end Dispatch

section Phase
variable {μ : Type} {dev : RxDevice} {conf : LcoreConf μ} {st : ArpState}
  {xs : List (ℕ × ArpEntry)}

/-- The slot of a packet holds the port it came from. -/
lemma received_slot {managed : List UInt8} {item : RxItem} (h : item ∈ received dev managed) :
    managed[item.slot]? = some item.portid := by
  simp only [received, rxItems, List.mem_flatMap, List.mem_map] at h
  obtain ⟨⟨s, k⟩, hs, rx, -, rfl⟩ := h
  have hk := List.mem_zipIdx_iff_getElem?.mp hs
  simp only [slotsOf, List.getElem?_map, List.getElem?_zipIdx, Option.map_map] at hk
  obtain ⟨p, hp, rfl⟩ := Option.map_eq_some_iff.mp hk
  simpa using hp

lemma received_slot_lt (hn : conf.numPort.toNat ≤ maxEthPorts) {item : RxItem}
    (h : item ∈ received dev conf.managed) : item.slot < maxEthPorts := by
  obtain ⟨hlt, -⟩ := List.getElem?_eq_some_iff.mp (received_slot h)
  rw [LcoreConf.managed_length hn] at hlt
  omega

lemma rxPhase_spec (dev : RxDevice) (ports : PortTable) (handle : RxHandle) (stats : TwStats)
    (hn : conf.numPort.toNat ≤ maxEthPorts) (h : st.Lists xs) :
    (∃ stats' st' calls, rxPhase dev ports handle conf stats st = .ret (stats', st', calls) ∧
      HandledInSlot ports ((received dev conf.managed).filter (RxItem.Handled ·)) calls) ∨
    (rxPhase dev ports handle conf stats st = .exit "CAN'T ALLOCATE ARP TABLE ENTRY\n" ∧
      ∃ item ∈ received dev conf.managed, ∃ heap, item.rx.mem.pick heap = none) ∨
    (rxPhase dev ports handle conf stats st = .fault ∧
      ∃ item ∈ received dev conf.managed, ¬ Strippable item.rx.pkt) := by
  obtain ⟨stats', hphase⟩ := rxPhase_eq dev hn ports handle stats st
  -- the application may change the table between two packets, but not its shape
  let J (pre : List RxItem) (st : ArpState) (calls : List RxCall) : Prop :=
    (∃ xs, st.Lists xs) ∧ HandledInSlot ports (pre.filter (RxItem.Handled ·)) calls
  have hstart : J [] st [] := ⟨⟨xs, h⟩, .nil⟩
  have hstep : ∀ pre item, pre ++ [item] <+: received dev conf.managed → ∀ s calls,
      J pre s calls →
      (∃ s' cs, dispatch ports handle s item = .ret (s', cs) ∧
        J (pre ++ [item]) s' (calls ++ cs)) ∨
      (dispatch ports handle s item = .exit "CAN'T ALLOCATE ARP TABLE ENTRY\n" ∧
        ∃ heap, item.rx.mem.pick heap = none) ∨
      (dispatch ports handle s item = .fault ∧ ¬ Strippable item.rx.pkt) := by
    intro pre item hpre s calls hJ
    obtain ⟨⟨ys, hys⟩, hcalls⟩ := hJ
    have hmem : item ∈ received dev conf.managed := hpre.subset (by simp)
    let slot : Fin maxEthPorts := ⟨item.slot, received_slot_lt hn hmem⟩
    have hslot : item.slot = slot.val := rfl
    rcases dispatch_spec ports handle hys hslot with ⟨s', cs, hd, hlist, hc⟩ | hstop
    · refine Or.inl ⟨s', cs, hd, hlist, ?_⟩
      rw [List.filter_append]
      exact List.rel_append hcalls hc
    · exact Or.inr hstop
  rcases run_invariant_or_stop hstart hstep with
    ⟨st', calls, hret, -, hcalls⟩ | ⟨hexit, hcause⟩ | ⟨hfault, hcause⟩
  · exact Or.inl ⟨stats', st', calls, by rw [hphase, hret]; rfl, hcalls⟩
  · exact Or.inr (Or.inl ⟨by rw [hphase, hexit]; rfl, hcause⟩)
  · exact Or.inr (Or.inr ⟨by rw [hphase, hfault]; rfl, hcause⟩)

end Phase

section OneFrame

def plainFrame (t : UInt16) : Mbuf :=
  (Mbuf.mk 0 (fun _ => 0) mbufBufLen headroom 60).setEtherType (rteCpuToBe16 t)

def oneFrame (t : UInt16) : RxDevice where
  rteEthRxBurst _ k := if k = 0 then [⟨plainFrame t, .bump ⟨⟨0, fun _ => 0, 0⟩, none⟩⟩] else []
  burst_le port k := by
    split <;> simp [maxRxPktBurst]

def passive : RxHandle := ⟨fun _ st => st, fun _ _ xs h => ⟨xs, h⟩⟩

lemma plainFrame_etherType (t : UInt16) : rteBeToCpu16 (plainFrame t).etherType = t := by
  simp only [plainFrame, Mbuf.etherType, Mbuf.setEtherType, Mbuf.load_store_self, le16_bytes16,
    rteBeToCpu16_rteCpuToBe16]

lemma plainFrame_untag {t : UInt16} (ht : t ≠ etherTypeVLAN) :
    untag ((plainFrame t).dataLen + 1) (plainFrame t) = .ret (plainFrame t) := by
  rw [untag, if_neg (by rwa [plainFrame_etherType])]

lemma plainFrame_wireType {t : UInt16} (ht : t ≠ etherTypeVLAN) :
    wireType (plainFrame t) = .ret t := by
  rw [wireType, plainFrame_untag ht, Outcome.ret_bind, plainFrame_etherType]

lemma received_oneFrame (t : UInt16) (port : UInt8) : received (oneFrame t) [port] =
    [⟨0, port, ⟨plainFrame t, .bump ⟨⟨0, fun _ => 0, 0⟩, none⟩⟩⟩] := rfl

lemma oneFrame_allocates {t : UInt16} {port : UInt8} :
    ¬ ∃ item ∈ received (oneFrame t) [port], ∃ heap, item.rx.mem.pick heap = none := by
  rintro ⟨item, hitem, heap, hnone⟩
  rw [received_oneFrame, List.mem_singleton] at hitem
  subst hitem
  cases hnone

lemma oneFrame_strippable {t : UInt16} (ht : t ≠ etherTypeVLAN) {port : UInt8} :
    ¬ ∃ item ∈ received (oneFrame t) [port], ¬ Strippable item.rx.pkt := by
  rintro ⟨item, hitem, hnot⟩
  rw [received_oneFrame, List.mem_singleton] at hitem
  subst hitem
  exact hnot ⟨_, plainFrame_untag ht⟩

lemma rxPhase_oneFrame {μ : Type} {conf : LcoreConf μ} {port : UInt8} {t : UInt16}
    (hn : conf.numPort = 1) (hman : conf.managed = [port]) (ht : t ≠ etherTypeVLAN)
    (ports : PortTable) (stats : TwStats) :
    ∃ stats' st' calls,
      rxPhase (oneFrame t) ports passive conf stats ArpState.empty = .ret (stats', st', calls) ∧
      HandledInSlot ports ((received (oneFrame t) [port]).filter (RxItem.Handled ·)) calls := by
  have hempty : ArpState.empty.Lists [] := rfl
  have hfits : conf.numPort.toNat ≤ maxEthPorts := by
    rw [hn]
    decide
  rcases rxPhase_spec (oneFrame t) ports passive stats hfits hempty with
    hret | ⟨-, hends⟩ | ⟨-, hfaults⟩
  · rwa [hman] at hret
  · rw [hman] at hends
    exact absurd hends oneFrame_allocates
  · rw [hman] at hfaults
    exact absurd hfaults (oneFrame_strippable ht)

end OneFrame

section Attribution
variable {μ : Type} {ports : PortTable}

/-- Every call is made for the device port its packet arrived on. -/
def Attributed (ports : PortTable) (items : List RxItem) (calls : List RxCall) : Prop :=
  List.Forall₂ (fun i c => ∃ p : Fin maxEthPorts, i.portid = portByte p ∧ HandledFor ports i p c)
    items calls

lemma attributed_iff {items : List RxItem} {calls : List RxCall}
    (h : HandledInSlot ports items calls) :
    Attributed ports items calls ↔ ∀ item ∈ items, item.portid.toNat = item.slot := by
  induction h with
  | nil => exact ⟨fun _ _ hx => (List.not_mem_nil hx).elim, fun _ => .nil⟩
  | @cons item call items calls hslot _ ih =>
    obtain ⟨s, hs, hh⟩ := hslot
    rw [List.forall_mem_cons, ← ih]
    constructor
    · intro ha
      cases ha with
      | cons hport hrest =>
        obtain ⟨p, hp, hh'⟩ := hport
        obtain rfl := hh.port_unique hh'
        exact ⟨by rw [hp, portByte_toNat, hs], hrest⟩
    · intro ha
      refine .cons ⟨s, ?_, hh⟩ ha.2
      apply UInt8.toNat_inj.mp
      rw [ha.1, portByte_toNat, hs]

/-- For an engine configured by any mapping calls, the packets of an iteration are
attributed to their ports exactly when every slot that received a packet with a case
holds the port of its own number. -/
theorem rxPhase_attributed_iff {confs₀ confs : LcoreTable μ} {calls : List (CString × CString)}
    (hinit : ∀ e, (confs₀ e).numPort = 0)
    (hok : ∀ call ∈ calls, Mappable ports confs₀ call.1 call.2)
    (hfit : ∀ e, (portsOf ports confs₀ calls e).length ≤ maxEthPorts)
    (hmap : mapPorts ports confs₀ calls = .ret confs) (e : Fin maxLcores) (dev : RxDevice)
    {st : ArpState} {xs : List (ℕ × ArpEntry)} (h : st.Lists xs) (handle : RxHandle)
    (stats : TwStats) :
    (∃ stats' st' cs, rxPhase dev ports handle (confs e) stats st = .ret (stats', st', cs) ∧
      (Attributed ports
          ((received dev (portsOf ports confs₀ calls e)).filter (RxItem.Handled ·)) cs ↔
        ∀ item ∈ received dev (portsOf ports confs₀ calls e), item.Handled →
          item.portid.toNat = item.slot)) ∨
    (rxPhase dev ports handle (confs e) stats st = .exit "CAN'T ALLOCATE ARP TABLE ENTRY\n" ∧
      ∃ item ∈ received dev (portsOf ports confs₀ calls e), ∃ heap,
        item.rx.mem.pick heap = none) ∨
    (rxPhase dev ports handle (confs e) stats st = .fault ∧
      ∃ item ∈ received dev (portsOf ports confs₀ calls e), ¬ Strippable item.rx.pkt) := by
  obtain ⟨hman, hnum⟩ := mapPorts_fresh hinit hok hfit hmap e
  rw [← hman]
  rcases rxPhase_spec dev ports handle stats (hnum ▸ hfit e) h with
    ⟨stats', st', cs, hrun, hcalls⟩ | hstop
  · refine Or.inl ⟨stats', st', cs, hrun, ?_⟩
    rw [attributed_iff hcalls]
    simp [List.mem_filter]
  · exact Or.inr hstop

theorem rxPhase_attributed_tw0 :
    ∃ confs stats' st' cs, mapPorts twPorts idleEngines [(twName 0, engineName 0)] = .ret confs ∧
      rxPhase (oneFrame etherTypeARP) twPorts passive (confs 0) ⟨0, 0, 0⟩ ArpState.empty =
        .ret (stats', st', cs) ∧
      Attributed twPorts ((received (oneFrame etherTypeARP) [0]).filter (RxItem.Handled ·)) cs := by
  have hports : portsOf twPorts idleEngines [(twName 0, engineName 0)] 0 = [0] := by decide
  have hempty : ArpState.empty.Lists [] := rfl
  obtain ⟨confs, hmap⟩ : ∃ confs,
      mapPorts twPorts idleEngines [(twName 0, engineName 0)] = .ret confs := ⟨_, rfl⟩
  have hphase := rxPhase_attributed_iff (fun _ => rfl) (by decide) (by decide) hmap 0
    (oneFrame etherTypeARP) hempty passive ⟨0, 0, 0⟩
  rw [hports] at hphase
  rcases hphase with ⟨stats', st', cs, hrun, hiff⟩ | ⟨-, hends⟩ | ⟨-, hfaults⟩
  · refine ⟨confs, stats', st', cs, hmap, hrun, hiff.mpr fun item hitem _ => ?_⟩
    rw [received_oneFrame, List.mem_singleton] at hitem
    rw [hitem]
    rfl
  · exact absurd hends oneFrame_allocates
  · exact absurd hfaults (oneFrame_strippable (by decide))

/-- An engine that manages only `tw1` handles its packets as those of `tw0`. -/
theorem rxPhase_misattributes_tw1 :
    ∃ confs stats' st' cs, mapPorts twPorts idleEngines [(twName 1, engineName 0)] = .ret confs ∧
      (confs 0).managed = [1] ∧
      rxPhase (oneFrame etherTypeARP) twPorts passive (confs 0) ⟨0, 0, 0⟩ ArpState.empty =
        .ret (stats', st', cs) ∧
      ¬ Attributed twPorts ((received (oneFrame etherTypeARP) [1]).filter (RxItem.Handled ·))
        cs := by
  obtain ⟨confs, hmap, hn, hman⟩ :
      ∃ confs, mapPorts twPorts idleEngines [(twName 1, engineName 0)] = .ret confs ∧
        (confs 0).numPort = 1 ∧ (confs 0).managed = [1] := ⟨_, rfl, rfl, rfl⟩
  obtain ⟨stats', st', cs, hrun, hcalls⟩ := rxPhase_oneFrame (t := etherTypeARP) hn hman
    (by decide) twPorts ⟨0, 0, 0⟩
  refine ⟨confs, stats', st', cs, hmap, hman, hrun, fun ha => ?_⟩
  have hslots := (attributed_iff hcalls).mp ha
  have hmem : (⟨0, 1, ⟨plainFrame etherTypeARP, .bump ⟨⟨0, fun _ => 0, 0⟩, none⟩⟩⟩ : RxItem) ∈
      (received (oneFrame etherTypeARP) [1]).filter (RxItem.Handled ·) := by
    rw [received_oneFrame, List.mem_filter]
    exact ⟨List.mem_singleton_self _, decide_eq_true (Or.inl (plainFrame_wireType (by decide)))⟩
  exact absurd (hslots _ hmem) (by decide)

end Attribution

section Disposal

inductive RxFate
  | passed
  | enqueued
  | freed
  deriving DecidableEq

def RxCall.fates : RxCall → List (RxFate × ℕ)
  | .parseArp _ _ _ _ es => es.map fun
    | .free pkt => (.freed, pkt.addr)
    | .addToTxQueue pkt _ => (.enqueued, pkt.addr)
  | .recvCb buf => [(.passed, buf.pkt.addr)]

def DisposedOnce (calls : List RxCall) (m : Mbuf) : Prop :=
  ((calls.flatMap RxCall.fates).filter fun x => x.2 = m.addr).length = 1

lemma HandledFor.fates_addr {ports : PortTable} {item : RxItem} {p : Fin maxEthPorts}
    {call : RxCall} (h : HandledFor ports item p call) :
    call.fates.map Prod.snd = [item.rx.pkt.addr] := by
  cases h with
  | @arp pkt portId before after es xs xs' htag htype hid heffects =>
    have haddr := untag_addr htag
    subst heffects
    unfold parseEffects
    split
    · simp [RxCall.fates, (overwriteWithReply_isReply (ports p) pkt).addr, haddr]
    · simp [RxCall.fates, haddr]
  | ipv4 htag =>
    have haddr := untag_addr htag
    simp [RxCall.fates, haddr]

lemma fates_addrs {ports : PortTable} {items : List RxItem} {calls : List RxCall}
    (h : HandledInSlot ports items calls) :
    (calls.flatMap RxCall.fates).map Prod.snd = items.map fun i => i.rx.pkt.addr := by
  induction h with
  | nil => rfl
  | cons hslot _ ih =>
    obtain ⟨s, -, hh⟩ := hslot
    rw [List.flatMap_cons, List.map_append, ih, hh.fates_addr]
    rfl

lemma disposedOnce_iff {items : List RxItem} {calls : List RxCall}
    (hnd : (items.map fun i => i.rx.pkt.addr).Nodup)
    (hc : (calls.flatMap RxCall.fates).map Prod.snd =
      (items.filter (RxItem.Handled ·)).map fun i => i.rx.pkt.addr) {item : RxItem}
    (hmem : item ∈ items) : DisposedOnce calls item.rx.pkt ↔ item.Handled := by
  have hcount : ((calls.flatMap RxCall.fates).filter fun x => x.2 = item.rx.pkt.addr).length =
      ((items.filter (RxItem.Handled ·)).map fun i => i.rx.pkt.addr).count item.rx.pkt.addr := by
    rw [← hc, List.count, List.countP_map, List.countP_eq_length_filter]
    rfl
  have hsub : ((items.filter (RxItem.Handled ·)).map fun i => i.rx.pkt.addr).Nodup :=
    hnd.sublist (List.filter_sublist.map _)
  rw [DisposedOnce, hcount]
  constructor
  · intro hone
    have hin : item.rx.pkt.addr ∈ (items.filter (RxItem.Handled ·)).map fun i => i.rx.pkt.addr :=
      List.count_pos_iff.mp (by omega)
    obtain ⟨other, hother, haddr⟩ := List.mem_map.mp hin
    rw [List.mem_filter] at hother
    have heq : other = item := List.inj_on_of_nodup_map hnd hother.1 hmem haddr
    exact heq ▸ of_decide_eq_true hother.2
  · intro hh
    refine List.count_eq_one_of_mem hsub (List.mem_map.mpr ⟨item, ?_, rfl⟩)
    exact List.mem_filter.mpr ⟨hmem, decide_eq_true hh⟩

/-- The ether type behind one tag, if there is one. -/
def innerType (m : Mbuf) : UInt16 :=
  if rteBeToCpu16 m.etherType = etherTypeVLAN then rteBeToCpu16 (le16 (m.load 16 2))
  else rteBeToCpu16 m.etherType

lemma untag_single {m : Mbuf} (hlen : 46 ≤ m.dataLen) (htag : innerType m ≠ etherTypeVLAN) :
    ∃ m', untag (m.dataLen + 1) m = .ret m' ∧ rteBeToCpu16 m'.etherType = innerType m := by
  by_cases hv : rteBeToCpu16 m.etherType = etherTypeVLAN
  · have hsize : sizeofVlanHdr = 4 := rfl
    obtain ⟨m', hstrip, -, -, htype⟩ := rteVlanStrip_ret hv (by omega)
    have hinner : rteBeToCpu16 m'.etherType = innerType m := by
      rw [htype, innerType, if_pos hv]
    obtain ⟨k, hk⟩ : ∃ k, m.dataLen = k + 1 := ⟨m.dataLen - 1, by omega⟩
    refine ⟨m', ?_, hinner⟩
    rw [untag, if_pos hv, hstrip, Outcome.ret_bind, hk, untag, if_neg (hinner ▸ htag)]
  · refine ⟨m, ?_, by rw [innerType, if_neg hv]⟩
    rw [untag, if_neg hv]

lemma handled_iff_innerType {item : RxItem} (hlen : 46 ≤ item.rx.pkt.dataLen)
    (htag : innerType item.rx.pkt ≠ etherTypeVLAN) :
    item.Handled ↔ innerType item.rx.pkt = etherTypeARP ∨ innerType item.rx.pkt = etherTypeIPv4 := by
  obtain ⟨m', hu, htype⟩ := untag_single hlen htag
  have hwire : wireType item.rx.pkt = .ret (innerType item.rx.pkt) := by
    rw [wireType, hu, Outcome.ret_bind, htype]
  rw [RxItem.Handled, hwire, Outcome.ret.injEq, Outcome.ret.injEq]

/-- Every received buffer is disposed of once exactly when every frame is an ARP or an
IPv4 frame. -/
theorem rxPhase_disposes_iff {μ : Type} (dev : RxDevice) (conf : LcoreConf μ) (ports : PortTable)
    {st : ArpState} {xs : List (ℕ × ArpEntry)} (hn : conf.numPort.toNat ≤ maxEthPorts)
    (h : st.Lists xs)
    (hnd : ((received dev conf.managed).map fun item => item.rx.pkt.addr).Nodup)
    (hlen : ∀ item ∈ received dev conf.managed, 46 ≤ item.rx.pkt.dataLen)
    (htag : ∀ item ∈ received dev conf.managed, innerType item.rx.pkt ≠ etherTypeVLAN)
    (handle : RxHandle) (stats : TwStats) :
    (∃ stats' st' calls, rxPhase dev ports handle conf stats st = .ret (stats', st', calls) ∧
      ((∀ item ∈ received dev conf.managed, DisposedOnce calls item.rx.pkt) ↔
        ∀ item ∈ received dev conf.managed, innerType item.rx.pkt = etherTypeARP ∨
          innerType item.rx.pkt = etherTypeIPv4)) ∨
    (rxPhase dev ports handle conf stats st = .exit "CAN'T ALLOCATE ARP TABLE ENTRY\n" ∧
      ∃ item ∈ received dev conf.managed, ∃ heap, item.rx.mem.pick heap = none) := by
  rcases rxPhase_spec dev ports handle stats hn h with
    ⟨stats', st', calls, hrun, hcalls⟩ | hexit | ⟨-, item, hitem, hnot⟩
  · refine Or.inl ⟨stats', st', calls, hrun, forall₂_congr fun item hitem => ?_⟩
    rw [disposedOnce_iff hnd (fates_addrs hcalls) hitem,
      handled_iff_innerType (hlen item hitem) (htag item hitem)]
  · exact Or.inr hexit
  · obtain ⟨m', hu, -⟩ := untag_single (hlen item hitem) (htag item hitem)
    exact absurd ⟨m', hu⟩ hnot

def onePort : LcoreConf ℕ := ⟨engineName 0, 1, fun _ => 0, fun _ => ⟨0, fun _ => 0⟩⟩

lemma onePort_managed : onePort.managed = [0] := rfl

lemma plainFrame_innerType {t : UInt16} (ht : t ≠ etherTypeVLAN) :
    innerType (plainFrame t) = t := by
  rw [innerType, if_neg (by rwa [plainFrame_etherType]), plainFrame_etherType]

theorem rxPhase_disposes_ipv4 :
    ∃ stats' st' calls, rxPhase (oneFrame etherTypeIPv4) twPorts passive onePort ⟨0, 0, 0⟩
        ArpState.empty = .ret (stats', st', calls) ∧
      ∀ item ∈ received (oneFrame etherTypeIPv4) [0], DisposedOnce calls item.rx.pkt := by
  have hall : ∀ item ∈ received (oneFrame etherTypeIPv4) [0], 46 ≤ item.rx.pkt.dataLen ∧
      innerType item.rx.pkt = etherTypeIPv4 := by
    intro item hitem
    rw [received_oneFrame, List.mem_singleton] at hitem
    subst hitem
    exact ⟨by decide, plainFrame_innerType (by decide)⟩
  have hempty : ArpState.empty.Lists [] := rfl
  rcases rxPhase_disposes_iff (oneFrame etherTypeIPv4) onePort twPorts (by decide) hempty
    (List.nodup_singleton _)
    (fun item hitem => (hall item hitem).1)
    (fun item hitem => by rw [(hall item hitem).2]; decide) passive ⟨0, 0, 0⟩ with
    ⟨stats', st', calls, hrun, hiff⟩ | ⟨-, hends⟩
  · exact ⟨stats', st', calls, hrun, hiff.mpr fun item hitem => Or.inr (hall item hitem).2⟩
  · exact absurd hends oneFrame_allocates

/-- An IPv6 frame is neither passed on nor freed. -/
theorem rxPhase_leaks_ipv6 :
    ∃ stats' st' calls, rxPhase (oneFrame 0x86dd) twPorts passive onePort ⟨0, 0, 0⟩
        ArpState.empty = .ret (stats', st', calls) ∧
      46 ≤ (plainFrame 0x86dd).dataLen ∧ innerType (plainFrame 0x86dd) = 0x86dd ∧
      ∃ item ∈ received (oneFrame 0x86dd) [0], ¬ DisposedOnce calls item.rx.pkt := by
  have hone : onePort.numPort = 1 := rfl
  obtain ⟨stats', st', calls, hrun, hcalls⟩ := rxPhase_oneFrame (t := 0x86dd) hone
    onePort_managed (by decide) twPorts ⟨0, 0, 0⟩
  have hmem : (⟨0, 0, ⟨plainFrame 0x86dd, .bump ⟨⟨0, fun _ => 0, 0⟩, none⟩⟩⟩ : RxItem) ∈
      received (oneFrame 0x86dd) [0] := List.mem_singleton_self _
  have hnd : ((received (oneFrame 0x86dd) [0]).map fun i => i.rx.pkt.addr).Nodup :=
    List.nodup_singleton _
  refine ⟨stats', st', calls, hrun, by decide, plainFrame_innerType (by decide), _, hmem, ?_⟩
  rw [disposedOnce_iff hnd (fates_addrs hcalls) hmem]
  intro hh
  rcases hh with hh | hh
  · rw [plainFrame_wireType (by decide)] at hh
    cases hh
  · rw [plainFrame_wireType (by decide)] at hh
    cases hh

end Disposal
end Twister
