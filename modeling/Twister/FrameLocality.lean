import Twister.EthDemux

/-! How much of the handling of a received frame is decided by the frame itself. The
tag loop and the ARP parser read their fields without looking at the length, so of a
short frame they read what the buffer still holds from before. -/
namespace Twister

section Partial
variable {n : ℕ}

/-- The bytes of the field that are in the frame are those of `w`. -/
def Agrees (f : List UInt8) (off : ℕ) (w : Fin n → UInt8) : Prop :=
  ∀ i : Fin n, off + i < f.length → f.getD (off + i) 0 = w i

lemma Mbuf.load_apply (m : Mbuf) {off : ℕ} (i : Fin n) (hi : off + i < m.dataLen) :
    m.load off n i = m.frame.getD (off + i) 0 := by
  simp [Mbuf.frame, Mbuf.load, Bytes.load, List.getD_eq_getElem?_getD, hi, Nat.add_assoc]

lemma agrees_of_load {m : Mbuf} {off : ℕ} {w : Fin n → UInt8} (h : m.load off n = w) :
    Agrees m.frame off w := by
  intro i hi
  rw [m.frame_length] at hi
  rw [← m.load_apply i hi, h]

lemma load_of_agrees {m : Mbuf} {off : ℕ} {w : Fin n → UInt8} (h : Agrees m.frame off w)
    (hfit : off + n ≤ m.dataLen) : m.load off n = w := by
  funext i
  have hi : off + i < m.dataLen := by omega
  rw [m.load_apply i hi]
  exact h i (by rwa [m.frame_length])

/-- A buffer with the given frame and anything behind it, of the usual size where the frame
fits. -/
def bufferWith (f : List UInt8) (stale : Bytes) : Mbuf where
  addr := 0
  buf j := if j < headroom + f.length then f.getD (j - headroom) 0 else stale (j - headroom)
  bufLen := max mbufBufLen (headroom + f.length)
  dataOff := headroom
  dataLen := f.length

lemma bufferWith_load (f : List UInt8) (stale : Bytes) (off : ℕ) (i : Fin n) :
    (bufferWith f stale).load off n i =
      if off + i < f.length then f.getD (off + i) 0 else stale (off + i) := by
  have hoff : headroom + off + i - headroom = off + i := by omega
  simp only [Mbuf.load, Bytes.load, bufferWith, hoff]
  by_cases hi : off + i < f.length
  · rw [if_pos hi, if_pos (by omega)]
  · rw [if_neg hi, if_neg (by omega)]

lemma bufferWith_frame (f : List UInt8) (stale : Bytes) : (bufferWith f stale).frame = f := by
  refine List.ext_getElem (Mbuf.frame_length _) fun j hj hf => ?_
  have hb := bufferWith_load f stale 0 (n := (bufferWith f stale).dataLen) ⟨j, hf⟩
  simp only [Mbuf.frame, List.getElem_ofFn]
  simpa [hf, List.getD_eq_getElem?_getD] using hb

lemma bufferWith_field {f : List UInt8} {stale : Bytes} {off : ℕ} {w : Fin n → UInt8}
    (h : Agrees f off w) (hs : stale.load off n = w) : (bufferWith f stale).load off n = w := by
  funext i
  rw [bufferWith_load]
  split
  · exact h i ‹_›
  · exact congrFun hs i

/-- A value as it stands in a packet. -/
def wire16 (x : UInt16) : Fin 2 → UInt8 := bytes16 (rteCpuToBe16 x)
def wire32 (x : UInt32) : Fin 4 → UInt8 := bytes32 (rteCpuToBe32 x)

lemma rteBeToCpu16_le16_iff {v : Fin 2 → UInt8} {x : UInt16} :
    rteBeToCpu16 (le16 v) = x ↔ v = wire16 x := by
  constructor
  · rintro rfl
    simp [wire16, rteCpuToBe16, rteBeToCpu16]
  · rintro rfl
    simp [wire16]

lemma rteBeToCpu32_le32_iff {v : Fin 4 → UInt8} {x : UInt32} :
    rteBeToCpu32 (le32 v) = x ↔ v = wire32 x := by
  constructor
  · rintro rfl
    simp [wire32, rteCpuToBe32, rteBeToCpu32]
  · rintro rfl
    simp [wire32]

/-- Two fields of a buffer can have any values that agree with its frame. -/
lemma exists_buffer {k : ℕ} {f : List UInt8} {off off' : ℕ} {w : Fin n → UInt8}
    {w' : Fin k → UInt8} (h : Agrees f off w) (h' : Agrees f off' w') (hsep : off + n ≤ off') :
    ∃ m : Mbuf, m.frame = f ∧ m.load off n = w ∧ m.load off' k = w' := by
  have hfirst : Bytes.load (Bytes.store (Bytes.store (fun _ => 0) off w) off' w') off n = w := by
    rw [Bytes.load_store_of_disjoint _ _ (Or.inl hsep), Bytes.load_store_self]
  exact ⟨bufferWith f (Bytes.store (Bytes.store (fun _ => 0) off w) off' w'),
    bufferWith_frame _ _, bufferWith_field h hfirst,
    bufferWith_field h' (Bytes.load_store_self _ _ _)⟩

end Partial

section Tags
variable {m m' : Mbuf} {k : ℕ} {f : List UInt8}

/-- The frame starts with `k` VLAN tags. -/
def Tagged (f : List UInt8) (k : ℕ) : Prop :=
  ∀ i < k, 14 + 4 * i ≤ f.length ∧ Agrees f (12 + 4 * i) (wire16 etherTypeVLAN)

/-- What removing `k` tags does to the buffer. -/
structure Shifted (k : ℕ) (m m' : Mbuf) : Prop where
  dataLen : m'.dataLen + 4 * k = m.dataLen
  addrs : m'.load 0 12 = m.load 0 12
  rest : ∀ off n, 12 ≤ off → m'.load off n = m.load (off + 4 * k) n

lemma Shifted.refl (m : Mbuf) : Shifted 0 m m := ⟨rfl, rfl, fun _ _ _ => rfl⟩

lemma Shifted.strip {m'' : Mbuf} (hs : Shifted k m m') (ht : Stripped m' m'') :
    Shifted (k + 1) m m'' := by
  have hsize : sizeofVlanHdr = 4 := rfl
  refine ⟨?_, ht.addrs.trans hs.addrs, fun off n hoff => ?_⟩
  · have h1 := hs.dataLen
    have h2 := ht.dataLen
    omega
  · rw [ht.rest off n hoff, hs.rest _ n (by omega), hsize, Nat.mul_succ, Nat.add_assoc,
      Nat.add_comm 4]

/-- The tags of the frame are removed, whatever is behind it. -/
lemma untag_tagged (hm : m.frame = f) (ht : Tagged f k) :
    ∃ m', Shifted k m m' ∧ ∀ fuel, untag (fuel + k) m = untag fuel m' := by
  induction k with
  | zero => exact ⟨m, Shifted.refl m, fun _ => rfl⟩
  | succ k ih =>
    obtain ⟨m', hs, hrun⟩ := ih fun i hi => ht i (Nat.lt_succ_of_lt hi)
    obtain ⟨hlen, htag⟩ := ht k (Nat.lt_succ_self k)
    have hfl : f.length = m.dataLen := by rw [← hm, m.frame_length]
    have hdata := hs.dataLen
    have hv : rteBeToCpu16 m'.etherType = etherTypeVLAN := by
      rw [Mbuf.etherType, rteBeToCpu16_le16_iff, hs.rest 12 2 le_rfl]
      exact load_of_agrees (hm ▸ htag) (by omega)
    have hsize : sizeofVlanHdr = 4 := rfl
    obtain ⟨m'', hstrip, hst⟩ := rteVlanStrip_stripped hv (by omega)
    refine ⟨m'', hs.strip hst, fun fuel => ?_⟩
    rw [← Nat.succ_add_eq_add_succ, hrun, untag, if_pos hv, hstrip, Outcome.ret_bind]

/-- The stripped buffers of one frame have one frame. -/
lemma Shifted.frame_congr {m₁ m₂ m₁' m₂' : Mbuf} (h₁ : Shifted k m₁ m₁') (h₂ : Shifted k m₂ m₂')
    (hm : m₁.frame = m₂.frame) (hlen : 12 ≤ m₁.dataLen) : m₁'.frame = m₂'.frame := by
  have hbytes : m₁.dataLen = m₂.dataLen := by rw [← m₁.frame_length, hm, m₂.frame_length]
  have hd₁ := h₁.dataLen
  have hd₂ := h₂.dataLen
  have hbyte : ∀ j < m₁'.dataLen, m₁'.load j 1 0 = m₂'.load j 1 0 := by
    intro j hj
    by_cases hj12 : j < 12
    · have haddr : ∀ m : Mbuf, m.load 0 12 ⟨j, hj12⟩ = m.load j 1 0 := fun m => by
        simp [Mbuf.load, Bytes.load]
      rw [← haddr, ← haddr, h₁.addrs, h₂.addrs, Mbuf.load_congr hm (by omega)]
    · rw [h₁.rest j 1 (by omega), h₂.rest j 1 (by omega), Mbuf.load_congr hm (by omega)]
  refine List.ext_getElem (by rw [Mbuf.frame_length, Mbuf.frame_length]; omega) fun j hj _ => ?_
  rw [Mbuf.frame_length] at hj
  simpa [Mbuf.frame, Mbuf.load, Bytes.load] using hbyte j hj

lemma exists_last_tag (f : List UInt8) : ∃ k, Tagged f k ∧ ¬ Tagged f (k + 1) := by
  by_contra hall
  push Not at hall
  have htags : ∀ k, Tagged f k := by
    intro k
    induction k with
    | zero => exact fun i hi => absurd hi (Nat.not_lt_zero i)
    | succ k ih => exact hall k ih
  have hlen := (htags (f.length + 1) f.length (Nat.lt_succ_self _)).1
  omega

end Tags

inductive RxKind
  | arp
  | ipv4
  | other
  deriving DecidableEq, Repr

def kindOf : List RxCall → RxKind
  | [] => .other
  | .parseArp _ _ _ _ _ :: _ => .arp
  | .recvCb _ :: _ => .ipv4

section Observe
variable (ports : PortTable) (mem : Malloc (Node ArpEntry)) (st : ArpState) (p : Fin maxEthPorts)

/-- What can be seen of the handling of one packet: the ARP table, the kind of dispatch,
and the frames that were enqueued. -/
def observed (pkt : Mbuf) : Outcome (ArpState × RxKind × List (List UInt8 × UInt8)) := do
  let (st, calls) ← dispatch ports passive st ⟨p, portByte p, ⟨pkt, mem⟩⟩
  .ret (st, kindOf calls, (calls.flatMap RxCall.sent).map fun x => (x.1.frame, x.2))

/-- The guarded insertion of a sender's binding. -/
def learnBinding (sip : UInt32) (sha : EtherAddr) : Outcome ArpState := do
  match ← twSearchArpTable st sip with
  | none =>
    let (_, st) ← twAddArpEntry mem st sip sha (portByte p)
    .ret st
  | some _ => .ret st

/-- The parse as a function of the fields it reads and of the reply it would send. -/
def parseView (op : UInt16) (sha : EtherAddr) (sip tip : UInt32) (reply : List UInt8) :
    Outcome (ArpState × List (List UInt8 × UInt8)) :=
  if rteBeToCpu16 op = arpOpRequest then
    if rteBeToCpu32 tip = (ports p).startIpAddr then do
      let st ← learnBinding mem st p sip sha
      .ret (st, [(reply, portByte p)])
    else .ret (st, [])
  else if rteBeToCpu16 op = arpOpReply then do
    let st ← learnBinding mem st p sip sha
    .ret (st, [])
  else .ret (st, [])

/-- `parseView` of the fields of a packet. -/
def viewOf (m : Mbuf) : Outcome (ArpState × List (List UInt8 × UInt8)) :=
  parseView ports mem st p (m.arpOp sizeofEtherHdr) (m.arpSha sizeofEtherHdr)
    (m.arpSip sizeofEtherHdr) (m.arpTip sizeofEtherHdr) (overwriteWithReply (ports p) m).frame

end Observe

section View
variable {ports : PortTable} {mem : Malloc (Node ArpEntry)} {st : ArpState} {p : Fin maxEthPorts}
  {pkt m : Mbuf} {xs : List (ℕ × ArpEntry)}

lemma viewOf_eq : (do
      let (_, st, es) ← twParseArp ports mem st m (portByte p)
      .ret (st, (PktEffect.sent es).map fun x => (x.1.frame, x.2))) = viewOf ports mem st p m := by
  unfold viewOf parseView twParseArp
  split
  · rw [portInfo_portByte, Outcome.ret_bind]
    split
    · simp only [twSendArpReply, portInfo_portByte, learnBinding, bind_assoc, Outcome.ret_bind]
      cases twSearchArpTable st (m.arpSip sizeofEtherHdr) with
      | ret r =>
        cases r with
        | none => simp only [Outcome.ret_bind, bind_assoc]; rfl
        | some a => rfl
      | _ => rfl
    · rfl
  · split
    · simp only [twProcessArpReply, learnBinding, bind_assoc, Outcome.ret_bind]
      cases twSearchArpTable st (m.arpSip sizeofEtherHdr) with
      | ret r =>
        cases r with
        | none =>
          simp only [Outcome.ret_bind, bind_assoc]
          refine congrArg _ (funext fun added => ?_)
          split <;> rfl
        | some a => rfl
      | _ => rfl
    · rfl

lemma observed_eq (htag : untag (pkt.dataLen + 1) pkt = .ret m) :
    observed ports mem st p pkt =
      if rteBeToCpu16 m.etherType = etherTypeARP then do
        let (st, frames) ← viewOf ports mem st p m
        .ret (st, .arp, frames)
      else if rteBeToCpu16 m.etherType = etherTypeIPv4 then .ret (st, .ipv4, [])
      else .ret (st, .other, []) := by
  have hbyte : UInt8.ofNat p.val = portByte p := rfl
  unfold observed dispatch
  simp only [htag, Outcome.ret_bind, hbyte]
  split
  · simp only [← viewOf_eq, bind_assoc, Outcome.ret_bind, kindOf, List.flatMap_cons,
      List.flatMap_nil, List.append_nil, RxCall.sent]
  · split
    · rw [dif_pos p.isLt]
      rfl
    · rfl

end View

section Reply
variable {n : ℕ} {m₁ m₂ : Mbuf}

lemma dataLen_of_frame_eq (h : m₁.frame = m₂.frame) : m₁.dataLen = m₂.dataLen := by
  rw [← m₁.frame_length, h, m₂.frame_length]

lemma Mbuf.store_frame_congr (h : m₁.frame = m₂.frame) (off : ℕ) (v : Fin n → UInt8) :
    (m₁.store off v).frame = (m₂.store off v).frame := by
  have hlen := dataLen_of_frame_eq h
  refine List.ext_getElem (by simp [Mbuf.frame_length, hlen]) fun j hj _ => ?_
  rw [Mbuf.frame_length, Mbuf.store_dataLen] at hj
  have hbyte : m₁.load j 1 = m₂.load j 1 := Mbuf.load_congr h (by omega)
  have hsame : m₁.buf (m₁.dataOff + j) = m₂.buf (m₂.dataOff + j) := congrFun hbyte 0
  simp only [Mbuf.frame, List.getElem_ofFn, Mbuf.load, Bytes.load, Mbuf.store, Bytes.store,
    Nat.add_zero, hsame, Nat.add_le_add_iff_left, Nat.add_sub_add_left]

/-- A field copied inside the frame. -/
lemma Mbuf.copy_frame_congr (h : m₁.frame = m₂.frame) (off : ℕ) {src : ℕ}
    (hfit : src + n ≤ m₁.dataLen) :
    (m₁.store off (m₁.load src n)).frame = (m₂.store off (m₂.load src n)).frame := by
  rw [Mbuf.load_congr h hfit]
  exact Mbuf.store_frame_congr h off _

lemma overwriteWithReply_frame_congr (info : PortInfo) (h : m₁.frame = m₂.frame)
    (hlen : 42 ≤ m₁.dataLen) :
    (overwriteWithReply info m₁).frame = (overwriteWithReply info m₂).frame := by
  unfold overwriteWithReply
  refine Mbuf.store_frame_congr ?_ 6 info.ethMac
  refine Mbuf.copy_frame_congr ?_ 0 (show 6 + 6 ≤ m₁.dataLen by omega)
  refine Mbuf.store_frame_congr ?_ (sizeofEtherHdr + 14) _
  simp only [Mbuf.setArpTip, Mbuf.arpSip, bytes32_le32]
  refine Mbuf.copy_frame_congr ?_ (sizeofEtherHdr + 24)
    (show sizeofEtherHdr + 14 + 4 ≤ m₁.dataLen from Nat.le_trans (by decide) hlen)
  refine Mbuf.store_frame_congr ?_ (sizeofEtherHdr + 8) info.ethMac
  refine Mbuf.copy_frame_congr ?_ (sizeofEtherHdr + 18)
    (show sizeofEtherHdr + 8 + 6 ≤ m₁.dataLen from Nat.le_trans (by decide) hlen)
  exact Mbuf.store_frame_congr h (sizeofEtherHdr + 6) _

end Reply

/-- Behind `k` tags the fields that decide the ARP parse are in the frame, or the bytes of
them that are there settle it: no opcode the parser acts on, no request for the port's
address, no sender that the table does not know. -/
structure ArpDecided (info : PortInfo) (xs : List (ℕ × ArpEntry)) (f : List UInt8) (k : ℕ) :
    Prop where
  request : Agrees f (20 + 4 * k) (wire16 arpOpRequest) → 22 + 4 * k ≤ f.length ∧
    (Agrees f (38 + 4 * k) (wire32 info.startIpAddr) → 42 + 4 * k ≤ f.length)
  reply : Agrees f (20 + 4 * k) (wire16 arpOpReply) → 22 + 4 * k ≤ f.length ∧
    (32 + 4 * k ≤ f.length ∨ ∀ ip, Agrees f (28 + 4 * k) (wire32 ip) → entryOf xs ip ≠ none)

/-- The same for the ether type behind every tag of the frame. -/
structure FrameDecided (info : PortInfo) (xs : List (ℕ × ArpEntry)) (f : List UInt8) : Prop where
  etherType : ∀ k, Tagged f k → Agrees f (12 + 4 * k) (wire16 etherTypeVLAN) ∨
    Agrees f (12 + 4 * k) (wire16 etherTypeARP) ∨
    Agrees f (12 + 4 * k) (wire16 etherTypeIPv4) → 14 + 4 * k ≤ f.length
  arp : ∀ k, Tagged f k → Agrees f (12 + 4 * k) (wire16 etherTypeARP) → ArpDecided info xs f k

/-- Every buffer that holds the frame is handled, and all alike. -/
def FrameOnly (ports : PortTable) (st : ArpState) (p : Fin maxEthPorts) (f : List UInt8) : Prop :=
  ∀ mem m₁ m₂, m₁.frame = f → m₂.frame = f → Strippable m₁ ∧ Strippable m₂ ∧
    observed ports mem st p m₁ = observed ports mem st p m₂

section Sound
variable {ports : PortTable} {mem : Malloc (Node ArpEntry)} {st : ArpState} {p : Fin maxEthPorts}
  {xs : List (ℕ × ArpEntry)} {f : List UInt8} {k : ℕ} {m m' m₁ m₂ m₁' m₂' : Mbuf}

/-- The fields behind `k` tags, in terms of the buffer as it was received. -/
lemma Shifted.fields (hs : Shifted k m m') :
    m'.etherType = le16 (m.load (12 + 4 * k) 2) ∧
      m'.arpOp sizeofEtherHdr = le16 (m.load (20 + 4 * k) 2) ∧
      m'.arpSha sizeofEtherHdr = m.load (22 + 4 * k) 6 ∧
      m'.arpSip sizeofEtherHdr = le32 (m.load (28 + 4 * k) 4) ∧
      m'.arpTip sizeofEtherHdr = le32 (m.load (38 + 4 * k) 4) :=
  ⟨congrArg le16 (hs.rest 12 2 (by decide)), congrArg le16 (hs.rest 20 2 (by decide)),
    hs.rest 22 6 (by decide), congrArg le32 (hs.rest 28 4 (by decide)),
    congrArg le32 (hs.rest 38 4 (by decide))⟩

/-- A field that is in the frame, or that no completion of the frame gives the value,
has the value in all buffers of the frame or in none. -/
lemma field_iff {n off : ℕ} {w : Fin n → UInt8} (h₁ : m₁.frame = f) (h₂ : m₂.frame = f)
    (hw : Agrees f off w → off + n ≤ f.length) :
    m₁.load off n = w ↔ m₂.load off n = w := by
  have hl₁ : m₁.dataLen = f.length := by rw [← h₁, m₁.frame_length]
  have hl₂ : m₂.dataLen = f.length := by rw [← h₂, m₂.frame_length]
  constructor
  · intro h
    have hag : Agrees f off w := h₁ ▸ agrees_of_load h
    exact load_of_agrees (h₂ ▸ hag) (hl₂ ▸ hw hag)
  · intro h
    have hag : Agrees f off w := h₂ ▸ agrees_of_load h
    exact load_of_agrees (h₁ ▸ hag) (hl₁ ▸ hw hag)

lemma learnBinding_known (h : st.Lists xs) {sip : UInt32} (sha : EtherAddr)
    (hknown : entryOf xs (rteBeToCpu32 sip) ≠ none) : learnBinding mem st p sip sha = .ret st := by
  obtain ⟨r, hr, hiff⟩ := twSearchArpTable_isNone h sip
  obtain ⟨a, rfl⟩ := Option.ne_none_iff_exists'.mp fun he => hknown (hiff.mp he)
  rw [learnBinding, hr]
  rfl

lemma viewOf_congr (h : st.Lists xs) (hd : ArpDecided (ports p) xs f k) (h₁ : m₁.frame = f)
    (h₂ : m₂.frame = f) (hs₁ : Shifted k m₁ m₁') (hs₂ : Shifted k m₂ m₂') :
    viewOf ports mem st p m₁' = viewOf ports mem st p m₂' := by
  obtain ⟨-, hop₁, hsha₁, hsip₁, htip₁⟩ := hs₁.fields
  obtain ⟨-, hop₂, hsha₂, hsip₂, htip₂⟩ := hs₂.fields
  have hm : m₁.frame = m₂.frame := h₁.trans h₂.symm
  have hl₁ : m₁.dataLen = f.length := by rw [← h₁, m₁.frame_length]
  have hreq : m₁.load (20 + 4 * k) 2 = wire16 arpOpRequest ↔
      m₂.load (20 + 4 * k) 2 = wire16 arpOpRequest :=
    field_iff h₁ h₂ fun ha => by have := (hd.request ha).1; omega
  have hrep : m₁.load (20 + 4 * k) 2 = wire16 arpOpReply ↔
      m₂.load (20 + 4 * k) 2 = wire16 arpOpReply :=
    field_iff h₁ h₂ fun ha => by have := (hd.reply ha).1; omega
  unfold viewOf parseView
  simp only [hop₁, hop₂, htip₁, htip₂, hsip₁, hsip₂, hsha₁, hsha₂, rteBeToCpu16_le16_iff,
    rteBeToCpu32_le32_iff, hreq, hrep]
  by_cases hq : m₂.load (20 + 4 * k) 2 = wire16 arpOpRequest
  · have hag : Agrees f (20 + 4 * k) (wire16 arpOpRequest) := h₂ ▸ agrees_of_load hq
    have htip : m₁.load (38 + 4 * k) 4 = wire32 (ports p).startIpAddr ↔
        m₂.load (38 + 4 * k) 4 = wire32 (ports p).startIpAddr :=
      field_iff h₁ h₂ fun ha => by have := (hd.request hag).2 ha; omega
    simp only [hq, if_true, htip]
    split
    case isTrue hask =>
      have hall := (hd.request hag).2 (h₂ ▸ agrees_of_load hask)
      have hd₁ := hs₁.dataLen
      rw [Mbuf.load_congr hm (show 22 + 4 * k + 6 ≤ m₁.dataLen by omega),
        Mbuf.load_congr hm (show 28 + 4 * k + 4 ≤ m₁.dataLen by omega),
        overwriteWithReply_frame_congr _ (hs₁.frame_congr hs₂ hm (by omega)) (by omega)]
    case isFalse => rfl
  · simp only [hq, if_false]
    split
    case isTrue hr =>
      have hag : Agrees f (20 + 4 * k) (wire16 arpOpReply) := h₂ ▸ agrees_of_load hr
      rcases (hd.reply hag).2 with hall | hknown
      · rw [Mbuf.load_congr hm (show 22 + 4 * k + 6 ≤ m₁.dataLen by omega),
          Mbuf.load_congr hm (show 28 + 4 * k + 4 ≤ m₁.dataLen by omega)]
      · have hsender : ∀ m : Mbuf, m.frame = f →
            entryOf xs (rteBeToCpu32 (le32 (m.load (28 + 4 * k) 4))) ≠ none := fun m hmf =>
          hknown _ (hmf ▸ agrees_of_load (rteBeToCpu32_le32_iff.mp rfl))
        rw [learnBinding_known h _ (hsender m₁ h₁), learnBinding_known h _ (hsender m₂ h₂)]
    case isFalse => rfl

/-- Behind the last tag the ether type is no VLAN tag, and the buffer is dispatched. -/
lemma untag_last (hm : m.frame = f) (ht : Tagged f k)
    (hlast : m.load (12 + 4 * k) 2 ≠ wire16 etherTypeVLAN) :
    ∃ m', Shifted k m m' ∧ untag (m.dataLen + 1) m = .ret m' := by
  obtain ⟨m', hs, hrun⟩ := untag_tagged hm ht
  have hd := hs.dataLen
  obtain ⟨fuel, hfuel⟩ : ∃ fuel, m.dataLen + 1 = fuel + 1 + k := ⟨m.dataLen - k, by omega⟩
  refine ⟨m', hs, ?_⟩
  rw [hfuel, hrun, untag, if_neg]
  rw [hs.fields.1, rteBeToCpu16_le16_iff]
  exact hlast

theorem frameOnly_of_decided (h : st.Lists xs)
    (hd : FrameDecided (ports p) xs f) : FrameOnly ports st p f := by
  obtain ⟨k, ht, hlast⟩ := exists_last_tag f
  intro mem m₁ m₂ h₁ h₂
  have hnot : ∀ m : Mbuf, m.frame = f → m.load (12 + 4 * k) 2 ≠ wire16 etherTypeVLAN := by
    intro m hm hv
    have hag : Agrees f (12 + 4 * k) (wire16 etherTypeVLAN) := hm ▸ agrees_of_load hv
    refine hlast fun i hi => ?_
    rcases Nat.lt_succ_iff_lt_or_eq.mp hi with hi | rfl
    · exact ht i hi
    · exact ⟨hd.etherType i ht (Or.inl hag), hag⟩
  obtain ⟨m₁', hs₁, hu₁⟩ := untag_last h₁ ht (hnot m₁ h₁)
  obtain ⟨m₂', hs₂, hu₂⟩ := untag_last h₂ ht (hnot m₂ h₂)
  have harp : m₁.load (12 + 4 * k) 2 = wire16 etherTypeARP ↔
      m₂.load (12 + 4 * k) 2 = wire16 etherTypeARP :=
    field_iff h₁ h₂ fun ha => by have := hd.etherType k ht (Or.inr (Or.inl ha)); omega
  have hip : m₁.load (12 + 4 * k) 2 = wire16 etherTypeIPv4 ↔
      m₂.load (12 + 4 * k) 2 = wire16 etherTypeIPv4 :=
    field_iff h₁ h₂ fun ha => by have := hd.etherType k ht (Or.inr (Or.inr ha)); omega
  refine ⟨⟨m₁', hu₁⟩, ⟨m₂', hu₂⟩, ?_⟩
  rw [observed_eq hu₁, observed_eq hu₂]
  simp only [hs₁.fields.1, hs₂.fields.1, rteBeToCpu16_le16_iff, harp, hip]
  split
  case isTrue ha =>
    have hag : Agrees f (12 + 4 * k) (wire16 etherTypeARP) := h₂ ▸ agrees_of_load ha
    rw [viewOf_congr h (hd.arp k ht hag) h₁ h₂ hs₁ hs₂]
  case isFalse => rfl

end Sound

section Complete
variable {ports : PortTable} {st : ArpState} {p : Fin maxEthPorts} {xs : List (ℕ × ArpEntry)}
  {f : List UInt8} {k : ℕ} {m : Mbuf}

/-- Bytes of a field that are not in the frame can be anything. -/
lemma Agrees.change {n off : ℕ} {w w' : Fin n → UInt8} (h : Agrees f off w)
    (hsame : ∀ i : Fin n, off + i < f.length → w i = w' i) : Agrees f off w' :=
  fun i hi => (h i hi).trans (hsame i hi)

lemma agrees_beyond {n off : ℕ} (w : Fin n → UInt8) (hf : f.length ≤ off) : Agrees f off w :=
  fun i hi => absurd hi (by omega)

/-- A tag that the loop removes although it is not in the frame. -/
lemma untag_beyond (hm : m.frame = f) (ht : Tagged f k) (hroom : 4 + 4 * k ≤ f.length)
    (hv : m.load (12 + 4 * k) 2 = wire16 etherTypeVLAN)
    (hlast : m.load (12 + 4 * (k + 1)) 2 ≠ wire16 etherTypeVLAN) :
    ∃ m', Shifted (k + 1) m m' ∧ untag (m.dataLen + 1) m = .ret m' := by
  obtain ⟨m₁, hs, hrun⟩ := untag_tagged hm ht
  have hfl : f.length = m.dataLen := by rw [← hm, m.frame_length]
  have hd := hs.dataLen
  have hsize : sizeofVlanHdr = 4 := rfl
  have hv₁ : rteBeToCpu16 m₁.etherType = etherTypeVLAN := by
    rw [hs.fields.1, rteBeToCpu16_le16_iff, hv]
  obtain ⟨m', hstrip, hst⟩ := rteVlanStrip_stripped hv₁ (by omega)
  have hs' := hs.strip hst
  obtain ⟨fuel, hfuel⟩ : ∃ fuel, m.dataLen + 1 = fuel + 1 + 1 + k := ⟨m.dataLen - k - 1, by omega⟩
  refine ⟨m', hs', ?_⟩
  rw [hfuel, hrun, untag, if_pos hv₁, hstrip, Outcome.ret_bind, untag, if_neg]
  rw [hs'.fields.1, rteBeToCpu16_le16_iff]
  exact hlast

lemma observed_ipv4 {mem : Malloc (Node ArpEntry)} {m' : Mbuf} (hs : Shifted k m m')
    (hu : untag (m.dataLen + 1) m = .ret m')
    (hip : m.load (12 + 4 * k) 2 = wire16 etherTypeIPv4) :
    observed ports mem st p m = .ret (st, .ipv4, []) := by
  have htype : rteBeToCpu16 m'.etherType = etherTypeIPv4 := by
    rw [hs.fields.1, rteBeToCpu16_le16_iff, hip]
  rw [observed_eq hu, htype, if_neg (by decide), if_pos rfl]

/-- No ether type of interest ends in this byte. -/
lemma observed_other {mem : Malloc (Node ArpEntry)} (hm : m.frame = f) (ht : Tagged f k)
    {b : UInt8} (hload : m.load (12 + 4 * k) 2 = ![b, 0xff]) :
    observed ports mem st p m = .ret (st, .other, []) := by
  have hne : ∀ x : UInt16, wire16 x 1 ≠ 0xff → m.load (12 + 4 * k) 2 ≠ wire16 x := by
    intro x hx he
    rw [hload] at he
    exact hx (congrFun he 1).symm
  obtain ⟨m', hs, hu⟩ := untag_last hm ht (hne _ (by decide))
  have htype : ∀ x : UInt16, wire16 x 1 ≠ 0xff → rteBeToCpu16 m'.etherType ≠ x := by
    intro x hx
    rw [hs.fields.1, ne_eq, rteBeToCpu16_le16_iff]
    exact hne x hx
  rw [observed_eq hu, if_neg (htype _ (by decide)), if_neg (htype _ (by decide))]

lemma Agrees.high {off : ℕ} {w : Fin 2 → UInt8} (h : Agrees f off w) (hf : f.length ≤ off + 1)
    (w' : Fin 2 → UInt8) (h0 : w 0 = w' 0) : Agrees f off w' := by
  refine h.change fun i hi => ?_
  fin_cases i
  · exact h0
  · change off + 1 < f.length at hi
    omega

lemma exists_observed_other (ports : PortTable) (mem : Malloc (Node ArpEntry)) (st : ArpState)
    (p : Fin maxEthPorts) (ht : Tagged f k) (hshort : f.length ≤ 12 + 4 * k + 1)
    {w : Fin 2 → UInt8} (hw : Agrees f (12 + 4 * k) w) :
    ∃ m : Mbuf, m.frame = f ∧ observed ports mem st p m = .ret (st, .other, []) := by
  have hother : Agrees f (12 + 4 * k) ![w 0, 0xff] := hw.high hshort _ rfl
  have hnext : Agrees f (12 + 4 * (k + 1)) (wire16 etherTypeIPv4) :=
    agrees_beyond _ (by omega)
  obtain ⟨m, hm, htype, -⟩ := exists_buffer hother hnext (by omega)
  exact ⟨m, hm, observed_other hm ht htype⟩

/-- With a tag at the end of the frame the ether type behind it is taken from beyond. -/
lemma exists_observed_ipv4 (ports : PortTable) (mem : Malloc (Node ArpEntry)) (st : ArpState)
    (p : Fin maxEthPorts) (ht : Tagged f k) (hroom : 4 + 4 * k ≤ f.length)
    (hshort : f.length ≤ 12 + 4 * k + 1)
    (hw : Agrees f (12 + 4 * k) (wire16 etherTypeVLAN) ∨
      Agrees f (12 + 4 * k) (wire16 etherTypeIPv4)) :
    ∃ m : Mbuf, m.frame = f ∧ observed ports mem st p m = .ret (st, .ipv4, []) := by
  have hne : wire16 etherTypeIPv4 ≠ wire16 etherTypeVLAN := by decide
  have hnext : Agrees f (12 + 4 * (k + 1)) (wire16 etherTypeIPv4) :=
    agrees_beyond _ (by omega)
  rcases hw with hw | hw
  · obtain ⟨m, hm, htag, hip⟩ := exists_buffer hw hnext (by omega)
    obtain ⟨m', hs, hu⟩ := untag_beyond hm ht hroom htag (by rw [hip]; exact hne)
    exact ⟨m, hm, observed_ipv4 hs hu hip⟩
  · obtain ⟨m, hm, hip, -⟩ := exists_buffer hw hnext (by omega)
    obtain ⟨m', hs, hu⟩ := untag_last hm ht (by rw [hip]; exact hne)
    exact ⟨m, hm, observed_ipv4 hs hu hip⟩

/-- An ether type whose last byte is behind the frame leaves the kind of dispatch open. -/
lemma etherType_decided (hlen : 14 ≤ f.length) (hf : FrameOnly ports st p f) (ht : Tagged f k)
    (hag : Agrees f (12 + 4 * k) (wire16 etherTypeVLAN) ∨
      Agrees f (12 + 4 * k) (wire16 etherTypeARP) ∨
      Agrees f (12 + 4 * k) (wire16 etherTypeIPv4)) : 14 + 4 * k ≤ f.length := by
  by_contra hend
  have hshort : f.length ≤ 12 + 4 * k + 1 := by omega
  have hroom : 4 + 4 * k ≤ f.length := by
    cases k with
    | zero => omega
    | succ k =>
      have hprev := (ht k (Nat.lt_succ_self k)).1
      omega
  have hag' : Agrees f (12 + 4 * k) (wire16 etherTypeVLAN) ∨
      Agrees f (12 + 4 * k) (wire16 etherTypeIPv4) := by
    rcases hag with h | h | h
    · exact Or.inl h
    · exact Or.inr (h.high hshort _ (by decide))
    · exact Or.inr h
  obtain ⟨w, hw⟩ : ∃ w : Fin 2 → UInt8, Agrees f (12 + 4 * k) w :=
    hag'.elim (fun h => ⟨_, h⟩) fun h => ⟨_, h⟩
  obtain ⟨m₁, hm₁, ho₁⟩ := exists_observed_other ports .exhausted st p ht hshort hw
  obtain ⟨m₂, hm₂, ho₂⟩ := exists_observed_ipv4 ports .exhausted st p ht hroom hshort hag'
  have hsame := (hf .exhausted m₁ m₂ hm₁ hm₂).2.2
  rw [ho₁, ho₂] at hsame
  cases hsame

section ArpFields
variable {mem : Malloc (Node ArpEntry)} {m' : Mbuf} (hs : Shifted k m m')
include hs

lemma viewOf_asks (hop : m.load (20 + 4 * k) 2 = wire16 arpOpRequest)
    (htip : m.load (38 + 4 * k) 4 = wire32 (ports p).startIpAddr) :
    viewOf ports mem st p m' ≠ .ret (st, []) := by
  obtain ⟨-, hop', -, -, htip'⟩ := hs.fields
  rw [viewOf, parseView, hop', htip', if_pos (rteBeToCpu16_le16_iff.mpr hop),
    if_pos (rteBeToCpu32_le32_iff.mpr htip)]
  intro hidle
  obtain ⟨st', -, hret⟩ := Outcome.bind_eq_ret.mp hidle
  cases hret

lemma viewOf_asks_other (hop : m.load (20 + 4 * k) 2 = wire16 arpOpRequest)
    (htip : m.load (38 + 4 * k) 4 ≠ wire32 (ports p).startIpAddr) :
    viewOf ports mem st p m' = .ret (st, []) := by
  obtain ⟨-, hop', -, -, htip'⟩ := hs.fields
  rw [viewOf, parseView, hop', htip', if_pos (rteBeToCpu16_le16_iff.mpr hop),
    if_neg fun he => htip (rteBeToCpu32_le32_iff.mp he)]

lemma viewOf_reply (hop : m.load (20 + 4 * k) 2 = wire16 arpOpReply) :
    viewOf ports mem st p m' = (do
      let st ← learnBinding mem st p (le32 (m.load (28 + 4 * k) 4)) (m.load (22 + 4 * k) 6)
      .ret (st, [])) := by
  obtain ⟨-, hop', hsha', hsip', -⟩ := hs.fields
  have hreply := rteBeToCpu16_le16_iff.mpr hop
  rw [viewOf, parseView, hop', hsha', hsip', if_neg (by rw [hreply]; decide), if_pos hreply]

lemma viewOf_no_op {b : UInt8} (hop : m.load (20 + 4 * k) 2 = ![b, 0xff]) :
    viewOf ports mem st p m' = .ret (st, []) := by
  obtain ⟨-, hop', -, -, -⟩ := hs.fields
  have hne : ∀ x : UInt16, wire16 x 1 ≠ 0xff →
      rteBeToCpu16 (le16 (m.load (20 + 4 * k) 2)) ≠ x := by
    intro x hx he
    rw [rteBeToCpu16_le16_iff, hop] at he
    exact hx (congrFun he 1).symm
  rw [viewOf, parseView, hop', if_neg (hne _ (by decide)), if_neg (hne _ (by decide))]

end ArpFields

/-- Two buffers of a frame that is handled alike are parsed alike. -/
lemma FrameOnly.view (hf : FrameOnly ports st p f) (ht : Tagged f k)
    (harp : Agrees f (12 + 4 * k) (wire16 etherTypeARP)) (hfit : 14 + 4 * k ≤ f.length)
    (mem : Malloc (Node ArpEntry)) {m₁ m₂ : Mbuf} (h₁ : m₁.frame = f) (h₂ : m₂.frame = f) :
    ∃ m₁' m₂', Shifted k m₁ m₁' ∧ Shifted k m₂ m₂' ∧
      viewOf ports mem st p m₁' = viewOf ports mem st p m₂' := by
  have htype : ∀ m : Mbuf, m.frame = f → m.load (12 + 4 * k) 2 = wire16 etherTypeARP := by
    intro m hm
    refine load_of_agrees (hm ▸ harp) ?_
    rw [← m.frame_length, hm]
    omega
  have hdispatch : ∀ m : Mbuf, m.frame = f → ∃ m', Shifted k m m' ∧
      observed ports mem st p m = (do
        let x ← viewOf ports mem st p m'
        .ret (x.1, .arp, x.2)) := by
    intro m hm
    obtain ⟨m', hs, hu⟩ := untag_last hm ht (by rw [htype m hm]; decide)
    refine ⟨m', hs, ?_⟩
    rw [observed_eq hu, if_pos (by rw [hs.fields.1, rteBeToCpu16_le16_iff, htype m hm])]
  obtain ⟨m₁', hs₁, ho₁⟩ := hdispatch m₁ h₁
  obtain ⟨m₂', hs₂, ho₂⟩ := hdispatch m₂ h₂
  have hsame := (hf mem m₁ m₂ h₁ h₂).2.2
  rw [ho₁, ho₂] at hsame
  refine ⟨m₁', m₂', hs₁, hs₂, Outcome.map_injective (fun x y hxy => ?_) hsame⟩
  obtain ⟨h1, h2⟩ : x.1 = y.1 ∧ x.2 = y.2 := by simpa using hxy
  exact Prod.ext h1 h2

/-- The last byte of a word changed, the others kept. -/
def lastChanged (w : Fin 4 → UInt8) : Fin 4 → UInt8 := Function.update w 3 (w 3 + 1)

lemma lastChanged_ne (w : Fin 4 → UInt8) : lastChanged w ≠ w := by
  intro he
  have h3 := congrFun he 3
  simp [lastChanged] at h3

lemma Agrees.lastChanged {off : ℕ} {w : Fin 4 → UInt8} (h : Agrees f off w)
    (hf : f.length ≤ off + 3) : Agrees f off (lastChanged w) := by
  refine h.change fun i hi => ?_
  rw [Twister.lastChanged, Function.update_of_ne]
  rintro rfl
  change off + 3 < f.length at hi
  omega

/-- An opcode that ends behind the frame, or the target address of a request, leaves open
whether a reply is sent. -/
lemma request_decided (hf : FrameOnly ports st p f) (ht : Tagged f k)
    (harp : Agrees f (12 + 4 * k) (wire16 etherTypeARP)) (hfit : 14 + 4 * k ≤ f.length)
    (hreq : Agrees f (20 + 4 * k) (wire16 arpOpRequest)) : 22 + 4 * k ≤ f.length ∧
      (Agrees f (38 + 4 * k) (wire32 (ports p).startIpAddr) → 42 + 4 * k ≤ f.length) := by
  have hop : 22 + 4 * k ≤ f.length := by
    by_contra hend
    have htip : Agrees f (38 + 4 * k) (wire32 (ports p).startIpAddr) :=
      agrees_beyond _ (by omega)
    have hno : Agrees f (20 + 4 * k) ![wire16 arpOpRequest 0, 0xff] :=
      hreq.high (by omega) _ rfl
    obtain ⟨m₁, h₁, hop₁, htip₁⟩ := exists_buffer hreq htip (by omega)
    obtain ⟨m₂, h₂, hop₂, -⟩ := exists_buffer hno htip (by omega)
    obtain ⟨m₁', m₂', hs₁, hs₂, hview⟩ := hf.view ht harp hfit .exhausted h₁ h₂
    exact viewOf_asks hs₁ hop₁ htip₁ (hview.trans (viewOf_no_op hs₂ hop₂))
  refine ⟨hop, fun htip => ?_⟩
  by_contra hend
  obtain ⟨m₁, h₁, hop₁, htip₁⟩ := exists_buffer hreq htip (by omega)
  obtain ⟨m₂, h₂, hop₂, htip₂⟩ := exists_buffer hreq (htip.lastChanged (by omega)) (by omega)
  obtain ⟨m₁', m₂', hs₁, hs₂, hview⟩ := hf.view ht harp hfit .exhausted h₁ h₂
  exact viewOf_asks hs₁ hop₁ htip₁ (hview.trans
    (viewOf_asks_other hs₂ hop₂ (by rw [htip₂]; exact lastChanged_ne _)))

lemma learnBinding_learns {mem : Malloc (Node ArpEntry)} (h : st.Lists xs)
    (hmem : mem.pick st.heap ≠ none) (p : Fin maxEthPorts) (sip : UInt32) (sha : EtherAddr) :
    ∃ st' xs', learnBinding mem st p sip sha = .ret st' ∧ st'.Lists xs' ∧
      Learns xs xs' [⟨rteBeToCpu32 sip, sha, portByte p⟩] := by
  rcases search_or_add mem h sip sha (portByte p) with ⟨a, hs, -, hl⟩ | ⟨hs, -, hadd⟩
  · exact ⟨st, xs, by rw [learnBinding, hs]; rfl, h, hl⟩
  · obtain ⟨st', xs', ha, hlist, -, hl⟩ := hadd hmem
    exact ⟨st', xs', by rw [learnBinding, hs, Outcome.ret_bind, ha]; rfl, hlist, hl⟩

/-- An entry that was added is the one that was learned. -/
lemma Learns.of_added {xs' : List (ℕ × ArpEntry)} {e e' : ArpEntry} {a : ℕ}
    (hl : Learns xs xs' [e']) (hnew : xs' = xs ++ [(a, e)]) : e'.ipAddr = e.ipAddr := by
  cases hknown : entryOf xs e'.ipAddr with
  | none =>
    obtain ⟨b, hb, -⟩ := hl.new hknown
    have hlast := List.append_cancel_left (hb.symm.trans hnew)
    exact congrArg ArpEntry.ipAddr (Prod.mk.inj (List.cons.inj hlast).1).2
  | some d =>
    have hkeep : bindings xs' = bindings xs := by
      rw [hl.bindings_eq]
      exact FirstWins.learn_known _ hknown
    have hlen := congrArg List.length hkeep
    simp [bindings, hnew] at hlen

/-- A sender's address that ends behind the frame leaves the new entry open. -/
lemma reply_decided (h : st.Lists xs) (hf : FrameOnly ports st p f) (ht : Tagged f k)
    (harp : Agrees f (12 + 4 * k) (wire16 etherTypeARP)) (hfit : 14 + 4 * k ≤ f.length)
    (hrep : Agrees f (20 + 4 * k) (wire16 arpOpReply)) : 22 + 4 * k ≤ f.length ∧
      (32 + 4 * k ≤ f.length ∨
        ∀ ip, Agrees f (28 + 4 * k) (wire32 ip) → entryOf xs ip ≠ none) := by
  have hop : 22 + 4 * k ≤ f.length := by
    by_contra hend
    exact hend (request_decided hf ht harp hfit (hrep.high (by omega) _ (by decide))).1
  refine ⟨hop, or_iff_not_imp_left.mpr fun hend ip hsip hnone => ?_⟩
  obtain ⟨m₁, h₁, hop₁, hsip₁⟩ := exists_buffer hrep hsip (by omega)
  obtain ⟨m₂, h₂, hop₂, hsip₂⟩ := exists_buffer hrep (hsip.lastChanged (by omega)) (by omega)
  obtain ⟨m₁', m₂', hs₁, hs₂, hview⟩ := hf.view ht harp hfit (.bump zeroEntry) h₁ h₂
  rw [viewOf_reply hs₁ hop₁, viewOf_reply hs₂ hop₂, hsip₁, hsip₂] at hview
  have hsame := Outcome.map_injective (fun x y hxy => (Prod.mk.inj hxy).1) hview
  have hip : rteBeToCpu32 (le32 (wire32 ip)) = ip := rteBeToCpu32_le32_iff.mpr rfl
  have hmem : (Malloc.bump zeroEntry).pick st.heap ≠ none := Option.some_ne_none _
  obtain ⟨st₁, xs₁, hl₁, hlist₁, hlearn₁⟩ :=
    learnBinding_learns h hmem p (le32 (wire32 ip)) (m₁.load (22 + 4 * k) 6)
  obtain ⟨st₂, xs₂, hl₂, hlist₂, hlearn₂⟩ :=
    learnBinding_learns h hmem p (le32 (lastChanged (wire32 ip))) (m₂.load (22 + 4 * k) 6)
  obtain rfl : st₁ = st₂ := Outcome.ret.inj (hl₁.symm.trans (hsame.trans hl₂))
  obtain rfl := Chain.unique hlist₁ hlist₂
  obtain ⟨a, hnew, -⟩ := hlearn₁.new (by rw [hip]; exact hnone)
  have hadded := hlearn₂.of_added hnew
  exact lastChanged_ne _ (rteBeToCpu32_le32_iff.mp (hadded.trans hip))

end Complete

/-- The handling of a frame depends on the frame alone exactly when the frame decides it. -/
theorem frameOnly_iff_decided (ports : PortTable) {st : ArpState} {xs : List (ℕ × ArpEntry)}
    (h : st.Lists xs) (p : Fin maxEthPorts) {f : List UInt8} (hlen : 14 ≤ f.length) :
    FrameOnly ports st p f ↔ FrameDecided (ports p) xs f := by
  constructor
  · intro hf
    have htype : ∀ k, Tagged f k → Agrees f (12 + 4 * k) (wire16 etherTypeVLAN) ∨
        Agrees f (12 + 4 * k) (wire16 etherTypeARP) ∨
        Agrees f (12 + 4 * k) (wire16 etherTypeIPv4) → 14 + 4 * k ≤ f.length :=
      fun k ht hag => etherType_decided hlen hf ht hag
    refine ⟨htype, fun k ht harp => ?_⟩
    have hfit := htype k ht (Or.inr (Or.inl harp))
    exact ⟨request_decided hf ht harp hfit, reply_decided h hf ht harp hfit⟩
  · exact frameOnly_of_decided h

/-- Nothing but an Ethernet header. -/
def bareHeader (t : UInt16) : List UInt8 := List.replicate 12 0 ++ List.ofFn (wire16 t)

lemma bareHeader_agrees (t : UInt16) (rest : List UInt8) :
    Agrees (bareHeader t ++ rest) 12 (wire16 t) := by
  intro i hi
  fin_cases i <;> rfl

lemma bareHeader_agrees_iff {t t' : UInt16} {rest : List UInt8} :
    Agrees (bareHeader t ++ rest) 12 (wire16 t') ↔ wire16 t = wire16 t' := by
  constructor
  · intro hag
    funext i
    have hi : 12 + i.val < (bareHeader t ++ rest).length := by
      have := i.isLt
      simp [bareHeader]
      omega
    rw [← bareHeader_agrees t rest i hi, hag i hi]
  · intro he
    exact he ▸ bareHeader_agrees t rest

lemma bareHeader_untagged {t : UInt16} {rest : List UInt8}
    (hne : wire16 t ≠ wire16 etherTypeVLAN) {k : ℕ} (ht : Tagged (bareHeader t ++ rest) k) :
    k = 0 := by
  by_contra hk
  exact hne (bareHeader_agrees_iff.mp (ht 0 (Nat.pos_of_ne_zero hk)).2)

/-- A request for the address of the first port, of which the parser reads the last byte. -/
def wholeRequest : List UInt8 :=
  bareHeader etherTypeARP ++ (List.replicate 6 0 ++ List.ofFn (wire16 arpOpRequest) ++
    List.replicate 16 0 ++ List.ofFn (wire32 (twPorts 0).startIpAddr))

theorem frameOnly_wholeRequest : FrameOnly twPorts .empty 0 wholeRequest := by
  have hempty : ArpState.empty.Lists [] := rfl
  have hlen : wholeRequest.length = 42 := rfl
  have hvlan : wire16 etherTypeARP ≠ wire16 etherTypeVLAN := by decide
  refine (frameOnly_iff_decided twPorts hempty 0 (by omega)).mpr
    ⟨fun k ht _ => ?_, fun k ht _ => ?_⟩
  · obtain rfl := bareHeader_untagged hvlan ht
    omega
  · obtain rfl := bareHeader_untagged hvlan ht
    exact ⟨fun _ => ⟨by omega, fun _ => by omega⟩, fun _ => ⟨by omega, Or.inl (by omega)⟩⟩

/-- An ARP packet cut off behind the Ethernet header is answered or not according to what
the buffer held before. -/
theorem frameOnly_fails_bareArp : (bareHeader etherTypeARP).length = 14 ∧
    ¬ FrameOnly twPorts .empty 0 (bareHeader etherTypeARP) := by
  refine ⟨by decide, fun hf => ?_⟩
  have htags : Tagged (bareHeader etherTypeARP) 0 := fun i hi => absurd hi (Nat.not_lt_zero i)
  have hop : Agrees (bareHeader etherTypeARP) (20 + 4 * 0) (wire16 arpOpRequest) :=
    agrees_beyond _ (by decide)
  have harp : Agrees (bareHeader etherTypeARP) 12 (wire16 etherTypeARP) :=
    List.append_nil (bareHeader etherTypeARP) ▸ bareHeader_agrees etherTypeARP []
  have hlong := (request_decided hf htags harp (by decide) hop).1
  revert hlong
  decide

end Twister
