import Twister.ArpLogic

/-! One request and its reply between two nodes. -/
namespace Twister

section Exchange
variable {mem : Malloc (Node ArpEntry)} {st : ArpState} {xs : List (ℕ × ArpEntry)} {pkt : Mbuf}

/-- A packet that states a new binding: the table grows by it, and a search for the
address finds it. -/
lemma twParseArp_learns (ports : PortTable) (p : Fin maxEthPorts) (h : st.Lists xs)
    (hm : mem.pick st.heap ≠ none) (ht : Teaches (ports p) pkt)
    (hnone : entryOf xs (rteBeToCpu32 (pkt.arpSip sizeofEtherHdr)) = none) :
    ∃ st' a, twParseArp ports mem st pkt (portByte p) =
        .ret (0, st', parseEffects (ports p) pkt (portByte p)) ∧
      st'.Lists (xs ++ [(a, stated pkt (portByte p))]) ∧
      entryOf (xs ++ [(a, stated pkt (portByte p))]) (rteBeToCpu32 (pkt.arpSip sizeofEtherHdr)) =
        some (stated pkt (portByte p)) := by
  obtain ⟨st', xs', hrun, hlist, -, hl⟩ := twParseArp_ret ports h p fun _ => hm
  rw [taught, if_pos ht] at hl
  obtain ⟨a, rfl, hfound⟩ := hl.new hnone
  exact ⟨st', a, hrun, hlist, hfound⟩

end Exchange

theorem arp_handshake (portsA portsB : PortTable) (pA qA pB : Fin maxEthPorts)
    {stA stB : ArpState} {xsA xsB : List (ℕ × ArpEntry)} {memA memB : Malloc (Node ArpEntry)}
    {pools : MbufPools} {addr : ℕ} {stale : Bytes} (hA : stA.Lists xsA) (hB : stB.Lists xsB)
    (hnoB : entryOf xsA (portsB pB).startIpAddr = none)
    (hnoA : entryOf xsB (portsA pA).startIpAddr = none)
    (hmemA : memA.pick stA.heap ≠ none) (hmemB : memB.pick stB.heap ≠ none)
    (hpool : pools.txMempool (if pools.rteEthDevSocketId (portByte pA) = -1 then 0
      else pools.rteEthDevSocketId (portByte pA)) = some (addr, stale)) :
    ∃ req, twConstructArpPacket portsA pools (portsB pB).startIpAddr (portByte pA) =
        .ret (0, [.addToTxQueue req (portByte pA)]) ∧
    ∀ atB, req.frame = atB.frame →
    ∃ stB' b rep, twParseArp portsB memB stB atB (portByte pB) =
        .ret (0, stB', [.addToTxQueue rep (portByte pB)]) ∧
      stB'.Lists (xsB ++ [b]) ∧
      stB'.entry (rteCpuToBe32 (portsA pA).startIpAddr) = .ret (some b.2) ∧
      b.2.ethMac = (portsA pA).ethMac ∧
      rep.sAddr = (portsB pB).ethMac ∧ rep.dAddr = (portsA pA).ethMac ∧
      rep.etherType = rteCpuToBe16 etherTypeARP ∧
    ∀ atA, rep.frame = atA.frame →
    ∃ stA' a, twParseArp portsA memA stA atA (portByte qA) = .ret (0, stA', [.free atA]) ∧
      stA'.Lists (xsA ++ [a]) ∧
      stA'.entry (rteCpuToBe32 (portsB pB).startIpAddr) = .ret (some a.2) ∧
      a.2.ethMac = (portsB pB).ethMac ∧
      ∀ s, Renders s (portsB pB).startIpAddr → ∀ stack ipArr,
        twSearchArpEntry stack ipArr stA' s = .ret (some (portsB pB).ethMac) := by
  have hreq := fillRequest_isRequest (portsA pA) (portsB pB).startIpAddr addr stale
  refine ⟨_, twConstructArpPacket_ret portsA hpool _, fun atB hframe => ?_⟩
  have hatB := hreq.congr hframe
  have hask : AsksFor (portsB pB) atB := hatB.asksFor rfl
  have hsipB : rteBeToCpu32 (atB.arpSip sizeofEtherHdr) = (portsA pA).startIpAddr := by
    rw [hatB.arpSip, rteBeToCpu32_rteCpuToBe32]
  obtain ⟨stB', b, hrunB, hlistB, hfoundB⟩ :=
    twParseArp_learns portsB pB hB hmemB (Or.inr hask) (hsipB ▸ hnoA)
  rw [parseEffects, if_pos hask] at hrunB
  have hrep := overwriteWithReply_isReply (portsB pB) atB
  refine ⟨stB', _, _, hrunB, hlistB, ?_, hatB.arpSha, hrep.sAddr, hrep.dAddr.trans hatB.sAddr,
    hrep.etherType.trans hatB.etherType, fun atA hframe' => ?_⟩
  · rw [entry_eq hlistB, rteBeToCpu32_rteCpuToBe32, ← hsipB, hfoundB]
  · obtain ⟨hop, hsha, hsip, -⟩ := arpFields_congr hframe'
      (hrep.dataLen ▸ hatB.dataLen.ge)
    have hopA : rteBeToCpu16 (atA.arpOp sizeofEtherHdr) = arpOpReply := by
      rw [← hop, hrep.arpOp, rteBeToCpu16_rteCpuToBe16]
    have hsipA : rteBeToCpu32 (atA.arpSip sizeofEtherHdr) = (portsB pB).startIpAddr := by
      rw [← hsip, hrep.arpSip, rteBeToCpu32_rteCpuToBe32]
    have hnoask : ¬ AsksFor (portsA qA) atA := fun h => not_request_of_reply hopA h.1
    obtain ⟨stA', a, hrunA, hlistA, hfoundA⟩ :=
      twParseArp_learns portsA qA hA hmemA (Or.inl hopA) (hsipA ▸ hnoB)
    rw [parseEffects, if_neg hnoask] at hrunA
    have hmac : (stated atA (portByte qA)).ethMac = (portsB pB).ethMac :=
      hsha.symm.trans hrep.arpSha
    refine ⟨stA', _, hrunA, hlistA, ?_, hmac, fun s hs stack ipArr => ?_⟩
    · rw [entry_eq hlistA, rteBeToCpu32_rteCpuToBe32, ← hsipA, hfoundA]
    · rw [twSearchArpEntry_renders hlistA hs, ← hsipA, hfoundA, Option.map_some, hmac]

/-- The host 10.10.1.k, with the same MAC byte six times. -/
def hostPorts (k : UInt8) : PortTable := fun _ =>
  ⟨fun _ => k, [], 0x0a0a0100 + k.toUInt32, 0, 0⟩

def zeroPool : MbufPools := ⟨fun _ => 0, fun _ => some (0, fun _ => 0)⟩
def zeroAlloc : Malloc (Node ArpEntry) := .bump ⟨⟨0, fun _ => 0, 0⟩, none⟩

theorem arp_handshake_five_six :
    ∃ req stB rep stA,
      twConstructArpPacket (hostPorts 5) zeroPool 0x0a0a0106 0 =
        .ret (0, [.addToTxQueue req 0]) ∧
      twParseArp (hostPorts 6) zeroAlloc ArpState.empty req 0 =
        .ret (0, stB, [.addToTxQueue rep 0]) ∧
      twParseArp (hostPorts 5) zeroAlloc ArpState.empty rep 0 = .ret (0, stA, [.free rep]) ∧
      twSearchArpEntry (fun _ => 0) (fun _ => 0) stA
        [0x31, 0x30, 0x2e, 0x31, 0x30, 0x2e, 0x31, 0x2e, 0x36] = .ret (some fun _ => 6) := by
  have hrenders : Renders [0x31, 0x30, 0x2e, 0x31, 0x30, 0x2e, 0x31, 0x2e, 0x36] 0x0a0a0106 :=
    ⟨⟨[1, 0], by decide, by decide, by decide⟩, ⟨[1, 0], by decide, by decide, by decide⟩,
      ⟨[1], by decide, by decide, by decide⟩, ⟨[6], by decide, by decide, by decide⟩, rfl,
      by decide⟩
  have hempty : ArpState.empty.Lists [] := rfl
  have hpick : zeroAlloc.pick ArpState.empty.heap ≠ none := fun h => nomatch h
  have hpool : zeroPool.txMempool (if zeroPool.rteEthDevSocketId (portByte 0) = -1 then 0
      else zeroPool.rteEthDevSocketId (portByte 0)) = some (0, fun _ => 0) := rfl
  obtain ⟨req, hreq, hB⟩ := arp_handshake (hostPorts 5) (hostPorts 6) 0 0 0 hempty hempty rfl rfl
    hpick hpick hpool
  obtain ⟨stB, b, rep, hrunB, -, -, -, -, -, -, hA⟩ := hB req rfl
  obtain ⟨stA, a, hrunA, -, -, -, hsearch⟩ := hA rep rfl
  exact ⟨req, stB, rep, stA, hreq, hrunB, hrunA, hsearch _ hrenders _ _⟩

end Twister
