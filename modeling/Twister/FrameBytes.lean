import Twister.Checksum

/-! Single bytes of a packet and the checksums stored among them: what a store leaves as it
was, and that a header verifies once its checksum is in place. -/
namespace Twister
namespace Mbuf
variable {n p : ℕ}

def byteAt (m : Mbuf) (i : ℕ) : UInt8 := m.buf (m.dataOff + i)

lemma load_byteAt (m : Mbuf) (off : ℕ) (i : Fin n) : m.load off n i = m.byteAt (off + i) := by
  simp [load, Bytes.load, byteAt, Nat.add_assoc]

lemma byteAt_store_of_out (m : Mbuf) {off j : ℕ} (v : Fin n → UInt8)
    (h : j < off ∨ off + n ≤ j) : (m.store off v).byteAt j = m.byteAt j := by
  change (if h : m.dataOff + off ≤ m.dataOff + j ∧ m.dataOff + j - (m.dataOff + off) < n then _
    else m.buf (m.dataOff + j)) = _
  rw [dif_neg (by omega)]
  rfl

lemma byteAt_store (m : Mbuf) (off : ℕ) (v : Fin n → UInt8) (i : Fin n) :
    (m.store off v).byteAt (off + i) = v i := by
  rw [← load_byteAt, load_store_self]

lemma byteAt_store_congr {m m' : Mbuf} {off j : ℕ} (v : Fin n → UInt8)
    (h : m.byteAt j = m'.byteAt j) : (m.store off v).byteAt j = (m'.store off v).byteAt j := by
  by_cases hout : j < off ∨ off + n ≤ j
  · rw [byteAt_store_of_out m v hout, byteAt_store_of_out m' v hout, h]
  · obtain ⟨i, rfl⟩ : ∃ i : Fin n, j = off + i :=
      ⟨⟨j - off, by omega⟩, by simp only; omega⟩
    rw [byteAt_store, byteAt_store]

/-- Two packets have the same bytes at the offsets of `s`. -/
def AgreeOn (s : ℕ → Prop) (m m' : Mbuf) : Prop := ∀ j, s j → m.byteAt j = m'.byteAt j

/-- The same store on both sides adds its bytes to those that agree. -/
lemma AgreeOn.store {s : ℕ → Prop} {m m' : Mbuf} {off : ℕ} (h : AgreeOn s m m')
    (v : Fin n → UInt8) :
    AgreeOn (fun j => s j ∨ off ≤ j ∧ j < off + n) (m.store off v) (m'.store off v) := by
  intro j hj
  rcases hj with hs | hin
  · exact byteAt_store_congr v (h j hs)
  · obtain ⟨i, rfl⟩ : ∃ i : Fin n, j = off + i := ⟨⟨j - off, by omega⟩, by simp only; omega⟩
    rw [byteAt_store, byteAt_store]

lemma AgreeOn.mono {s t : ℕ → Prop} {m m' : Mbuf} (h : AgreeOn s m m') (hst : ∀ j, t j → s j) :
    AgreeOn t m m' := fun j hj => h j (hst j hj)

@[simp] lemma bytesAt_length (m : Mbuf) (p n : ℕ) : (m.bytesAt p n).length = n := by
  simp [bytesAt]

lemma bytesAt_getElem (m : Mbuf) {i : ℕ} (hi : i < (m.bytesAt p n).length) :
    (m.bytesAt p n)[i] = m.byteAt (p + i) := by
  simp [bytesAt, load_byteAt]

/-- A stretch of bytes only depends on these bytes. -/
lemma bytesAt_congr {m m' : Mbuf} (h : ∀ i < n, m.byteAt (p + i) = m'.byteAt (p + i)) :
    m.bytesAt p n = m'.bytesAt p n := by
  refine List.ext_getElem (by simp) fun i hi _ => ?_
  rw [bytesAt_getElem, bytesAt_getElem]
  exact h i (by simpa using hi)

lemma AgreeOn.bytesAt {s : ℕ → Prop} {m m' : Mbuf} (h : AgreeOn s m m')
    (hs : ∀ i < n, s (p + i)) : m.bytesAt p n = m'.bytesAt p n :=
  bytesAt_congr fun i hi => h _ (hs i hi)

lemma load_congr_byteAt {m m' : Mbuf} (h : ∀ i < n, m.byteAt (p + i) = m'.byteAt (p + i)) :
    m.load p n = m'.load p n := by
  funext i
  rw [load_byteAt, load_byteAt, h i i.isLt]

lemma frame_eq_iff {m m' : Mbuf} (hlen : m.dataLen = m'.dataLen) :
    m.frame = m'.frame ↔ ∀ j < m.dataLen, m.byteAt j = m'.byteAt j := by
  constructor
  · intro h j hj
    have hload : m.load j 1 = m'.load j 1 := load_congr h (by omega)
    have hbyte := congrFun hload 0
    rwa [load_byteAt, load_byteAt] at hbyte
  · intro h
    have hframe : m'.frame = m'.bytesAt 0 m.dataLen := by rw [hlen]; rfl
    rw [hframe]
    exact bytesAt_congr fun i hi => by rw [Nat.zero_add, h i hi]

lemma bytesAt_append (m : Mbuf) (p n k : ℕ) :
    m.bytesAt p (n + k) = m.bytesAt p n ++ m.bytesAt (p + n) k := by
  refine List.ext_getElem (by simp) fun i hi _ => ?_
  rw [bytesAt_getElem]
  by_cases hn : i < n
  · rw [List.getElem_append_left (by simpa using hn), bytesAt_getElem]
  · rw [List.getElem_append_right (by simpa using hn), bytesAt_getElem, bytesAt_length]
    congr 1
    omega

/-- Storing a word in a stretch of bytes. -/
lemma bytesAt_store16 (m : Mbuf) (k : ℕ) (v : UInt16) :
    (m.store (p + 2 * k) (bytes16 v)).bytesAt p n = setWord (m.bytesAt p n) k v := by
  refine List.ext_getElem (by simp) fun i hi _ => ?_
  simp only [bytesAt_getElem, setWord, List.getElem_set]
  split_ifs with hsecond hfirst
  · have hindex : p + i = p + 2 * k + (1 : Fin 2).val := by
      rw [← hsecond]
      rfl
    rw [hindex, byteAt_store]
  · have hindex : p + i = p + 2 * k + (0 : Fin 2).val := by
      rw [← hfirst]
      rfl
    rw [hindex, byteAt_store]
  · exact byteAt_store_of_out m _ (by omega)

/-- The checksum of an IPv4 header, stored in it. -/
lemma verifies_setIpCksum (m : Mbuf) (p : ℕ) :
    Verifies (((twIpv4Cksum m p).1.setIpCksum p (twIpv4Cksum m p).2).bytesAt p sizeofIpv4Hdr) := by
  have hclear : (m.setIpCksum p 0).bytesAt p sizeofIpv4Hdr =
      setWord (m.bytesAt p sizeofIpv4Hdr) 5 0 := bytesAt_store16 m 5 0
  change Verifies (((m.setIpCksum p 0).setIpCksum p (rteIpv4Cksum
    ((m.setIpCksum p 0).bytesAt p sizeofIpv4Hdr))).bytesAt p sizeofIpv4Hdr)
  have hstore : ((m.setIpCksum p 0).setIpCksum p (rteIpv4Cksum
      ((m.setIpCksum p 0).bytesAt p sizeofIpv4Hdr))).bytesAt p sizeofIpv4Hdr =
      setWord (setWord (m.bytesAt p sizeofIpv4Hdr) 5 0) 5
        (rteIpv4Cksum (setWord (m.bytesAt p sizeofIpv4Hdr) 5 0)) := by
    rw [← hclear]
    exact bytesAt_store16 _ 5 _
  rw [hstore]
  refine rteIpv4Cksum_verifies ?_ ?_
  · rw [bytesAt_length]
    decide
  · rw [bytesAt_length]
    decide

/-- The checksum of an ICMP header, stored in it. -/
lemma verifies_setIcmpCksum (m : Mbuf) (p : ℕ) :
    Verifies (((m.setIcmpCksum p 0).setIcmpCksum p (twCalcsum ((m.setIcmpCksum p 0).bytesAt p
      sizeofIcmpEcho))).bytesAt p sizeofIcmpEcho) := by
  have hclear : (m.setIcmpCksum p 0).bytesAt p sizeofIcmpEcho =
      setWord (m.bytesAt p sizeofIcmpEcho) 1 0 := bytesAt_store16 m 1 0
  have hstore : ((m.setIcmpCksum p 0).setIcmpCksum p (twCalcsum
      ((m.setIcmpCksum p 0).bytesAt p sizeofIcmpEcho))).bytesAt p sizeofIcmpEcho =
      sealed (m.bytesAt p sizeofIcmpEcho) 1 := by
    rw [sealed, ← hclear]
    exact bytesAt_store16 _ 1 _
  rw [hstore]
  refine sealed_verifies ?_ ?_ ?_
  · rw [bytesAt_length]
    decide
  · rintro ⟨hodd, -⟩
    rw [bytesAt_length] at hodd
    exact absurd hodd (show ¬ Odd 8 by decide)
  · rw [bytesAt_length]
    decide

end Mbuf
end Twister
