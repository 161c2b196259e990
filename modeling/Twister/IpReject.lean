import Twister.IpString

/-! What the address reader refuses. It looks at the widths of the groups between dots and
never at their characters. For a dot that is missing it takes whatever its position array
held, so a text counts as refused only if it is refused for every content of that array. -/
namespace Twister

section Group
variable {value : CString} {lo hi : Int} {base w : ℕ}

lemma charAt_ret {i : Int} (h0 : 0 ≤ i) (hi : i ≤ value.length) : ∃ c, charAt value i = .ret c := by
  rw [charAt, if_neg (by omega)]
  rcases hc : value[i.toNat]? with _ | c
  · have hlen := List.getElem?_eq_none_iff.mp hc
    exact ⟨0, if_pos (by omega)⟩
  · exact ⟨c, rfl⟩

lemma charAt_cases {i : Int} (h0 : 0 ≤ i) :
    (∃ c, charAt value i = .ret c) ∨ charAt value i = .fault :=
  (le_or_gt i value.length).imp (charAt_ret h0) charAt_fault

lemma octetText_bad (h : ¬ (1 ≤ hi - (lo + 1) ∧ hi - (lo + 1) ≤ 3)) :
    octetText value lo hi = .ret none := by
  rw [octetText, if_neg (by omega), if_neg (by omega), if_neg (by omega)]

lemma octetText_read (hlow : 1 ≤ w) (hhigh : w ≤ 3) (hlo : lo + 1 = base)
    (hhi : hi = base + w) (hin : base + w ≤ value.length + 1) :
    ∃ x y z, octetText value lo hi = .ret (some [x, y, z]) := by
  have hd : hi - (lo + 1) = w := by omega
  obtain ⟨z, hz⟩ : ∃ z, charAt value (hi - 1) = .ret z := charAt_ret (by omega) (by omega)
  rw [octetText, hd, hz]
  interval_cases w
  · exact ⟨0x30, 0x30, z, rfl⟩
  · obtain ⟨y, hy⟩ : ∃ y, charAt value (hi - 2) = .ret y := charAt_ret (by omega) (by omega)
    rw [hy]
    exact ⟨0x30, y, z, rfl⟩
  · obtain ⟨y, hy⟩ : ∃ y, charAt value (hi - 2) = .ret y := charAt_ret (by omega) (by omega)
    obtain ⟨x, hx⟩ : ∃ x, charAt value (hi - 3) = .ret x := charAt_ret (by omega) (by omega)
    rw [hy, hx]
    exact ⟨x, y, z, rfl⟩

lemma octetText_fault (hlo : lo + 1 = base) (hhi : hi = base + 3)
    (hout : value.length + 1 < base + 3) : octetText value lo hi = .fault := by
  have hd : hi - (lo + 1) = 3 := by omega
  have hz : charAt value (hi - 1) = .fault := charAt_fault (by omega)
  rw [octetText, hd, hz]
  have hx : (∃ x, charAt value (hi - 3) = .ret x) ∨ charAt value (hi - 3) = .fault :=
    charAt_cases (by omega)
  have hy : (∃ y, charAt value (hi - 2) = .ret y) ∨ charAt value (hi - 2) = .fault :=
    charAt_cases (by omega)
  rcases hx with ⟨x, hx⟩ | hx <;> rcases hy with ⟨y, hy⟩ | hy <;> rw [hx, hy] <;> rfl

/-- The loop from its group `k` on. -/
def octetsFrom (value : CString) (ip : ℕ → Int) (k : ℕ) (ipVar : Fin 4 → UInt8) :
    Outcome (UInt8 × (Fin 4 → UInt8)) :=
  octetLoop value ip ((List.finRange 4).drop k) ipVar

/-- The reader returned 0. -/
def Refused (o : Outcome (UInt8 × (Fin 4 → UInt8))) : Prop := ∃ out, o = .ret (0, out)

variable {ip : ℕ → Int} {k : ℕ} {ipVar : Fin 4 → UInt8}

lemma octetsFrom_cons (hk : k < 4) :
    octetsFrom value ip k ipVar =
      octetLoop value ip (⟨k, hk⟩ :: (List.finRange 4).drop (k + 1)) ipVar := by
  have hlen : k < (List.finRange 4).length := by simpa using hk
  rw [octetsFrom, List.drop_eq_getElem_cons hlen, List.getElem_finRange]
  rfl

lemma octetsFrom_bad (hk : k < 4) (hbase : ip k + 1 = base)
    (h : ¬ (1 ≤ ip (k + 1) - base ∧ ip (k + 1) - base ≤ 3)) :
    Refused (octetsFrom value ip k ipVar) := by
  have hbad : octetText value (ip k) (ip (k + 1)) = .ret none := octetText_bad (by rwa [hbase])
  refine ⟨ipVar, ?_⟩
  rw [octetsFrom_cons hk, octetLoop, hbad]
  rfl

lemma octetsFrom_good (ipVar : Fin 4 → UInt8) (hk : k < 4) (hbase : ip k + 1 = base)
    (hlow : 1 ≤ w) (hhigh : w ≤ 3)
    (hw : ip (k + 1) = base + w) (hin : base + w ≤ value.length + 1) :
    ∃ ipVar', octetsFrom value ip k ipVar = octetsFrom value ip (k + 1) ipVar' := by
  obtain ⟨x, y, z, hread⟩ := octetText_read hlow hhigh hbase hw hin
  -- three characters are there to be converted, whatever they are
  obtain ⟨num, hnum⟩ : ∃ num, twConvertStrToInt [x, y, z] 3 = .ret num := ⟨_, rfl⟩
  refine ⟨Function.update ipVar ⟨k, hk⟩ num.toUInt8, ?_⟩
  rw [octetsFrom_cons hk, octetLoop, hread]
  simp only [Outcome.ret_bind, hnum]
  rfl

lemma octetsFrom_fault (hk : k < 4) (hbase : ip k + 1 = base) (hw : ip (k + 1) = base + 3)
    (hout : value.length + 1 < base + 3) : octetsFrom value ip k ipVar = .fault := by
  have hfault : octetText value (ip k) (ip (k + 1)) = .fault := octetText_fault hbase hw hout
  rw [octetsFrom_cons hk, octetLoop, hfault]
  rfl

end Group

section Missing
variable {value : CString} {ip : ℕ → Int} {L j k base : ℕ}

/-- Some positions for the `j` dots that are missing behind `base` make the reader accept a
text of length `L`, or read past the end of the string. -/
def CanEnd (len L j base : ℕ) : Prop :=
  base + (2 * j + 1) ≤ L ∧ L ≤ base + (4 * j + 3) ∨ 1 ≤ j ∧ len + 2 < base + 4 * j

lemma refused_of_not_canEnd (hend : ip 4 = L) (hk : k + j = 3)
    (hbase : ip k + 1 = base) (hcan : ¬ CanEnd value.length L j base) (ipVar : Fin 4 → UInt8) :
    Refused (octetsFrom value ip k ipVar) := by
  induction j generalizing k base ipVar with
  | zero =>
    obtain rfl : k = 3 := by omega
    refine octetsFrom_bad (by decide) hbase ?_
    rw [hend]
    unfold CanEnd at hcan
    omega
  | succ j ih =>
    by_cases hwidth : 1 ≤ ip (k + 1) - base ∧ ip (k + 1) - base ≤ 3
    · obtain ⟨w, hw⟩ : ∃ w : ℕ, ip (k + 1) = base + w := ⟨(ip (k + 1) - base).toNat, by omega⟩
      have hin : base + w ≤ value.length + 1 := by unfold CanEnd at hcan; omega
      obtain ⟨ipVar', hnext⟩ :=
        octetsFrom_good ipVar (by omega) hbase (by omega) (by omega) hw hin
      rw [hnext]
      have hbase' : ip (k + 1) + 1 = (base + w + 1 : ℕ) := by omega
      refine ih (by omega) hbase' ?_ ipVar'
      unfold CanEnd at hcan ⊢
      omega
    · exact octetsFrom_bad (by omega) hbase hwidth

lemma CanEnd.step {len : ℕ} (h : CanEnd len L (j + 1) base) (hin : base + 3 ≤ len + 1) :
    ∃ w, 1 ≤ w ∧ w ≤ 3 ∧ CanEnd len L j (base + w + 1) := by
  unfold CanEnd at h ⊢
  -- the narrowest group that leaves the rest short enough
  by_cases h1 : L ≤ base + 4 * j + 5 ∧ base + 2 * j + 3 ≤ L
  · exact ⟨1, by omega⟩
  · by_cases h2 : L = base + 4 * j + 6
    · exact ⟨2, by omega⟩
    · exact ⟨3, by omega⟩

lemma exists_not_refused (hL : L ≤ value.length) (hk : k + j = 3)
    (hcan : CanEnd value.length L j base) :
    ∃ junk : ℕ → Int, ∀ ip : ℕ → Int, (∀ i, k < i → i < 4 → ip i = junk i) → ip k + 1 = base →
      ip 4 = L → ∀ ipVar, ¬ Refused (octetsFrom value ip k ipVar) := by
  induction j generalizing k base with
  | zero =>
    obtain rfl : k = 3 := by omega
    refine ⟨fun _ => 0, fun ip _ hbase hend ipVar ⟨out, hout⟩ => ?_⟩
    unfold CanEnd at hcan
    have hend : ip (3 + 1) = L := hend
    obtain ⟨w, hw⟩ : ∃ w, L = base + w := ⟨L - base, by omega⟩
    obtain ⟨ipVar', hnext⟩ := octetsFrom_good ipVar (by decide) hbase (by omega) (by omega)
      (show ip (3 + 1) = base + w by omega) (show base + w ≤ value.length + 1 by omega)
    rw [hnext] at hout
    cases hout
  | succ j ih =>
    by_cases hin : base + 3 ≤ value.length + 1
    · obtain ⟨w, hlow, hhigh, hnext⟩ := hcan.step hin
      obtain ⟨junk, hjunk⟩ := ih (k := k + 1) (by omega) hnext
      refine ⟨Function.update junk (k + 1) (base + w : ℕ), fun ip hip hbase hend ipVar => ?_⟩
      have hw : ip (k + 1) = base + w := by simpa using hip (k + 1) (by omega) (by omega)
      obtain ⟨ipVar', heq⟩ := octetsFrom_good ipVar (by omega) hbase hlow hhigh hw
        (show base + w ≤ value.length + 1 by omega)
      rw [heq]
      refine hjunk ip (fun i hi h4 => ?_) (by omega) hend ipVar'
      rw [hip i (by omega) h4, Function.update_of_ne (by omega)]
    · refine ⟨fun _ => (base + 3 : ℕ), fun ip hip hbase _ ipVar ⟨out, hout⟩ => ?_⟩
      have hw : ip (k + 1) = base + 3 := by simpa using hip (k + 1) (by omega) (by omega)
      rw [octetsFrom_fault (by omega) hbase hw (by omega)] at hout
      cases hout

end Missing

section Text

/-- What is left of the text behind the dots read so far, `j` more being expected, may be
accepted or read past the end. `extra` characters of the string lie behind the text. -/
def PassesFrom (extra : ℕ) : ℕ → List UInt8 → Prop
  | 0, ys => 1 ≤ ys.length ∧ ys.length ≤ 3
  | j + 1, ys =>
    if 0x2e ∈ ys then
      (1 ≤ ys.idxOf 0x2e ∧ ys.idxOf 0x2e ≤ 3) ∧ PassesFrom extra j (ys.drop (ys.idxOf 0x2e + 1))
    else 2 * j + 3 ≤ ys.length ∧ ys.length ≤ 4 * j + 7 ∨ ys.length + extra + 2 < 4 * j + 4

/-- The length is kept in eight bits, so only that much of the text is looked at. -/
def PassesForQuad (s : CString) : Prop :=
  PassesFrom (s.length - s.length % 256) 3 (s.take (s.length % 256))

instance PassesFrom.decidable (extra : ℕ) : ∀ j ys, Decidable (PassesFrom extra j ys)
  | 0, ys => inferInstanceAs (Decidable (1 ≤ ys.length ∧ ys.length ≤ 3))
  | j + 1, ys =>
    have := PassesFrom.decidable extra j (ys.drop (ys.idxOf 0x2e + 1))
    show Decidable (if _ then _ else _) from inferInstance

instance PassesForQuad.decidable (s : CString) : Decidable (PassesForQuad s) :=
  PassesFrom.decidable _ _ _

/-- The positions the reader works with: before the text, the dots, and the end. -/
def ends (L : ℕ) (loc : ℕ → Int) (k : ℕ) : Int :=
  if k = 0 then -1 else if k = 4 then L else loc (k - 1)

lemma ends_four (L : ℕ) (loc : ℕ → Int) : ends L loc 4 = L := rfl

lemma ends_succ {L : ℕ} {loc : ℕ → Int} {k : ℕ} (hk : k < 3) : ends L loc (k + 1) = loc k := by
  rw [ends, if_neg (by omega), if_neg (by omega), Nat.add_sub_cancel]

lemma toNat_succ_of_lt {q : UInt8} (hq : q < 3) : (q + 1).toNat = q.toNat + 1 := by
  have h : q.toNat < 3 := UInt8.lt_iff_toNat_lt.mp hq
  rw [UInt8.toNat_add, UInt8.toNat_one]
  omega

lemma findFrom_keeps {c q : UInt8} {k : ℕ} (hk : k < q.toNat) (ys : List UInt8) (i : Int)
    (loc : ℕ → Int) : (findFrom c 3 ys i q loc).2 k = loc k := by
  induction ys generalizing i q loc with
  | nil => rfl
  | cons y ys ih =>
    rw [findFrom]
    split_ifs with h
    · have hq := toNat_succ_of_lt h.2
      rw [ih (by omega), Function.update_of_ne (by omega)]
    · exact ih hk _ loc

section Rest
variable {extra j : ℕ} {g rest ys : List UInt8}

lemma passesFrom_dot (hg : 0x2e ∉ g) :
    PassesFrom extra (j + 1) (g ++ 0x2e :: rest) ↔
      (1 ≤ g.length ∧ g.length ≤ 3) ∧ PassesFrom extra j rest := by
  have hidx : (g ++ 0x2e :: rest).idxOf 0x2e = g.length := by
    rw [List.idxOf_append_of_notMem hg, List.idxOf_cons_self, Nat.add_zero]
  have hdrop : (g ++ 0x2e :: rest).drop (g.length + 1) = rest := by simp
  rw [PassesFrom, if_pos (by simp), hidx, hdrop]

lemma passesFrom_canEnd {L len base : ℕ} (hdot : j = 0 ∨ 0x2e ∉ ys) (hL : base + ys.length = L)
    (hlen : L + extra = len) : PassesFrom extra j ys ↔ CanEnd len L j base := by
  unfold CanEnd
  cases j with
  | zero =>
    rw [PassesFrom]
    omega
  | succ j =>
    rw [PassesFrom, if_neg (by simpa using hdot)]
    omega

/-- The positions once the rest of the text is searched, from `base` on. -/
def endsFrom (L base : ℕ) (q : UInt8) (ys : List UInt8) (loc : ℕ → Int) : ℕ → Int :=
  ends L (findFrom 0x2e 3 ys base q loc).2

lemma endsFrom_dot {L base : ℕ} {q : UInt8} (hq : q < 3) (hg : 0x2e ∉ g) (loc : ℕ → Int) :
    endsFrom L base q (g ++ 0x2e :: rest) loc =
      endsFrom L (base + g.length + 1) (q + 1) rest
        (Function.update loc q.toNat (base + g.length : ℕ)) := by
  have hne : ∀ x ∈ g, x ≠ 0x2e := fun x hx h => hg (h ▸ hx)
  rw [endsFrom, findFrom_skip 3 hne, findFrom_hit hq]
  rfl

lemma endsFrom_last {q : UInt8} (hq : q < 3) (L base : ℕ) (rest : List UInt8) (pos : Int)
    (loc : ℕ → Int) :
    endsFrom L base (q + 1) rest (Function.update loc q.toNat pos) (q.toNat + 1) = pos := by
  have hlt : q.toNat < 3 := UInt8.lt_iff_toNat_lt.mp hq
  rw [endsFrom, ends_succ hlt, findFrom_keeps (by rw [toNat_succ_of_lt hq]; omega),
    Function.update_self]

variable {s : CString} {L base : ℕ} {q : UInt8}

/-- A group before a dot is read and the loop goes on behind the dot. -/
lemma octetsFrom_dot (hq : q < 3) (hg : 0x2e ∉ g) (hlow : 1 ≤ g.length) (hhigh : g.length ≤ 3)
    (hin : base + g.length ≤ s.length + 1) {loc : ℕ → Int}
    (hbase : endsFrom L base q (g ++ 0x2e :: rest) loc q.toNat + 1 = base) (ipVar : Fin 4 → UInt8) :
    let loc' := Function.update loc q.toNat (base + g.length : ℕ)
    let ip' := endsFrom L (base + g.length + 1) (q + 1) rest loc'
    ip' (q + 1).toNat + 1 = (base + g.length + 1 : ℕ) ∧
      ∃ ipVar', octetsFrom s (endsFrom L base q (g ++ 0x2e :: rest) loc) q.toNat ipVar =
        octetsFrom s ip' (q + 1).toNat ipVar' := by
  intro loc' ip'
  have hlt : q.toNat < 3 := UInt8.lt_iff_toNat_lt.mp hq
  have hpos : ip' (q.toNat + 1) = (base + g.length : ℕ) := endsFrom_last hq _ _ rest _ loc
  rw [endsFrom_dot hq hg] at hbase ⊢
  rw [toNat_succ_of_lt hq]
  exact ⟨by rw [hpos]; push_cast; rfl,
    octetsFrom_good ipVar (by omega) hbase hlow hhigh hpos hin⟩

theorem refused_of_not_passesFrom (hlen : L + extra = s.length) (hq : q.toNat + j = 3)
    (hL : base + ys.length = L) (hpass : ¬ PassesFrom extra j ys) (loc : ℕ → Int)
    (hbase : endsFrom L base q ys loc q.toNat + 1 = base) (ipVar : Fin 4 → UInt8) :
    Refused (octetsFrom s (endsFrom L base q ys loc) q.toNat ipVar) := by
  induction j generalizing q base ys loc ipVar with
  | zero =>
    rw [passesFrom_canEnd (.inl rfl) hL hlen] at hpass
    exact refused_of_not_canEnd (ends_four L _) hq hbase hpass ipVar
  | succ j ih =>
    by_cases hdot : 0x2e ∈ ys
    · obtain ⟨g, rest, rfl, hg⟩ := List.eq_append_cons_of_mem hdot
      have hlt : q < 3 := UInt8.lt_iff_toNat_lt.mpr (show q.toNat < 3 by omega)
      have hsucc := toNat_succ_of_lt hlt
      have hL' : base + g.length + 1 + rest.length = L := by simp at hL; omega
      rw [passesFrom_dot hg] at hpass
      by_cases hwidth : 1 ≤ g.length ∧ g.length ≤ 3
      · have hin : base + g.length ≤ s.length + 1 := by omega
        obtain ⟨hbase', ipVar', hnext⟩ := octetsFrom_dot hlt hg hwidth.1 hwidth.2 hin hbase ipVar
        rw [hnext]
        exact ih (by omega) hL' (fun h => hpass ⟨hwidth, h⟩) _ hbase' ipVar'
      · refine octetsFrom_bad (by omega) hbase ?_
        rw [endsFrom_dot hlt hg, endsFrom_last hlt]
        push_cast
        omega
    · rw [passesFrom_canEnd (.inr hdot) hL hlen] at hpass
      exact refused_of_not_canEnd (ends_four L _) hq hbase hpass ipVar

theorem exists_not_refused_of_passesFrom (hlen : L + extra = s.length) (hq : q.toNat + j = 3)
    (hL : base + ys.length = L) (hpass : PassesFrom extra j ys) :
    ∃ junk : ℕ → Int, ∀ loc : ℕ → Int, (∀ i, q.toNat ≤ i → i < 3 → loc i = junk i) →
      endsFrom L base q ys loc q.toNat + 1 = base →
      ∀ ipVar, ¬ Refused (octetsFrom s (endsFrom L base q ys loc) q.toNat ipVar) := by
  induction j generalizing q base ys with
  | zero =>
    rw [passesFrom_canEnd (.inl rfl) hL hlen] at hpass
    obtain ⟨junk, hjunk⟩ := exists_not_refused (by omega) hq hpass
    exact ⟨junk, fun loc _ hbase => hjunk _ (fun i hi h4 => by omega) hbase (ends_four L _)⟩
  | succ j ih =>
    by_cases hdot : 0x2e ∈ ys
    · obtain ⟨g, rest, rfl, hg⟩ := List.eq_append_cons_of_mem hdot
      have hlt : q < 3 := UInt8.lt_iff_toNat_lt.mpr (show q.toNat < 3 by omega)
      have hsucc := toNat_succ_of_lt hlt
      obtain ⟨hwidth, hrest⟩ := (passesFrom_dot hg).mp hpass
      have hL' : base + g.length + 1 + rest.length = L := by simp at hL; omega
      obtain ⟨junk, hjunk⟩ := ih (q := q + 1) (by omega) hL' hrest
      have hin : base + g.length ≤ s.length + 1 := by omega
      refine ⟨junk, fun loc hloc hbase ipVar => ?_⟩
      obtain ⟨hbase', ipVar', hnext⟩ := octetsFrom_dot hlt hg hwidth.1 hwidth.2 hin hbase ipVar
      rw [hnext]
      refine hjunk _ (fun i hi h3 => ?_) hbase' ipVar'
      rw [Function.update_of_ne (by omega), hloc i (by omega) h3]
    · rw [passesFrom_canEnd (.inr hdot) hL hlen] at hpass
      obtain ⟨junk, hjunk⟩ := exists_not_refused (by omega) hq hpass
      refine ⟨fun i => junk (i + 1), fun loc hloc hbase =>
        hjunk _ (fun i hi h4 => ?_) hbase (ends_four L _)⟩
      -- no dot is left to be found, so the positions are those of the array
      have hnone : findFrom 0x2e 3 ys base q loc = (q, loc) := by
        have hne : ∀ x ∈ ys, x ≠ 0x2e := fun x hx h => hdot (h ▸ hx)
        simpa [findFrom] using findFrom_skip 3 hne [] base q loc
      obtain ⟨i, rfl⟩ : ∃ m, i = m + 1 := ⟨i - 1, by omega⟩
      rw [endsFrom, hnone, ends_succ (by omega)]
      exact hloc i (by omega) (by omega)

end Rest

lemma twConvertStrToIparr_eq_octetsFrom (stack : ℕ → Int) {s : CString} (h0 : 0 ∉ s)
    (ipVar : Fin 4 → UInt8) : twConvertStrToIparr stack s ipVar =
      octetsFrom s (endsFrom (s.length % 256) 0 0 (s.take (s.length % 256)) stack) 0 ipVar := by
  rw [← twStrLen_toNat h0]
  rfl

/-- The string is refused in both forms, without a read outside of it, whatever the arrays
held before. -/
def Refuses (s : CString) : Prop :=
  ∀ stack ipVar, Refused (twConvertStrToIparr stack s ipVar) ∧
    twConvertIpStrToDec stack ipVar s = .ret 0

lemma Refused.dec {stack : ℕ → Int} {ipVar : Fin 4 → UInt8} {s : CString}
    (h : Refused (twConvertStrToIparr stack s ipVar)) :
    twConvertIpStrToDec stack ipVar s = .ret 0 := by
  obtain ⟨out, hout⟩ := h
  simp only [twConvertIpStrToDec, hout, Outcome.ret_bind]
  rfl

theorem refuses_iff {s : CString} (h0 : 0 ∉ s) : Refuses s ↔ ¬ PassesForQuad s := by
  have hlen : s.length % 256 + (s.length - s.length % 256) = s.length := by omega
  have htake : 0 + (s.take (s.length % 256)).length = s.length % 256 := by
    rw [List.length_take]
    omega
  constructor
  · intro hall hpass
    obtain ⟨junk, hjunk⟩ := exists_not_refused_of_passesFrom (q := 0) hlen rfl htake hpass
    refine hjunk junk (fun _ _ _ => rfl) rfl (fun _ => 0) ?_
    have h := (hall junk fun _ => 0).1
    rwa [twConvertStrToIparr_eq_octetsFrom junk h0] at h
  · intro hpass stack ipVar
    have h : Refused (twConvertStrToIparr stack s ipVar) := by
      rw [twConvertStrToIparr_eq_octetsFrom stack h0]
      exact refused_of_not_passesFrom (q := 0) hlen rfl htake hpass stack rfl ipVar
    exact ⟨h, h.dec⟩

def IsQuad (s : CString) : Prop := ∃ a b c d : Octet, s = dottedQuad a b c d

lemma IsQuad.not_refuses {s : CString} (h : IsQuad s) : ¬ Refuses s := by
  obtain ⟨a, b, c, d, rfl⟩ := h
  intro hall
  obtain ⟨out, hout⟩ := (hall (fun _ => 0) fun _ => 0).1
  rw [twConvertStrToIparr_dottedQuad] at hout
  cases hout

lemma IsQuad.char {s : CString} (h : IsQuad s) {x : UInt8} (hx : x ∈ s) :
    x = 0x2e ∨ ∃ d, x = digitChar d := by
  obtain ⟨a, b, c, d, rfl⟩ := h
  have htext : ∀ o : Octet, x ∈ o.text → ∃ d, x = digitChar d := fun o hmem => by
    obtain ⟨d, -, hd⟩ := List.mem_map.mp hmem
    exact ⟨d, hd.symm⟩
  simp only [dottedQuad, List.mem_append, List.mem_cons] at hx
  rcases hx with h | h | h | h | h | h | h
  · exact .inr (htext a h)
  · exact .inl h
  · exact .inr (htext b h)
  · exact .inl h
  · exact .inr (htext c h)
  · exact .inl h
  · exact .inr (htext d h)

/-- The strings that are no dotted quads are refused except those whose groups have the
widths of one. -/
theorem refuses_other_iff {s : CString} (h0 : 0 ∉ s) :
    (¬ IsQuad s → Refuses s) ↔ (PassesForQuad s → IsQuad s) := by
  rw [refuses_iff h0]
  tauto

/-- `1111.2.3.4` -/
def wideQuad : CString := [0x31, 0x31, 0x31, 0x31, 0x2e, 0x32, 0x2e, 0x33, 0x2e, 0x34]

theorem refuses_wideQuad : ¬ IsQuad wideQuad ∧ Refuses wideQuad := by
  have hquad : ¬ IsQuad wideQuad := fun h =>
    h.not_refuses ((refuses_iff (by decide)).mpr (by decide))
  exact ⟨hquad, (refuses_other_iff (by decide)).mpr (fun h => absurd h (by decide)) hquad⟩

/-- `a.b.c.d` -/
def letterQuad : CString := [0x61, 0x2e, 0x62, 0x2e, 0x63, 0x2e, 0x64]

theorem letterQuad_accepted :
    0 ∉ letterQuad ∧ ¬ IsQuad letterQuad ∧ ¬ Refuses letterQuad ∧
      twConvertIpStrToDec (fun _ => 0) (fun _ => 0) letterQuad = .ret 0x31323334 := by
  refine ⟨by decide, fun h => ?_, ?_, by decide⟩
  · rcases h.char (x := 0x61) (by decide) with h | ⟨d, h⟩
    · exact absurd h (by decide)
    · revert d
      decide
  · rw [refuses_iff (by decide)]
    decide

end Text
end Twister
