import Twister.CJsonResult

/-! On a terminated text whose escapes are complete the reader stays inside the text and inside
the blocks it writes to, and it returns: at most two steps for each byte. -/
namespace Twister.CJson
open Json Outcome

section Scanning

/-- A string body up to its quote or to the end of the text, with four digits behind every
`u`. -/
inductive WellEscaped : Ptr → Prop
  | stop {c : UInt8} {p : Ptr} : c = 0x22 ∨ c = 0 → WellEscaped (c :: p)
  | raw {c : UInt8} {p : Ptr} : c ≠ 0x22 → c ≠ 0 → c ≠ 0x5c → WellEscaped p → WellEscaped (c :: p)
  | escape {c : UInt8} {p : Ptr} : c ≠ 0x75 → c ≠ 0 → WellEscaped p → WellEscaped (0x5c :: c :: p)
  | unicode {ds p : Ptr} {uc : ℕ} : Hex4 ds uc → WellEscaped p →
      WellEscaped (0x5c :: 0x75 :: (ds ++ p))

/-- The text is terminated and wherever a string could start its escapes are complete. -/
structure Safe (p : Ptr) : Prop where
  terminated : 0 ∈ p
  escapes : ∀ q, 0x22 :: q <:+ p → WellEscaped q

lemma Safe.suffix {p q : Ptr} (h : Safe p) (hq : q <:+ p) (hzero : 0 ∈ q) : Safe q :=
  ⟨hzero, fun r hr => h.escapes r (hr.trans hq)⟩

lemma mem_tail {c : UInt8} {p : Ptr} (h : 0 ∈ c :: p) (hc : c ≠ 0) : 0 ∈ p :=
  (List.mem_cons.mp h).resolve_left (Ne.symm hc)

/-- A byte other than the terminator has one behind it. -/
lemma deref_returns {p : Ptr} (h : 0 ∈ p) : Returns (deref p) fun c => c ≠ 0 → 0 ∈ p.tail := by
  cases p with
  | nil => cases h
  | cons c p => exact .ret (mem_tail h)

lemma skip_returns {p : Ptr} (h : 0 ∈ p) : Returns (skip p) fun q => 0 ∈ q := by
  induction p with
  | nil => cases h
  | cons c p ih =>
    rw [skip]
    exact .ite (fun hc => ih (mem_tail h hc.1)) (fun _ => .ret h)

lemma digitLoop_returns {α : Type} (f : α → UInt8 → α) (a : α) {p : Ptr} (h : 0 ∈ p) :
    Returns (digitLoop f a p) fun r => 0 ∈ r.2 := by
  induction p generalizing a with
  | nil => cases h
  | cons c p ih =>
    rw [digitLoop]
    refine .ite (fun hc => ih _ (mem_tail h ?_)) (fun _ => .ret h)
    rintro rfl
    exact absurd hc.1 (by decide)

/-- A literal without the terminator is compared inside the text. -/
lemma startsWith_returns {literal p : Ptr} (hl : 0 ∉ literal) (h : 0 ∈ p) :
    Returns (startsWith literal p) fun b => b = true → 0 ∈ p.drop literal.length := by
  induction literal generalizing p with
  | nil => exact .ret fun _ => h
  | cons l literal ih =>
    obtain ⟨hne, hl⟩ := not_or.mp (List.mem_cons.not.mp hl)
    cases p with
    | nil => cases h
    | cons c p =>
      rw [startsWith]
      refine .ite (fun hc => ih hl (mem_tail h ?_)) (fun _ => .ret (by rintro ⟨⟩))
      exact hc ▸ Ne.symm hne

end Scanning

section Numbers
variable {p : Ptr}

lemma parseExpSign_returns (h : 0 ∈ p) : Returns (parseExpSign p) fun r => 0 ∈ r.2 := by
  refine (deref_returns h).bind fun c _ htail => ?_
  refine .ite (fun hc => .ret (htail ?_)) fun _ => .ite (fun hc => .ret (htail ?_)) fun _ => .ret h
  all_goals exact hc ▸ by decide

lemma parseExponent_returns (h : 0 ∈ p) : Returns (parseExponent p) fun r => 0 ∈ r.2 := by
  refine (deref_returns h).bind fun c _ htail => .ite (fun hc => ?_) fun _ => .ret h
  have hne : c ≠ 0 := by
    rintro rfl
    exact absurd hc (by decide)
  refine (parseExpSign_returns (htail hne)).bind ?_
  rintro ⟨sign, p₁⟩ - h₁
  refine (digitLoop_returns _ 0 h₁).bind ?_
  rintro ⟨subscale, p₂⟩ - h₂
  exact .ret h₂

lemma parseFraction_returns (h : 0 ∈ p) (n : Float) :
    Returns (parseFraction n p) fun r => 0 ∈ r.2 := by
  refine (deref_returns h).bind fun c _ htail => .ite (fun hc => ?_) fun _ => .ret h
  have h₁ := htail (hc ▸ by decide)
  exact (deref_returns h₁).bind fun d _ _ =>
    .ite (fun _ => digitLoop_returns addScaled (n, 0.0) h₁) fun _ => .ret h

lemma parseIntegral_returns (h : 0 ∈ p) : Returns (parseIntegral p) fun r => 0 ∈ r.2 := by
  refine (deref_returns h).bind fun c _ htail => ?_
  have h₁ : 0 ∈ if c = 0x30 then p.tail else p := by
    split
    · rename_i hc
      exact htail (hc ▸ by decide)
    · exact h
  exact (deref_returns h₁).bind fun d _ _ =>
    .ite (fun _ => digitLoop_returns addDigit 0.0 h₁) fun _ => .ret h₁

lemma parseSign_returns (h : 0 ∈ p) : Returns (parseSign p) fun r => 0 ∈ r.2 := by
  refine (deref_returns h).bind fun c _ htail => .ite (fun hc => .ret (htail ?_)) fun _ => .ret h
  exact hc ▸ by decide

lemma parseNumber_returns (h : 0 ∈ p) (item : Fields) :
    Returns (parseNumber item p) fun r => 0 ∈ r.2 := by
  refine (parseSign_returns h).bind ?_
  rintro ⟨sign, p₁⟩ - h₁
  refine (parseIntegral_returns h₁).bind ?_
  rintro ⟨n, p₂⟩ - h₂
  refine (parseFraction_returns h₂ n).bind ?_
  rintro ⟨⟨n, scale⟩, p₃⟩ - h₃
  refine (parseExponent_returns h₃).bind ?_
  rintro ⟨exponent, p₄⟩ - h₄
  exact .ret h₄

end Numbers

section Strings
variable {p : Ptr}

lemma utf8From_length (len uc : ℕ) (k : ℕ) : (utf8From len k uc).length = k := by
  induction k generalizing uc with
  | zero => rfl
  | succ k ih =>
    cases k with
    | zero => rfl
    | succ k => rw [utf8From, List.length_append, ih, List.length_singleton]

lemma utf8_length_le (uc : ℕ) : (utf8 uc).length ≤ 4 := by
  rw [utf8, utf8From_length, utf8Len]
  split
  · decide
  · split
    · decide
    · split <;> decide

/-- Where a unicode escape with `p` behind it leaves the rest `q`: behind itself, or behind a
second escape it was read together with. -/
def EscapeEnd (p q : Ptr) : Prop :=
  q = p ∨ ∃ ds uc, Hex4 ds uc ∧ p = 0x5c :: 0x75 :: (ds ++ q)

/-- An escape gives at most four bytes. -/
lemma unicodeEscape_returns {ds : Ptr} {uc : ℕ} (hds : Hex4 ds uc) (hp : WellEscaped p) :
    Returns (unicodeEscape (0x75 :: (ds ++ p))) fun r =>
      r.1.length ≤ 4 ∧ ∃ d q, r.2 = d :: q ∧ WellEscaped q ∧ EscapeEnd p q := by
  have hhex := parseHex4_text hds p
  obtain ⟨a, b, c, d, rfl⟩ := exists_four hds.1
  rw [unicodeEscape, List.tail_cons, hhex, Outcome.ret_bind]
  simp only [List.cons_append, List.nil_append, List.drop_succ_cons, List.drop_zero]
  have hnone : Returns (.ret (([] : List UInt8), d :: p)) fun r : List UInt8 × Ptr =>
      r.1.length ≤ 4 ∧ ∃ d q, r.2 = d :: q ∧ WellEscaped q ∧ EscapeEnd p q :=
    .ret ⟨Nat.zero_le 4, d, p, rfl, hp, Or.inl rfl⟩
  refine .ite (fun _ => hnone) fun _ => .ite (fun _ => ?_) fun _ =>
    .ret ⟨utf8_length_le uc, d, p, rfl, hp, Or.inl rfl⟩
  -- a high surrogate looks for the second escape of its pair
  cases hp with
  | stop hc =>
    rename_i c' p
    refine .ite (fun _ => hnone) fun h => ?_
    obtain rfl := not_not.mp h
    exact absurd hc (by decide)
  | raw hq h0 hb hp => exact .ite (fun _ => hnone) fun h => absurd (not_not.mp h) hb
  | escape hu h0 hp =>
    rw [deref, Outcome.ret_bind, if_neg (not_not.mpr rfl)]
    exact .ite (fun _ => hnone) fun h => absurd (not_not.mp h) hu
  | unicode hds' hp =>
    rename_i ds' p uc'
    have hhex' := parseHex4_text hds' p
    obtain ⟨a', b', c', d', rfl⟩ := exists_four hds'.1
    simp only [List.cons_append, List.nil_append, List.drop_succ_cons, List.drop_zero, deref,
      Outcome.ret_bind, ne_eq, not_true_eq_false, if_false] at hhex' ⊢
    rw [hhex', Outcome.ret_bind]
    have hend : EscapeEnd (0x5c :: 0x75 :: ([a', b', c', d'] ++ p)) p := Or.inr ⟨_, _, hds', rfl⟩
    exact .ite (fun _ => .ret ⟨Nat.zero_le 4, d', p, rfl, hp, hend⟩) fun _ =>
      .ret ⟨utf8_length_le _, d', p, rfl, hp, hend⟩

/-- The first pass finds a length `n` that is enough for the second one. -/
structure Decodes (p : Ptr) (n : ℕ) : Prop where
  scan : scanLen p = .ret n
  decode : ∀ {size fuel : ℕ} {out : List UInt8}, p.length ≤ fuel → out.length + n ≤ size →
    Returns (decodeLoop size fuel out p) fun r =>
      r.1.length ≤ out.length + n ∧ (0 ∈ p → 0 ∈ r.2)

lemma scanLen_unicode {ds : Ptr} {uc n : ℕ} (hds : Hex4 ds uc) (hp : scanLen p = .ret n) :
    scanLen (0x5c :: 0x75 :: (ds ++ p)) = .ret (n + 5) := by
  rw [scanLen_escape _ (scanLen_hex hds.2 hp), hds.1]

lemma zero_mem_unicode {ds : Ptr} {uc : ℕ} (hds : Hex4 ds uc)
    (h : (0 : UInt8) ∈ 0x5c :: 0x75 :: (ds ++ p)) : 0 ∈ p := by
  have hplain : ∀ {h n : ℕ} {ds : Ptr}, hexFrom h ds = some n → (0 : UInt8) ∉ ds := by
    intro h n ds hds
    induction ds generalizing h with
    | nil => exact List.not_mem_nil
    | cons c ds ih =>
      rw [hexFrom, Option.bind_eq_some_iff] at hds
      obtain ⟨d, hc, hds⟩ := hds
      exact List.not_mem_cons_of_ne_of_not_mem (hexDigit_plain hc).1.symm (ih hds)
  have htail := mem_tail (mem_tail h (by decide)) (by decide)
  exact (List.mem_append.mp htail).resolve_left (hplain hds.2)

/-- Behind one escape or two the length has room for what they give. -/
lemma decodes_unicode {ds : Ptr} {uc : ℕ} (hds : Hex4 ds uc) (hp : WellEscaped p)
    (ih : ∀ q, q.length ≤ p.length → WellEscaped q → ∃ n, Decodes q n) :
    ∃ n, Decodes (0x5c :: 0x75 :: (ds ++ p)) n := by
  obtain ⟨⟨bytes, ptr⟩, hesc, hbytes, d, q, rfl, hq, hend⟩ := unicodeEscape_returns hds hp
  have hrest : ∃ n k, Decodes q n ∧ scanLen p = .ret (n + k) ∧ q.length ≤ p.length ∧
      (0 ∈ p → 0 ∈ q) := by
    rcases hend with rfl | ⟨ds', uc', hds', rfl⟩
    · obtain ⟨n, hn⟩ := ih _ le_rfl hp
      exact ⟨n, 0, hn, hn.scan, le_rfl, id⟩
    · obtain ⟨n, hn⟩ := ih q (by simp only [List.length_cons, List.length_append]; omega) hq
      refine ⟨n, 5, hn, scanLen_unicode hds' hn.scan, ?_, zero_mem_unicode hds'⟩
      simp only [List.length_cons, List.length_append]
      omega
  obtain ⟨n, k, hn, hscan, hlen, hzero⟩ := hrest
  refine ⟨n + k + 5, scanLen_unicode hds hscan, ?_⟩
  intro size fuel out hfuel hsize
  have hlength : (ds ++ p).length = ds.length + p.length := List.length_append
  cases fuel with
  | zero => cases hfuel
  | succ fuel =>
    simp only [List.length_cons] at hfuel
    have hstore : store size out bytes = .ret (out ++ bytes) :=
      store_ret (by dsimp only at *; omega)
    have hloop : decodeLoop size (fuel + 1) out (0x5c :: 0x75 :: (ds ++ p)) =
        decodeLoop size fuel (out ++ bytes) q := by
      simp [decodeLoop, deref, hesc, hstore]
    rw [hloop]
    dsimp only at hbytes
    have hout : (out ++ bytes).length = out.length + bytes.length := List.length_append
    refine (hn.decode (by omega) (by omega)).mono fun r _ hr => ⟨by omega, fun h => ?_⟩
    exact hr.2 (hzero (zero_mem_unicode hds h))

/-- A byte `c` is stored for a character of the text that has `q` behind it. -/
lemma Decodes.char {q : Ptr} {n : ℕ} {c : UInt8} (hn : Decodes q n)
    (hscan : scanLen p = .ret (n + 1)) (hlen : q.length < p.length) (hzero : 0 ∈ p → 0 ∈ q)
    (hloop : ∀ {size fuel : ℕ} {out : List UInt8}, out.length + 1 ≤ size →
      decodeLoop size (fuel + 1) out p = decodeLoop size fuel (out ++ [c]) q) :
    Decodes p (n + 1) := by
  refine ⟨hscan, ?_⟩
  intro size fuel out hfuel hsize
  cases fuel with
  | zero => omega
  | succ fuel =>
    rw [hloop (by omega)]
    have hout : (out ++ [c]).length = out.length + 1 := List.length_append
    refine (hn.decode (by omega) (by omega)).mono fun r _ hr => ⟨by omega, fun h => ?_⟩
    exact hr.2 (hzero h)

/-- The induction is on the length, since a pair of surrogates is read in one step. -/
lemma decodes (k : ℕ) (hk : p.length ≤ k) (hp : WellEscaped p) : ∃ n, Decodes p n := by
  induction k generalizing p with
  | zero =>
    rw [List.length_eq_zero_iff.mp (Nat.le_zero.mp hk)] at hp
    cases hp
  | succ k ih =>
    cases hp with
    | stop hc =>
      refine ⟨0, by rw [scanLen.eq_def]; simp [hc], ?_⟩
      intro size fuel out hfuel hsize
      cases fuel with
      | zero => cases hfuel
      | succ fuel =>
        rw [decodeLoop, deref, Outcome.ret_bind, if_pos hc]
        exact .ret ⟨le_rfl, id⟩
    | raw hq h0 hb hp =>
      rename_i c q
      obtain ⟨n, hn⟩ := ih (Nat.le_of_succ_le_succ hk) hp
      refine ⟨n + 1, hn.char (c := c) (scanLen_raw h0 hq hb hn.scan) (Nat.lt_succ_self _)
        (fun h => mem_tail h h0) ?_⟩
      intro size fuel out hsize
      rw [decodeLoop, deref, Outcome.ret_bind, if_neg (not_or.mpr ⟨hq, h0⟩), if_pos hb,
        store_ret hsize, Outcome.ret_bind, List.tail_cons]
    | escape hu h0 hp =>
      rename_i c q
      simp only [List.length_cons] at hk
      obtain ⟨n, hn⟩ := ih (show q.length ≤ k by omega) hp
      refine ⟨n + 1, hn.char (c := unescape c) (scanLen_escape c hn.scan)
        (by simp only [List.length_cons]; omega)
        (fun h => mem_tail (mem_tail h (by decide)) h0) ?_⟩
      intro size fuel out hsize
      have hstore : store size out [unescape c] = .ret (out ++ [unescape c]) := store_ret hsize
      simp [decodeLoop, deref, hu, hstore]
    | unicode hds hp =>
      rename_i ds q uc
      simp only [List.length_cons, List.length_append] at hk
      exact decodes_unicode hds hp fun r hr => ih (show r.length ≤ k by omega)

end Strings

section Values
variable {ok : ℕ → Bool} {g : Globals} {item : Fields} {p : Ptr}

/-- A pointer that is returned is still inside the terminated text. -/
def Terminated (r : Option Ptr) : Prop := ∀ q, r = some q → 0 ∈ q

lemma terminated_none : Terminated none := by
  rintro q ⟨⟩

lemma terminated_some (h : 0 ∈ p) : Terminated (some p) := by
  rintro q ⟨⟩
  exact h

lemma parseString_returns (h : Safe p) :
    Returns (parseString ok g item p) fun r => Terminated r.2.2 := by
  refine (deref_returns h.terminated).bind fun c hc htail => ?_
  obtain ⟨p, rfl⟩ := deref_ret hc
  refine .ite (fun _ => .ret terminated_none) fun hquote => ?_
  obtain rfl := not_not.mp hquote
  obtain ⟨n, hn⟩ := decodes p.length le_rfl (h.escapes p List.suffix_rfl)
  rw [List.tail_cons, hn.scan, Outcome.ret_bind]
  cases hmem : g.mem.malloc ok with
  | mk success mem =>
    cases success with
    | false => exact .ret terminated_none
    | true =>
      have hroom : ([] : List UInt8).length + n ≤ n + 1 := by simp
      refine (hn.decode (Nat.le_succ _) hroom).bind ?_
      rintro ⟨out, ptr⟩ - ⟨hout, hzero⟩
      have hptr : 0 ∈ ptr := hzero (htail (by decide))
      have hstore : store (n + 1) out [0] = .ret (out ++ [0]) := store_ret (by simpa using hout)
      dsimp only
      rw [hstore, Outcome.ret_bind]
      refine (deref_returns hptr).bind fun d _ hd => .ret (terminated_some ?_)
      split
      · rename_i hend
        exact hd (hend ▸ by decide)
      · exact hptr

lemma parseLabel_returns {named : Bool} (h : Safe p) :
    Returns (parseLabel ok named g newItem p) fun r => Terminated r.2.2 := by
  cases named with
  | false => exact .ret (terminated_some h.terminated)
  | true =>
    refine (skip_returns h.terminated).bind fun p₁ hskip h₁ => ?_
    refine (parseString_returns (h.suffix (skip_moves hskip) h₁)).bind ?_
    rintro ⟨g₁, item₁, r₁⟩ - hr
    cases r₁ with
    | none => exact .ret terminated_none
    | some p₂ =>
      refine (skip_returns (hr p₂ rfl)).bind fun p₃ _ h₃ => ?_
      refine (deref_returns h₃).bind fun c _ htail => ?_
      refine .ite (fun _ => .ret terminated_none) fun hc => .ret (terminated_some (htail ?_))
      exact not_not.mp hc ▸ by decide

lemma parseContainer_returns {type : ItemType} {opening close : UInt8}
    {children : Globals → Ptr → Outcome (Globals × Items × Option Ptr)} (hopen : opening ≠ 0)
    (hclose : close ≠ 0)
    (hchildren : ∀ g q, Safe q → q.length < p.length →
      Returns (children g q) fun r => Terminated r.2.2) (h : Safe p) :
    Returns (parseContainer type opening close children g item p) fun r => Terminated r.2.2.2 := by
  refine (deref_returns h.terminated).bind fun c hc htail => ?_
  obtain ⟨p, rfl⟩ := deref_ret hc
  refine .ite (fun _ => .ret terminated_none) fun hc => ?_
  obtain rfl := not_not.mp hc
  refine (skip_returns (htail hopen)).bind fun p₁ hskip h₁ => ?_
  have hmoves : p₁ <:+ p := skip_moves hskip
  have hback : ∀ {q : Ptr} {d : UInt8}, d = close → (d ≠ 0 → 0 ∈ q.tail) → 0 ∈ q.tail :=
    fun hd hq => hq (hd ▸ hclose)
  refine (deref_returns h₁).bind fun d _ hd =>
    .ite (fun he => .ret (terminated_some (hback he hd))) fun _ => ?_
  refine (hchildren g p₁ (h.suffix (hmoves.trans (List.suffix_cons _ p)) h₁)
    (Nat.lt_succ_of_le hmoves.length_le)).bind ?_
  rintro ⟨g₁, child, r₁⟩ - hr
  cases r₁ with
  | none => exact .ret terminated_none
  | some p₂ =>
    exact (deref_returns (hr p₂ rfl)).bind fun e _ he =>
      .ite (fun hce => .ret (terminated_some (hback hce he))) fun _ => .ret terminated_none

variable {fuel : ℕ}

lemma parseValue_returns
    (hchildren : ∀ {named g q}, Safe q → 2 * q.length + 2 ≤ fuel →
      Returns (parseChildren ok named fuel g q) fun r => Terminated r.2.2)
    (h : Safe p) (hfuel : 2 * p.length + 1 ≤ fuel + 1) :
    Returns (parseValue ok (fuel + 1) g item p) fun r => Terminated r.2.2.2 := by
  have hword : ∀ {literal : Ptr}, 0 ∉ literal →
      Returns (startsWith literal p) fun b => b = true → 0 ∈ p.drop literal.length :=
    fun hl => startsWith_returns hl h.terminated
  have hshort : ∀ {q : Ptr}, q.length < p.length → 2 * q.length + 2 ≤ fuel := by
    intro q hq
    omega
  rw [parseValue]
  refine (hword (by decide)).bind fun b _ hb =>
    .ite (fun ht => .ret (terminated_some (hb ht))) fun _ => ?_
  refine (hword (by decide)).bind fun b _ hb =>
    .ite (fun ht => .ret (terminated_some (hb ht))) fun _ => ?_
  refine (hword (by decide)).bind fun b _ hb =>
    .ite (fun ht => .ret (terminated_some (hb ht))) fun _ => ?_
  refine (deref_returns h.terminated).bind fun c _ _ => .ite (fun _ => ?_) fun _ =>
    .ite (fun _ => ?_) fun _ => .ite (fun _ => ?_) fun _ => .ite (fun _ => ?_) fun _ =>
      .ret terminated_none
  · refine (parseString_returns h).bind ?_
    rintro ⟨g₁, item₁, r₁⟩ - hr
    exact .ret hr
  · refine (parseNumber_returns h.terminated item).bind ?_
    rintro ⟨item₁, q⟩ - hq
    exact .ret (terminated_some hq)
  · exact parseContainer_returns (by decide) (show (0x5d : UInt8) ≠ 0 by decide)
      (fun g q hq hlen => hchildren hq (hshort hlen)) h
  · exact parseContainer_returns (by decide) (show (0x7d : UInt8) ≠ 0 by decide)
      (fun g q hq hlen => hchildren hq (hshort hlen)) h

lemma parseChildren_returns {named : Bool}
    (hvalue : ∀ {g item q}, Safe q → 2 * q.length + 1 ≤ fuel →
      Returns (parseValue ok fuel g item q) fun r => Terminated r.2.2.2)
    (hchildren : ∀ {named g q}, Safe q → 2 * q.length + 2 ≤ fuel →
      Returns (parseChildren ok named fuel g q) fun r => Terminated r.2.2)
    (h : Safe p) (hfuel : 2 * p.length + 2 ≤ fuel + 1) :
    Returns (parseChildren ok named (fuel + 1) g p) fun r => Terminated r.2.2 := by
  rw [parseChildren]
  cases hmem : g.mem.malloc ok with
  | mk success mem =>
    cases success with
    | false => exact .ret terminated_none
    | true =>
      refine (parseLabel_returns h).bind ?_
      rintro ⟨g₁, item₁, r₁⟩ hlabel hr₁
      cases r₁ with
      | none => exact .ret terminated_none
      | some p₁ =>
        have hlabel := parseLabel_read hlabel
        refine (skip_returns (hr₁ p₁ rfl)).bind fun p₂ hskip h₂ => ?_
        have hmoves : p₂ <:+ p := (skip_moves hskip).trans (hlabel.call.moves p₁ rfl)
        have hle := hmoves.length_le
        refine (hvalue (h.suffix hmoves h₂) (by omega)).bind ?_
        rintro ⟨g₂, item₂, child, r₂⟩ hval hr₂
        cases r₂ with
        | none => exact .ret terminated_none
        | some p₃ =>
          obtain ⟨n, hread⟩ := (parse_read ok fuel).1 (IsLabel.noValue (hlabel.read p₁ rfl)) hval
          refine (skip_returns (hr₂ p₃ rfl)).bind fun p₄ hskip' h₄ => ?_
          refine (deref_returns h₄).bind fun c _ htail => .ite (fun hc => ?_) fun _ =>
            .ret (terminated_some h₄)
          have hnext : p₄.tail <:+ p₂.tail :=
            (List.tail_suffix p₄).trans ((skip_moves hskip').trans (hread.read p₃ rfl).1)
          have hlen : p₄.tail.length ≤ p₂.length - 1 := by
            rw [← List.length_tail]
            exact hnext.length_le
          have hpos : 0 < p₂.length := List.length_pos_of_mem h₂
          have hsafe := h.suffix ((hnext.trans (List.tail_suffix p₂)).trans hmoves)
            (htail (hc ▸ by decide))
          refine (hchildren hsafe (by omega)).bind ?_
          rintro ⟨g₃, next, r₃⟩ - hr₃
          exact .ret hr₃

/-- Two steps for each byte are enough: every value consumes one, and every child another. -/
lemma reads_returns (ok : ℕ → Bool) (fuel : ℕ) :
    (∀ {g item p}, Safe p → 2 * p.length + 1 ≤ fuel →
      Returns (parseValue ok fuel g item p) fun r => Terminated r.2.2.2) ∧
    (∀ {named g p}, Safe p → 2 * p.length + 2 ≤ fuel →
      Returns (parseChildren ok named fuel g p) fun r => Terminated r.2.2) := by
  induction fuel with
  | zero => exact ⟨fun _ hfuel => absurd hfuel (by omega), fun _ hfuel => absurd hfuel (by omega)⟩
  | succ fuel ih =>
    obtain ⟨ihv, ihc⟩ := ih
    exact ⟨fun h hfuel => parseValue_returns ihc h hfuel,
      fun h hfuel => parseChildren_returns ihv ihc h hfuel⟩

lemma parseWithOpts_returns {m : Alloc} {req : Bool} (h : Safe p) :
    Returns (parseWithOpts ok req m p) fun _ => True := by
  unfold parseWithOpts
  cases m.malloc ok with
  | mk success mem =>
    cases success with
    | false => exact .ret trivial
    | true =>
      refine (skip_returns h.terminated).bind fun p₁ hskip h₁ => ?_
      refine ((reads_returns ok _).1 (h.suffix (skip_moves hskip) h₁) le_rfl).bind ?_
      rintro ⟨g₁, item, child, r⟩ - hr
      cases r with
      | none => exact .ret trivial
      | some stop =>
        refine .ite (fun _ => ?_) fun _ => .ret trivial
        refine (skip_returns (hr stop rfl)).bind fun stop' _ h' => ?_
        exact (deref_returns h').bind fun c _ _ =>
          .ite (fun _ => .ret trivial) fun _ => .ret trivial

end Values

section Plain
variable {p s : Ptr}

lemma wellEscaped_plain (h : 0x5c ∉ s) : WellEscaped (s ++ [0]) := by
  induction s with
  | nil => exact .stop (Or.inr rfl)
  | cons c s ih =>
    obtain ⟨hb, hs⟩ := not_or.mp (List.mem_cons.not.mp h)
    by_cases hc : c = 0x22 ∨ c = 0
    · exact .stop hc
    · obtain ⟨hq, h0⟩ := not_or.mp hc
      exact .raw hq h0 (Ne.symm hb) (ih hs)

/-- A terminated text without escapes. -/
lemma safe_plain (h : 0x5c ∉ s) : Safe (s ++ [0]) := by
  refine ⟨List.mem_append_right s (List.mem_singleton_self 0), fun q hq => ?_⟩
  obtain ⟨⟨⟩⟩ | ⟨t, ht, hsuffix⟩ := List.suffix_concat_iff.mp hq
  cases t with
  | nil => simp at ht
  | cons c t =>
    obtain ⟨-, rfl⟩ := List.cons.inj ht
    exact wellEscaped_plain fun hmem => h (hsuffix.mem (List.mem_cons_of_mem c hmem))

end Plain

section Overflow
variable {ok : ℕ → Bool} {p s t : Ptr}

/-- Bytes that stand for themselves in a string. -/
def Ordinary (s : Ptr) : Prop := ∀ c ∈ s, c ≠ 0 ∧ c ≠ 0x22 ∧ c ≠ 0x5c

instance (s : Ptr) : Decidable (Ordinary s) := inferInstanceAs (Decidable (∀ c ∈ s, _))

lemma scanLen_ordinary (hs : Ordinary s) {n : ℕ} (hp : scanLen p = .ret n) :
    scanLen (s ++ p) = .ret (n + s.length) := by
  induction s with
  | nil => exact hp
  | cons c s ih =>
    obtain ⟨⟨h0, hq, hb⟩, hs⟩ := List.forall_mem_cons.mp hs
    exact scanLen_raw h0 hq hb (ih hs)

/-- Ordinary bytes are stored as long as the block has room. -/
lemma decodeLoop_ordinary (hs : Ordinary s) {size : ℕ} (fuel : ℕ) {out : List UInt8}
    (hout : out.length ≤ size) :
    decodeLoop size (fuel + s.length) out (s ++ p) =
      if out.length + s.length ≤ size then decodeLoop size fuel (out ++ s) p else .fault := by
  induction s generalizing out with
  | nil => simp [hout]
  | cons c s ih =>
    obtain ⟨⟨h0, hq, hb⟩, hs⟩ := List.forall_mem_cons.mp hs
    rw [List.length_cons, ← Nat.add_assoc, List.cons_append, decodeLoop, deref, Outcome.ret_bind,
      if_neg (not_or.mpr ⟨hq, h0⟩), if_pos hb, List.tail_cons]
    by_cases hroom : out.length + 1 ≤ size
    · have hstore : store size out [c] = .ret (out ++ [c]) := store_ret hroom
      have hlen : (out ++ [c]).length = out.length + 1 := List.length_append
      rw [hstore, Outcome.ret_bind, ih hs (by omega), hlen, List.append_assoc,
        List.singleton_append, Nat.add_assoc, Nat.add_comm 1]
    · have hstore : store size out [c] = .fault := if_neg hroom
      rw [hstore, Outcome.fault_bind, if_neg (by omega)]

/-- The escape of a quote is taken for one of four digits, and the string goes on behind it. -/
lemma decodeLoop_cutEscape (size fuel : ℕ) {out : List UInt8} (hout : out.length ≤ size)
    (a b c : UInt8) :
    decodeLoop size (fuel + 1) out (0x5c :: 0x75 :: 0x22 :: a :: b :: c :: p) =
      decodeLoop size fuel out p := by
  have hesc : unicodeEscape (0x75 :: 0x22 :: a :: b :: c :: p) = .ret ([], c :: p) := rfl
  have hstore : store size out [] = .ret out := by
    rw [store_ret (by simpa using hout), List.append_nil]
  simp [decodeLoop, deref, hesc, hstore]

lemma parseString_cutEscape (hok : Plenty ok) (g : Globals) (item : Fields) (ht : Ordinary t)
    (hs : Ordinary s) (a b c : UInt8) (rest : Ptr) :
    parseString ok g item
        (0x22 :: (t ++ 0x5c :: 0x75 :: 0x22 :: a :: b :: c :: (s ++ 0x22 :: rest))) = .fault ↔
      1 < s.length := by
  have hscan : scanLen (t ++ 0x5c :: 0x75 :: 0x22 :: a :: b :: c :: (s ++ 0x22 :: rest)) =
      .ret (1 + t.length) := by
    refine scanLen_ordinary ht (scanLen_escape 0x75 ?_)
    rw [scanLen.eq_def]
    rfl
  have hdecode : ∃ fuel, decodeLoop (1 + t.length + 1)
      (0x22 :: (t ++ 0x5c :: 0x75 :: 0x22 :: a :: b :: c :: (s ++ 0x22 :: rest))).length []
      (t ++ 0x5c :: 0x75 :: 0x22 :: a :: b :: c :: (s ++ 0x22 :: rest)) =
        if t.length + s.length ≤ 1 + t.length + 1 then
          decodeLoop (1 + t.length + 1) (fuel + 1) (t ++ s) (0x22 :: rest)
        else .fault := by
    refine ⟨rest.length + 6, ?_⟩
    have hfuel : (0x22 :: (t ++ 0x5c :: 0x75 :: 0x22 :: a :: b :: c :: (s ++ 0x22 :: rest))).length
        = rest.length + 6 + 1 + s.length + 1 + t.length := by
      simp only [List.length_cons, List.length_append]
      omega
    rw [hfuel, decodeLoop_ordinary ht _ (Nat.zero_le _),
      if_pos (by simp only [List.length_nil]; omega), List.nil_append,
      decodeLoop_cutEscape _ _ (by omega), decodeLoop_ordinary hs _ (by omega)]
  obtain ⟨fuel, hdecode⟩ := hdecode
  rw [parseString, deref, Outcome.ret_bind, if_neg (not_not.mpr rfl), List.tail_cons, hscan,
    Outcome.ret_bind, malloc_plenty hok, hdecode]
  dsimp only
  by_cases hroom : t.length + s.length ≤ 1 + t.length + 1
  · rw [if_pos hroom]
    have hstop : decodeLoop (1 + t.length + 1) (fuel + 1) (t ++ s) (0x22 :: rest) =
        .ret (t ++ s, 0x22 :: rest) := rfl
    rw [hstop, Outcome.ret_bind]
    by_cases hend : s.length ≤ 1
    · have hstore : store (1 + t.length + 1) (t ++ s) [0] = .ret (t ++ s ++ [0]) :=
        store_ret (by simp only [List.length_append, List.length_singleton]; omega)
      simp [hstore, deref, hend]
    · have hstore : store (1 + t.length + 1) (t ++ s) [0] = .fault :=
        if_neg (by simp only [List.length_append, List.length_singleton]; omega)
      simp [hstore, not_le.mp hend]
  · rw [if_neg hroom, Outcome.fault_bind]
    exact ⟨fun _ => by omega, fun _ => rfl⟩

end Overflow

section Documents
variable {ok : ℕ → Bool}

/-- Every text of a JSON value is read to exactly that value, whatever stands behind it, and the
blocks taken are the ones `cJSON_Delete` gives back. -/
theorem parse_document (hok : Plenty ok) {v : Json .value} {w t : List UInt8} (hw : Ws w)
    (h : Text v t) {rest : Ptr} (hends : Ends v rest) (m : Alloc) :
    ∃ mem, parse ok m (w ++ (t ++ rest)) =
        .ret (⟨none, mem⟩, some (fieldsOf v newItem, itemsOf v, rest)) ∧
      Balanced m (delete (.cons (fieldsOf v newItem) (itemsOf v) .nil) mem) := by
  obtain ⟨mem, hparse⟩ := parse_text hok hw h hends m
  exact ⟨mem, hparse, ((parseWithOpts_parsed hparse).tree _ _ _ rfl).1⟩

/-- An array of one `null`, without a terminator behind it. -/
theorem parse_document_nulls : ∃ mem, parse (fun _ => true) ⟨0, 0, 0⟩ [0x20, 0x5b, 0x6e, 0x75, 0x6c,
      0x6c, 0x5d] = .ret (⟨none, mem⟩, some (⟨.array, none, 0, 0, none⟩,
        .cons ⟨.isNull, none, 0, 0, none⟩ .nil .nil, [])) ∧
      Balanced ⟨0, 0, 0⟩ (delete (.cons ⟨.array, none, 0, 0, none⟩
        (.cons ⟨.isNull, none, 0, 0, none⟩ .nil .nil) .nil) mem) := by
  have hws : Ws [] := fun _ h => absurd h List.not_mem_nil
  have htext : Text (.array (.elem .null .noElems)) [0x5b, 0x6e, 0x75, 0x6c, 0x6c, 0x5d] :=
    .array (.lastElem hws .null hws)
  have hblank : Ws [0x20] := fun c h => Or.inl (List.mem_singleton.mp h)
  have hends : Ends (.array (.elem .null .noElems)) [] := trivial
  exact parse_document (fun _ => rfl) hblank htext hends ⟨0, 0, 0⟩

/-- On a terminated text with complete escapes the reader returns, whichever allocations fail,
and without such a failure the error pointer stands in the text when there is no tree. -/
theorem parseWithOpts_located {p : Ptr} (h : Safe p) (ok : ℕ → Bool) (req : Bool) (m : Alloc) :
    ∃ g res, parseWithOpts ok req m p = .ret (g, res) ∧
      (Plenty ok → res = none → ∃ q, g.ep = some q ∧ q <:+ p) := by
  obtain ⟨⟨g, res⟩, hparse, -⟩ := @parseWithOpts_returns ok p m req h
  exact ⟨g, res, hparse, (parseWithOpts_parsed hparse).located⟩

/-- An array whose bracket is not closed. -/
theorem parseWithOpts_located_open : ∃ g res, parseWithOpts (fun _ => true) false ⟨0, 0, 0⟩
      [0x5b, 0x31, 0] = .ret (g, res) ∧
      (Plenty (fun _ => true) → res = none → ∃ q, g.ep = some q ∧ q <:+ [0x5b, 0x31, 0]) :=
  parseWithOpts_located (safe_plain (s := [0x5b, 0x31]) (by decide)) (fun _ => true) false ⟨0, 0, 0⟩

/-- No text and no allocator makes the reader lose a block: a failed call has given back all it
took, and deleting the tree of another gives back all it took. -/
theorem parseWithOpts_keepsNone (ok : ℕ → Bool) (req : Bool) (m : Alloc) (p : Ptr) (g : Globals)
    (res : Option (Fields × Items × Ptr)) (h : parseWithOpts ok req m p = .ret (g, res)) :
    Balanced m (match res with
      | none => g.mem
      | some (item, child, _) => delete (.cons item child .nil) g.mem) := by
  have hparsed := parseWithOpts_parsed h
  cases res with
  | none => exact hparsed.failed rfl
  | some tree =>
    obtain ⟨item, child, stop⟩ := tree
    exact (hparsed.tree item child stop rfl).1

/-- The second of three allocations fails. -/
theorem parseWithOpts_keepsNone_failing :
    Balanced ⟨0, 0, 0⟩ (⟨none, ⟨2, 1, 1⟩⟩ : Globals).mem :=
  parseWithOpts_keepsNone (fun n => n != 1) false ⟨0, 0, 0⟩ [0x5b, 0x6e, 0x75, 0x6c, 0x6c, 0x5d]
    ⟨none, ⟨2, 1, 1⟩⟩ none rfl

/-- Whatever text is accepted, the tree is the one of a JSON value and the pointer behind it
stands in the text. -/
theorem parseWithOpts_isJson (ok : ℕ → Bool) (req : Bool) (m : Alloc) (p : Ptr) (g : Globals)
    (item : Fields) (child : Items) (stop : Ptr)
    (h : parseWithOpts ok req m p = .ret (g, some (item, child, stop))) :
    (∃ v : Json .value, item = fieldsOf v newItem ∧ child = itemsOf v) ∧ g.ep = none ∧
      stop <:+ p := by
  obtain ⟨-, hep, hstop, hvalue⟩ := (parseWithOpts_parsed h).tree item child stop rfl
  exact ⟨hvalue, hep, hstop⟩

def decimalOne : Decimal := ⟨false, [0x31], 0, 0, by simp [Json.IsDigit], by simp⟩

/-- A text that is no JSON is accepted as the number 1. -/
theorem parseWithOpts_isJson_zeros : (∃ v : Json .value,
      numberItem decimalOne newItem = fieldsOf v newItem ∧ Items.nil = itemsOf v) ∧
      (⟨none, ⟨1, 1, 0⟩⟩ : Globals).ep = none ∧ ([0x78, 0] : Ptr) <:+ [0x30, 0x31, 0x78, 0] :=
  parseWithOpts_isJson (fun _ => true) false ⟨0, 0, 0⟩ [0x30, 0x31, 0x78, 0]
    ⟨none, ⟨1, 1, 0⟩⟩ (numberItem decimalOne newItem) .nil [0x78, 0] rfl

/-- An escape cut short by the closing quote makes the second pass run over that quote. The block
has room for one byte and the terminator of what stands behind. -/
theorem parse_cutEscape (hok : Plenty ok) (m : Alloc) {s t : Ptr} (ht : Ordinary t)
    (hs : Ordinary s) (a b c : UInt8) (rest : Ptr) :
    parse ok m (0x22 :: (t ++ 0x5c :: 0x75 :: 0x22 :: a :: b :: c :: (s ++ 0x22 :: rest))) =
      .fault ↔ 1 < s.length := by
  rw [← parseString_cutEscape hok ⟨none, (m.malloc ok).2⟩ newItem ht hs a b c rest]
  have hskip : ∀ q : Ptr, skip (0x22 :: q) = .ret (0x22 :: q) := fun q => rfl
  simp only [parse, parseWithOpts, malloc_plenty hok, hskip, Outcome.ret_bind, fuelFor]
  rw [parseValue_noWord (by decide) (by decide) (by decide), if_pos rfl]
  generalize parseString ok _ newItem _ = x
  cases x with
  | ret r =>
    obtain ⟨g, item, stop⟩ := r
    cases stop <;> simp
  | exit msg => simp
  | fault => simp
  | timeout => simp

/-- Two bytes behind the three that are taken for digits. -/
theorem parse_cutEscape_two : parse (fun _ => true) ⟨0, 0, 0⟩ (0x22 :: ([0x61] ++ 0x5c :: 0x75 ::
      0x22 :: 0x2c :: 0x20 :: 0x22 :: ([0x61, 0x62] ++ 0x22 :: [0]))) = .fault ↔
      1 < [0x61, 0x62].length :=
  parse_cutEscape (fun _ => rfl) ⟨0, 0, 0⟩ (by decide +kernel) (by decide +kernel) 0x2c 0x20
    0x22 [0]

end Documents
end Twister.CJson
