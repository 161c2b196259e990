import Twister.CJsonRead

/-! What a call of the reader can return, on any text and with any allocator: where the pointer
moves, what the item has become, which blocks it holds and where the error pointer stands. -/
namespace Twister.CJson
open Json

section Moves

lemma skip_moves {p q : Ptr} (h : skip p = .ret q) : q <:+ p := by
  induction p with
  | nil => cases h
  | cons c p ih =>
    rw [skip] at h
    split at h
    · exact (ih h).trans (List.suffix_cons c p)
    · rw [← Outcome.ret.inj h]

lemma digitLoop_cases {α : Type} {f : α → UInt8 → α} {a b : α} {p q : Ptr}
    (h : digitLoop f a p = .ret (b, q)) :
    q <:+ p ∧ ∃ ds : List UInt8, (∀ c ∈ ds, IsDigit c) ∧ b = ds.foldl f a := by
  induction p generalizing a with
  | nil => cases h
  | cons c p ih =>
    rw [digitLoop] at h
    split at h
    · rename_i hc
      obtain ⟨hmoves, ds, hds, rfl⟩ := ih h
      exact ⟨hmoves.trans (List.suffix_cons c p), c :: ds, List.forall_mem_cons.mpr ⟨hc, hds⟩, rfl⟩
    · obtain ⟨rfl, rfl⟩ := Prod.mk.inj (Outcome.ret.inj h)
      exact ⟨List.suffix_rfl, [], List.forall_mem_nil _, rfl⟩

lemma deref_ret {p : Ptr} {c : UInt8} (h : deref p = .ret c) : ∃ q, p = c :: q := by
  cases p with
  | nil => cases h
  | cons d q => exact ⟨q, by rw [← Outcome.ret.inj h]⟩

lemma parseExpSign_moves {p q : Ptr} {sign : Int32} (h : parseExpSign p = .ret (sign, q)) :
    q <:+ p := by
  obtain ⟨c, -, h⟩ := Outcome.bind_eq_ret.mp h
  split at h
  · rw [← (Prod.mk.inj (Outcome.ret.inj h)).2]
    exact List.tail_suffix p
  · split at h <;> rw [← (Prod.mk.inj (Outcome.ret.inj h)).2]
    exact List.tail_suffix p

lemma parseExponent_moves {p q : Ptr} {e : ℤ} (h : parseExponent p = .ret (e, q)) : q <:+ p := by
  obtain ⟨c, -, h⟩ := Outcome.bind_eq_ret.mp h
  split at h
  · obtain ⟨⟨sign, p₁⟩, hsign, h⟩ := Outcome.bind_eq_ret.mp h
    obtain ⟨⟨subscale, p₂⟩, hloop, h⟩ := Outcome.bind_eq_ret.mp h
    rw [← (Prod.mk.inj (Outcome.ret.inj h)).2]
    exact (digitLoop_cases hloop).1.trans
      ((parseExpSign_moves hsign).trans (List.tail_suffix p))
  · rw [(Prod.mk.inj (Outcome.ret.inj h)).2]

lemma parseFraction_cases {n : Float} {x : Float × Float} {p q : Ptr}
    (h : parseFraction n p = .ret (x, q)) :
    q <:+ p ∧ ∃ ds : List UInt8, (∀ c ∈ ds, IsDigit c) ∧
      x = (ds.foldl addDigit n, scaled ds.length) := by
  obtain ⟨c, hc, h⟩ := Outcome.bind_eq_ret.mp h
  obtain ⟨p, rfl⟩ := deref_ret hc
  split at h
  · obtain ⟨d, -, h⟩ := Outcome.bind_eq_ret.mp h
    split at h
    · obtain ⟨hmoves, ds, hds, rfl⟩ := digitLoop_cases h
      exact ⟨hmoves.trans (List.suffix_cons _ _), ds, hds, foldl_addScaled n ds⟩
    · obtain ⟨rfl, rfl⟩ := Prod.mk.inj (Outcome.ret.inj h)
      exact ⟨List.suffix_rfl, [], List.forall_mem_nil _, rfl⟩
  · obtain ⟨rfl, rfl⟩ := Prod.mk.inj (Outcome.ret.inj h)
    exact ⟨List.suffix_rfl, [], List.forall_mem_nil _, rfl⟩

/-- A digit is always consumed. -/
lemma parseIntegral_cases {n : Float} {c : UInt8} {p q : Ptr}
    (h : parseIntegral (c :: p) = .ret (n, q)) :
    (q <:+ c :: p ∧ (IsDigit c → q <:+ p)) ∧
      ∃ ds : List UInt8, (∀ c ∈ ds, IsDigit c) ∧ n = ds.foldl addDigit 0.0 := by
  obtain ⟨d, hd, h⟩ := Outcome.bind_eq_ret.mp h
  obtain rfl : c = d := Outcome.ret.inj hd
  by_cases hzero : c = 0x30
  · simp only [if_pos hzero, List.tail_cons] at h
    obtain ⟨d, -, h⟩ := Outcome.bind_eq_ret.mp h
    have hq : q <:+ p ∧
        ∃ ds : List UInt8, (∀ c ∈ ds, IsDigit c) ∧ n = ds.foldl addDigit 0.0 := by
      split at h
      · exact digitLoop_cases h
      · obtain ⟨rfl, rfl⟩ := Prod.mk.inj (Outcome.ret.inj h)
        exact ⟨List.suffix_rfl, [], List.forall_mem_nil _, rfl⟩
    exact ⟨⟨hq.1.trans (List.suffix_cons c p), fun _ => hq.1⟩, hq.2⟩
  · simp only [if_neg hzero] at h
    obtain ⟨d, hd, h⟩ := Outcome.bind_eq_ret.mp h
    obtain rfl : c = d := Outcome.ret.inj hd
    split at h
    · rename_i hrange
      have hdigit : 0x30 ≤ c ∧ c ≤ 0x39 := ⟨UInt8.le_trans (by decide) hrange.1, hrange.2⟩
      rw [digitLoop, if_pos hdigit] at h
      obtain ⟨hmoves, ds, hds, hn⟩ := digitLoop_cases h
      exact ⟨⟨hmoves.trans (List.suffix_cons c p), fun _ => hmoves⟩, c :: ds,
        List.forall_mem_cons.mpr ⟨hdigit, hds⟩, hn⟩
    · rename_i hrange
      obtain ⟨rfl, rfl⟩ := Prod.mk.inj (Outcome.ret.inj h)
      refine ⟨⟨List.suffix_rfl, fun hdigit => absurd ?_ hrange⟩, [], List.forall_mem_nil _, rfl⟩
      refine ⟨UInt8.le_iff_toNat_le.mpr ?_, hdigit.2⟩
      have hlo := UInt8.le_iff_toNat_le.mp hdigit.1
      have hne : c.toNat ≠ 0x30 := fun he => hzero (UInt8.toNat.inj he)
      simp only [UInt8.reduceToNat] at hlo ⊢
      omega

/-- A minus is always consumed. -/
lemma parseSign_cases {c : UInt8} {p q : Ptr} {sign : Float}
    (h : parseSign (c :: p) = .ret (sign, q)) :
    c = 0x2d ∧ q = p ∧ sign = -1.0 ∨ c ≠ 0x2d ∧ q = c :: p ∧ sign = 1.0 := by
  obtain ⟨d, hd, h⟩ := Outcome.bind_eq_ret.mp h
  obtain rfl : c = d := Outcome.ret.inj hd
  split at h
  · rename_i hneg
    obtain ⟨rfl, rfl⟩ := Prod.mk.inj (Outcome.ret.inj h)
    exact Or.inl ⟨hneg, rfl, rfl⟩
  · rename_i hneg
    obtain ⟨rfl, rfl⟩ := Prod.mk.inj (Outcome.ret.inj h)
    exact Or.inr ⟨hneg, rfl, rfl⟩

/-- Whatever is taken for a number is computed as the digits it has would be. -/
lemma parseNumber_cases {item item' : Fields} {c : UInt8} {p q : Ptr}
    (h : parseNumber item (c :: p) = .ret (item', q)) :
    (∃ d, item' = numberItem d item) ∧ (c = 0x2d ∨ IsDigit c → q <:+ p) := by
  obtain ⟨⟨sign, p₀⟩, hsign, h⟩ := Outcome.bind_eq_ret.mp h
  obtain ⟨⟨n, p₁⟩, hint, h⟩ := Outcome.bind_eq_ret.mp h
  obtain ⟨⟨x, p₂⟩, hfrac, h⟩ := Outcome.bind_eq_ret.mp h
  obtain ⟨⟨e, p₃⟩, hexp, h⟩ := Outcome.bind_eq_ret.mp h
  obtain ⟨rfl, rfl⟩ := Prod.mk.inj (Outcome.ret.inj h)
  obtain ⟨hfracMoves, fs, hfs, rfl⟩ := parseFraction_cases hfrac
  have hrest : p₃ <:+ p₁ := (parseExponent_moves hexp).trans hfracMoves
  rcases parseSign_cases hsign with ⟨-, rfl, rfl⟩ | ⟨hneg, rfl, rfl⟩
  · cases p₀ with
    | nil => cases hint
    | cons c' p =>
      obtain ⟨⟨hmoves, -⟩, ds, hds, rfl⟩ := parseIntegral_cases hint
      rw [← List.foldl_append]
      exact ⟨⟨⟨true, ds ++ fs, fs.length, e, List.forall_mem_append.mpr ⟨hds, hfs⟩, by simp⟩, rfl⟩,
        fun _ => hrest.trans hmoves⟩
  · obtain ⟨⟨-, hmoves⟩, ds, hds, rfl⟩ := parseIntegral_cases hint
    rw [← List.foldl_append]
    exact ⟨⟨⟨false, ds ++ fs, fs.length, e, List.forall_mem_append.mpr ⟨hds, hfs⟩, by simp⟩, rfl⟩,
      fun hc => hrest.trans (hmoves (hc.resolve_left hneg))⟩

lemma unicodeEscape_moves {p q : Ptr} {bytes : List UInt8} (h : unicodeEscape p = .ret (bytes, q)) :
    q <:+ p := by
  obtain ⟨uc, -, h⟩ := Outcome.bind_eq_ret.mp h
  have hfour : p.drop 4 <:+ p := List.drop_suffix 4 p
  have hsix : (p.drop 4).drop 6 <:+ p := (List.drop_suffix 6 _).trans hfour
  split at h
  · rwa [← (Prod.mk.inj (Outcome.ret.inj h)).2]
  · split at h
    · obtain ⟨c, -, h⟩ := Outcome.bind_eq_ret.mp h
      split at h
      · rwa [← (Prod.mk.inj (Outcome.ret.inj h)).2]
      · obtain ⟨c, -, h⟩ := Outcome.bind_eq_ret.mp h
        split at h
        · rwa [← (Prod.mk.inj (Outcome.ret.inj h)).2]
        · obtain ⟨uc2, -, h⟩ := Outcome.bind_eq_ret.mp h
          split at h <;> rwa [← (Prod.mk.inj (Outcome.ret.inj h)).2]
    · rwa [← (Prod.mk.inj (Outcome.ret.inj h)).2]

lemma decodeLoop_moves {size fuel : ℕ} {out out' : List UInt8} {p q : Ptr}
    (h : decodeLoop size fuel out p = .ret (out', q)) : q <:+ p := by
  induction fuel generalizing out p with
  | zero => cases h
  | succ fuel ih =>
    obtain ⟨c, hc, h⟩ := Outcome.bind_eq_ret.mp h
    have htail : ∀ r : Ptr, r.tail <:+ r := List.tail_suffix
    split at h
    · rw [(Prod.mk.inj (Outcome.ret.inj h)).2]
    · split at h
      · obtain ⟨_, -, h⟩ := Outcome.bind_eq_ret.mp h
        exact (ih h).trans (htail p)
      · obtain ⟨d, -, h⟩ := Outcome.bind_eq_ret.mp h
        split at h
        · obtain ⟨⟨bytes, ptr⟩, hesc, h⟩ := Outcome.bind_eq_ret.mp h
          obtain ⟨_, -, h⟩ := Outcome.bind_eq_ret.mp h
          exact (ih h).trans ((htail ptr).trans ((unicodeEscape_moves hesc).trans (htail p)))
        · obtain ⟨_, -, h⟩ := Outcome.bind_eq_ret.mp h
          exact (ih h).trans ((htail p.tail).trans (htail p))

end Moves

section Blocks

def stringBlocks (item : Fields) : ℕ :=
  (if item.valuestring.isSome then 1 else 0) + if item.string.isSome then 1 else 0

/-- The blocks that items and their strings take. -/
def Items.blocks : Items → ℕ
  | .nil => 0
  | .cons item child next => stringBlocks item + child.blocks + next.blocks + 1

lemma freeString_eq (s : Option CString) (m : Alloc) :
    freeString s m = { m with freed := m.freed + if s.isSome then 1 else 0 } := by
  cases s <;> rfl

/-- Deleting items gives every one of their blocks back. -/
lemma delete_eq (items : Items) (m : Alloc) :
    delete items m = { m with freed := m.freed + items.blocks } := by
  induction items generalizing m with
  | nil => rfl
  | cons item child next ihc ihn =>
    rw [delete, ihn, freeString_eq, freeString_eq, ihc]
    simp only [Alloc.free, Items.blocks, stringBlocks, Alloc.mk.injEq, true_and]
    omega

end Blocks

section Calls
variable {ok : ℕ → Bool} {g g₁ g₂ : Globals} {p q : Ptr} {n n₁ n₂ : ℕ} {r : Option Ptr}

/-- What every call guarantees that took `n` blocks and returned `r`: nothing is freed, the
pointer moves on in its text, and a failure that is not one of memory is located there. -/
structure Call (ok : ℕ → Bool) (g : Globals) (p : Ptr) (g' : Globals) (n : ℕ) (r : Option Ptr) :
    Prop where
  freed : g'.mem.freed = g.mem.freed
  allocated : g'.mem.allocated = g.mem.allocated + n
  moves : ∀ q, r = some q → q <:+ p
  quiet : ∀ q, r = some q → g'.ep = g.ep
  error : Plenty ok → r = none → ∃ q, g'.ep = some q ∧ q <:+ p

namespace Call

lemma refl (ok : ℕ → Bool) (g : Globals) (p : Ptr) : Call ok g p g 0 (some p) where
  freed := rfl
  allocated := rfl
  moves := by
    rintro q ⟨⟩
    exact List.suffix_rfl
  quiet := fun _ _ => rfl
  error := by
    rintro - ⟨⟩

lemma trans (h₁ : Call ok g p g₁ n₁ (some q)) (h₂ : Call ok g₁ q g₂ n₂ r) :
    Call ok g p g₂ (n₁ + n₂) r where
  freed := h₂.freed.trans h₁.freed
  allocated := by rw [h₂.allocated, h₁.allocated, Nat.add_assoc]
  moves := fun s hs => (h₂.moves s hs).trans (h₁.moves q rfl)
  quiet := fun s hs => (h₂.quiet s hs).trans (h₁.quiet q rfl)
  error := by
    intro hok hr
    obtain ⟨s, hep, hs⟩ := h₂.error hok hr
    exact ⟨s, hep, hs.trans (h₁.moves q rfl)⟩

/-- The pointer is advanced after the call. -/
lemma advance (h : Call ok g p g₁ n (some q)) {s : Ptr} (hs : s <:+ q) :
    Call ok g p g₁ n (some s) where
  freed := h.freed
  allocated := h.allocated
  moves := by
    rintro s' ⟨⟩
    exact hs.trans (h.moves q rfl)
  quiet := fun _ _ => h.quiet q rfl
  error := by
    rintro - ⟨⟩

/-- The text turns out to be malformed after the call. -/
lemma fail (h : Call ok g p g₁ n (some q)) {s : Ptr} (hs : s <:+ q) :
    Call ok g p { g₁ with ep := some s } n none where
  freed := h.freed
  allocated := h.allocated
  moves := by
    rintro s' ⟨⟩
  quiet := by
    rintro s' ⟨⟩
  error := fun _ _ => ⟨s, rfl, hs.trans (h.moves q rfl)⟩

lemma noMemory (hfail : (g.mem.malloc ok).1 = false) :
    Call ok g p { g with mem := (g.mem.malloc ok).2 } 0 none := by
  have hok : ok g.mem.calls = false := by
    unfold Alloc.malloc at hfail
    split at hfail
    · cases hfail
    · rename_i hne
      simpa using hne
  have hmem : g.mem.malloc ok = (false, { g.mem with calls := g.mem.calls + 1 }) := by
    rw [Alloc.malloc, hok]
    rfl
  rw [hmem]
  refine ⟨rfl, rfl, ?_, ?_, fun hplenty _ => ?_⟩
  · rintro q ⟨⟩
  · rintro q ⟨⟩
  · rw [hplenty] at hok
    cases hok

lemma memory (hmem : (g.mem.malloc ok).1 = true) :
    Call ok g p { g with mem := (g.mem.malloc ok).2 } 1 (some p) := by
  have hok : ok g.mem.calls = true := by
    unfold Alloc.malloc at hmem
    split at hmem
    · assumption
    · cases hmem
  have hnew : g.mem.malloc ok =
      (true, { g.mem with calls := g.mem.calls + 1, allocated := g.mem.allocated + 1 }) := by
    rw [Alloc.malloc, hok]
    rfl
  rw [hnew]
  refine ⟨rfl, rfl, ?_, fun _ _ => rfl, ?_⟩
  · rintro q ⟨⟩
    exact List.suffix_rfl
  · rintro - ⟨⟩

end Call

variable {g' : Globals} {item item' : Fields} {child : Items}

/-- A string read into an item that held none. -/
structure StringRead (ok : ℕ → Bool) (g : Globals) (item : Fields) (p : Ptr) (g' : Globals)
    (item' : Fields) (r : Option Ptr) (n : ℕ) : Prop where
  call : Call ok g p g' n r
  held : stringBlocks item' = stringBlocks item + n
  read : ∀ q, r = some q → q <:+ p.tail ∧
    ∃ s : Str, item' = { item with valuestring := some s.1, type := .string }
  failed : r = none → item' = item

lemma takeWhile_noZero (out : List UInt8) : 0 ∉ out.takeWhile (· ≠ 0) := by
  intro hmem
  simpa using List.mem_takeWhile_imp hmem

lemma parseString_read (hitem : item.valuestring = none)
    (h : parseString ok g item p = .ret (g', item', r)) :
    ∃ n, StringRead ok g item p g' item' r n := by
  obtain ⟨c, hc, h⟩ := Outcome.bind_eq_ret.mp h
  obtain ⟨p, rfl⟩ := deref_ret hc
  split at h
  · obtain ⟨rfl, rfl, rfl⟩ := by simpa only [Outcome.ret.injEq, Prod.mk.injEq] using h
    refine ⟨0, (Call.refl ok g _).fail List.suffix_rfl, rfl, ?_, fun _ => rfl⟩
    rintro q ⟨⟩
  obtain ⟨len, -, h⟩ := Outcome.bind_eq_ret.mp h
  cases hmem : g.mem.malloc ok with
  | mk success mem =>
    rw [hmem] at h
    cases success with
    | false =>
      obtain ⟨rfl, rfl, rfl⟩ := by simpa only [Outcome.ret.injEq, Prod.mk.injEq] using h
      have hcall := @Call.noMemory ok g (c :: p) (by rw [hmem])
      rw [hmem] at hcall
      refine ⟨0, hcall, rfl, ?_, fun _ => rfl⟩
      rintro q ⟨⟩
    | true =>
      obtain ⟨⟨out, ptr⟩, hdecode, h⟩ := Outcome.bind_eq_ret.mp h
      obtain ⟨out', -, h⟩ := Outcome.bind_eq_ret.mp h
      obtain ⟨d, -, h⟩ := Outcome.bind_eq_ret.mp h
      obtain ⟨rfl, rfl, rfl⟩ := by simpa only [Outcome.ret.injEq, Prod.mk.injEq] using h
      have hcall := @Call.memory ok g (c :: p) (by rw [hmem])
      rw [hmem] at hcall
      have hptr : (if d = 0x22 then ptr.tail else ptr) <:+ p := by
        refine List.IsSuffix.trans ?_ (decodeLoop_moves hdecode)
        split
        · exact List.tail_suffix ptr
        · exact List.suffix_rfl
      refine ⟨1, hcall.advance (hptr.trans (List.suffix_cons c p)), ?_, ?_, ?_⟩
      · simp [stringBlocks, hitem, Nat.add_comm]
      · rintro q ⟨⟩
        exact ⟨hptr, ⟨_, takeWhile_noZero out'⟩, rfl⟩
      · rintro ⟨⟩

/-- The items a child can have when its value is read. -/
def IsLabel : Bool → Fields → Prop
  | false, item => item = newItem
  | true, item => ∃ s, item = labelItem s

lemma IsLabel.noValue {named : Bool} (h : IsLabel named item) : item.valuestring = none := by
  cases named with
  | false =>
    obtain rfl : item = newItem := h
    rfl
  | true =>
    obtain ⟨s, rfl⟩ := h
    rfl

structure LabelRead (ok : ℕ → Bool) (named : Bool) (g : Globals) (p : Ptr) (g' : Globals)
    (item' : Fields) (r : Option Ptr) : Prop where
  call : Call ok g p g' (stringBlocks item') r
  read : ∀ q, r = some q → IsLabel named item'

lemma parseLabel_read {named : Bool} (h : parseLabel ok named g newItem p = .ret (g', item', r)) :
    LabelRead ok named g p g' item' r := by
  cases named with
  | false =>
    obtain ⟨rfl, rfl, rfl⟩ := by simpa only [parseLabel, Bool.false_eq_true, if_false,
      Outcome.ret.injEq, Prod.mk.injEq] using h
    exact ⟨Call.refl ok g p, fun _ _ => rfl⟩
  | true =>
    obtain ⟨p₁, hskip, h⟩ := Outcome.bind_eq_ret.mp h
    obtain ⟨⟨g₁, item₁, r₁⟩, hstring, h⟩ := Outcome.bind_eq_ret.mp h
    obtain ⟨n, hread⟩ := parseString_read rfl hstring
    have hheld : stringBlocks item₁ = n := by
      rw [hread.held]
      exact Nat.zero_add n
    have hcall : Call ok g p g₁ (stringBlocks item₁) r₁ := by
      have := ((Call.refl ok g p).advance (skip_moves hskip)).trans hread.call
      rwa [hheld, ← Nat.zero_add n]
    cases r₁ with
    | none =>
      obtain ⟨rfl, rfl, rfl⟩ := by simpa only [Outcome.ret.injEq, Prod.mk.injEq] using h
      refine ⟨hcall, ?_⟩
      rintro q ⟨⟩
    | some p₂ =>
      obtain ⟨p₃, hskip₂, h⟩ := Outcome.bind_eq_ret.mp h
      obtain ⟨c, hc, h⟩ := Outcome.bind_eq_ret.mp h
      obtain ⟨-, s, rfl⟩ := hread.read p₂ rfl
      -- the one string moves from the value to the name
      have hlabel : Call ok g p g₁ (stringBlocks (labelItem s)) (some p₃) :=
        hcall.advance (skip_moves hskip₂)
      split at h
      · obtain ⟨rfl, rfl, rfl⟩ := by simpa only [Outcome.ret.injEq, Prod.mk.injEq] using h
        refine ⟨hlabel.fail List.suffix_rfl, ?_⟩
        rintro q ⟨⟩
      · obtain ⟨rfl, rfl, rfl⟩ := by simpa only [Outcome.ret.injEq, Prod.mk.injEq] using h
        exact ⟨hlabel.advance (List.tail_suffix p₃), fun _ _ => ⟨s, rfl⟩⟩

/-- A value read into an item. -/
structure ValueRead (ok : ℕ → Bool) (g : Globals) (item : Fields) (p : Ptr) (g' : Globals)
    (item' : Fields) (child : Items) (r : Option Ptr) (n : ℕ) : Prop where
  call : Call ok g p g' n r
  held : stringBlocks item' + child.blocks = stringBlocks item + n
  read : ∀ q, r = some q → q <:+ p.tail ∧ ∃ v, item' = fieldsOf v item ∧ child = itemsOf v

/-- The items of some elements or of some members. -/
def IsItems : Bool → Items → Prop
  | false, items => ∃ es : Json .elements, items = itemsOf es
  | true, items => ∃ ms : Json .members, items = itemsOf ms

lemma IsItems.nil (named : Bool) : IsItems named .nil := by
  cases named with
  | false => exact ⟨.noElems, rfl⟩
  | true => exact ⟨.noMembers, rfl⟩

lemma IsItems.cons {named : Bool} {next : Items} (hlabel : IsLabel named item)
    (hnext : IsItems named next) (v : Json .value) :
    IsItems named (.cons (fieldsOf v item) (itemsOf v) next) := by
  cases named with
  | false =>
    obtain rfl : item = newItem := hlabel
    obtain ⟨es, rfl⟩ := hnext
    exact ⟨.elem v es, rfl⟩
  | true =>
    obtain ⟨s, rfl⟩ := hlabel
    obtain ⟨ms, rfl⟩ := hnext
    exact ⟨.member s v ms, by rw [fieldsOf_labelItem]; rfl⟩

structure ChildrenRead (ok : ℕ → Bool) (named : Bool) (g : Globals) (p : Ptr) (g' : Globals)
    (items : Items) (r : Option Ptr) : Prop where
  call : Call ok g p g' items.blocks r
  read : ∀ q, r = some q → IsItems named items

lemma parseContainer_read {named : Bool} {type : ItemType} {opening close : UInt8}
    {children : Globals → Ptr → Outcome (Globals × Items × Option Ptr)}
    (hchildren : ∀ {g p g' items r}, children g p = .ret (g', items, r) →
      ChildrenRead ok named g p g' items r)
    (hvalue : ∀ {items}, IsItems named items →
      ∃ v, { item with type } = fieldsOf v item ∧ items = itemsOf v)
    (h : parseContainer type opening close children g item p = .ret (g', item', child, r)) :
    ∃ n, ValueRead ok g item p g' item' child r n := by
  obtain ⟨c, hc, h⟩ := Outcome.bind_eq_ret.mp h
  obtain ⟨p, rfl⟩ := deref_ret hc
  split at h
  · obtain ⟨rfl, rfl, rfl, rfl⟩ := by simpa only [Outcome.ret.injEq, Prod.mk.injEq] using h
    refine ⟨0, (Call.refl ok g _).fail List.suffix_rfl, rfl, ?_⟩
    rintro q ⟨⟩
  obtain ⟨p₁, hskip, h⟩ := Outcome.bind_eq_ret.mp h
  obtain ⟨d, hd, h⟩ := Outcome.bind_eq_ret.mp h
  have hopen : Call ok g (c :: p) g 0 (some p₁) :=
    (Call.refl ok g _).advance ((skip_moves hskip).trans (List.tail_suffix _))
  split at h
  · obtain ⟨rfl, rfl, rfl, rfl⟩ := by simpa only [Outcome.ret.injEq, Prod.mk.injEq] using h
    refine ⟨0, hopen.advance (List.tail_suffix p₁), rfl, ?_⟩
    rintro q ⟨⟩
    exact ⟨(List.tail_suffix p₁).trans (skip_moves hskip), hvalue (IsItems.nil named)⟩
  obtain ⟨⟨g₁, items, r₁⟩, hloop, h⟩ := Outcome.bind_eq_ret.mp h
  have hread := hchildren hloop
  have hcall : Call ok g (c :: p) g₁ items.blocks r₁ := by
    rw [← Nat.zero_add items.blocks]
    exact hopen.trans hread.call
  cases r₁ with
  | none =>
    obtain ⟨rfl, rfl, rfl, rfl⟩ := by simpa only [Outcome.ret.injEq, Prod.mk.injEq] using h
    refine ⟨_, hcall, rfl, ?_⟩
    rintro q ⟨⟩
  | some p₂ =>
    obtain ⟨e, he, h⟩ := Outcome.bind_eq_ret.mp h
    split at h
    · obtain ⟨rfl, rfl, rfl, rfl⟩ := by simpa only [Outcome.ret.injEq, Prod.mk.injEq] using h
      refine ⟨_, hcall.advance (List.tail_suffix p₂), rfl, ?_⟩
      rintro q ⟨⟩
      exact ⟨(List.tail_suffix p₂).trans ((hread.call.moves p₂ rfl).trans (skip_moves hskip)),
        hvalue (hread.read p₂ rfl)⟩
    · obtain ⟨rfl, rfl, rfl, rfl⟩ := by simpa only [Outcome.ret.injEq, Prod.mk.injEq] using h
      refine ⟨_, hcall.fail List.suffix_rfl, rfl, ?_⟩
      rintro q ⟨⟩

lemma startsWith_cons {l : UInt8} {literal : List UInt8} {b : Bool}
    (h : startsWith (l :: literal) p = .ret b) : ∃ c q, p = c :: q := by
  cases p with
  | nil => cases h
  | cons c q => exact ⟨c, q, rfl⟩

/-- A word that stands for a value. -/
lemma wordRead {k : ℕ} {c : UInt8} (v : Json .value) (hv : stringBlocks (fieldsOf v item) =
    stringBlocks item) (hchild : itemsOf v = .nil) :
    ValueRead ok g item (c :: p) g (fieldsOf v item) .nil (some ((c :: p).drop (k + 1))) 0 where
  call := (Call.refl ok g _).advance (List.drop_suffix _ _)
  held := by rw [hv]; rfl
  read := by
    rintro q ⟨⟩
    rw [List.drop_succ_cons]
    exact ⟨List.drop_suffix k p, v, rfl, hchild.symm⟩

end Calls

section Runs
variable {ok : ℕ → Bool}

/-- One turn of the loop over children, from what its value and the turns behind it do. -/
lemma parseChildren_read {named : Bool} {fuel : ℕ} {g g' : Globals} {p : Ptr} {items : Items}
    {r : Option Ptr}
    (hvalue : ∀ {g item p g' item' child r}, item.valuestring = none →
      parseValue ok fuel g item p = .ret (g', item', child, r) →
        ∃ n, ValueRead ok g item p g' item' child r n)
    (hnext : ∀ {g p g' items r}, parseChildren ok named fuel g p = .ret (g', items, r) →
      ChildrenRead ok named g p g' items r)
    (h : parseChildren ok named (fuel + 1) g p = .ret (g', items, r)) :
    ChildrenRead ok named g p g' items r := by
  rw [parseChildren] at h
  cases hmem : g.mem.malloc ok with
  | mk success mem =>
    rw [hmem] at h
    cases success with
    | false =>
      obtain ⟨rfl, rfl, rfl⟩ := by simpa only [Outcome.ret.injEq, Prod.mk.injEq] using h
      have hcall := @Call.noMemory ok g p (by rw [hmem])
      rw [hmem] at hcall
      refine ⟨hcall, ?_⟩
      rintro q ⟨⟩
    | true =>
      have hnew := @Call.memory ok g p (by rw [hmem])
      rw [hmem] at hnew
      obtain ⟨⟨g₁, item₁, r₁⟩, hlabel, h⟩ := Outcome.bind_eq_ret.mp h
      have hread := parseLabel_read hlabel
      have hcall₁ := hnew.trans hread.call
      cases r₁ with
      | none =>
        obtain ⟨rfl, rfl, rfl⟩ := by simpa only [Outcome.ret.injEq, Prod.mk.injEq] using h
        refine ⟨?_, ?_⟩
        · rwa [Items.blocks, Items.blocks, Nat.add_zero, Nat.add_zero, Nat.add_comm]
        · rintro q ⟨⟩
      | some p₁ =>
        obtain ⟨p₂, hskip, h⟩ := Outcome.bind_eq_ret.mp h
        obtain ⟨⟨g₂, item₂, child, r₂⟩, hval, h⟩ := Outcome.bind_eq_ret.mp h
        obtain ⟨n, hv⟩ := hvalue (hread.read p₁ rfl).noValue hval
        have hcall₂ := (hcall₁.advance (skip_moves hskip)).trans hv.call
        have hblocks : 1 + stringBlocks item₁ + n = stringBlocks item₂ + child.blocks + 1 := by
          have := hv.held
          omega
        rw [hblocks] at hcall₂
        cases r₂ with
        | none =>
          obtain ⟨rfl, rfl, rfl⟩ := by simpa only [Outcome.ret.injEq, Prod.mk.injEq] using h
          refine ⟨hcall₂, ?_⟩
          rintro q ⟨⟩
        | some p₃ =>
          obtain ⟨-, v, rfl, rfl⟩ := hv.read p₃ rfl
          obtain ⟨p₄, hskip₄, h⟩ := Outcome.bind_eq_ret.mp h
          obtain ⟨c, hc, h⟩ := Outcome.bind_eq_ret.mp h
          have hcall₄ := hcall₂.advance (skip_moves hskip₄)
          have hitem : IsLabel named item₁ := hread.read p₁ rfl
          split at h
          · obtain ⟨⟨g₅, next, r₅⟩, hmore, h⟩ := Outcome.bind_eq_ret.mp h
            obtain ⟨rfl, rfl, rfl⟩ := by simpa only [Outcome.ret.injEq, Prod.mk.injEq] using h
            have hrest := hnext hmore
            refine ⟨?_, fun q hq => (hrest.read q hq).cons hitem v⟩
            have hcall₅ := (hcall₄.advance (List.tail_suffix p₄)).trans hrest.call
            rw [Items.blocks]
            convert hcall₅ using 1
            omega
          · obtain ⟨rfl, rfl, rfl⟩ := by simpa only [Outcome.ret.injEq, Prod.mk.injEq] using h
            exact ⟨hcall₄, fun _ _ => (IsItems.nil named).cons hitem v⟩

/-- A value, from what the loops over children do. -/
lemma parseValue_read {fuel : ℕ} {g g' : Globals} {item item' : Fields} {p : Ptr} {child : Items}
    {r : Option Ptr} (hitem : item.valuestring = none)
    (hchildren : ∀ {named g p g' items r}, parseChildren ok named fuel g p = .ret (g', items, r) →
      ChildrenRead ok named g p g' items r)
    (h : parseValue ok (fuel + 1) g item p = .ret (g', item', child, r)) :
    ∃ n, ValueRead ok g item p g' item' child r n := by
  rw [parseValue] at h
  obtain ⟨isNull, hnull, h⟩ := Outcome.bind_eq_ret.mp h
  obtain ⟨c, p, rfl⟩ := startsWith_cons hnull
  split at h
  · obtain ⟨rfl, rfl, rfl, rfl⟩ := by simpa only [Outcome.ret.injEq, Prod.mk.injEq] using h
    exact ⟨0, wordRead .null rfl rfl⟩
  obtain ⟨isFalse, -, h⟩ := Outcome.bind_eq_ret.mp h
  split at h
  · obtain ⟨rfl, rfl, rfl, rfl⟩ := by simpa only [Outcome.ret.injEq, Prod.mk.injEq] using h
    exact ⟨0, wordRead (.bool false) rfl rfl⟩
  obtain ⟨isTrue, -, h⟩ := Outcome.bind_eq_ret.mp h
  split at h
  · obtain ⟨rfl, rfl, rfl, rfl⟩ := by simpa only [Outcome.ret.injEq, Prod.mk.injEq] using h
    exact ⟨0, wordRead (.bool true) rfl rfl⟩
  obtain ⟨d, hd, h⟩ := Outcome.bind_eq_ret.mp h
  obtain rfl : c = d := Outcome.ret.inj hd
  split at h
  · obtain ⟨⟨g₁, item₁, r₁⟩, hstring, h⟩ := Outcome.bind_eq_ret.mp h
    obtain ⟨rfl, rfl, rfl, rfl⟩ := by simpa only [Outcome.ret.injEq, Prod.mk.injEq] using h
    obtain ⟨n, hread⟩ := parseString_read hitem hstring
    refine ⟨n, hread.call, hread.held, fun q hq => ?_⟩
    obtain ⟨hmoves, s, rfl⟩ := hread.read q hq
    exact ⟨hmoves, .str s, rfl, rfl⟩
  split at h
  · rename_i hc
    obtain ⟨⟨item₁, p₁⟩, hnumber, h⟩ := Outcome.bind_eq_ret.mp h
    obtain ⟨rfl, rfl, rfl, rfl⟩ := by simpa only [Outcome.ret.injEq, Prod.mk.injEq] using h
    obtain ⟨⟨d, rfl⟩, hmoves⟩ := parseNumber_cases hnumber
    refine ⟨0, (Call.refl ok g _).advance ((hmoves hc).trans (List.suffix_cons c p)), rfl, ?_⟩
    rintro q ⟨⟩
    exact ⟨hmoves hc, .num d, rfl, rfl⟩
  split at h
  · have hvalue : ∀ {items}, IsItems false items →
        ∃ v, { item with type := .array } = fieldsOf v item ∧ items = itemsOf v := by
      rintro items ⟨es, rfl⟩
      exact ⟨.array es, rfl, rfl⟩
    exact parseContainer_read (fun hrun => hchildren hrun) hvalue h
  split at h
  · have hvalue : ∀ {items}, IsItems true items →
        ∃ v, { item with type := .object } = fieldsOf v item ∧ items = itemsOf v := by
      rintro items ⟨ms, rfl⟩
      exact ⟨.object ms, rfl, rfl⟩
    exact parseContainer_read (fun hrun => hchildren hrun) hvalue h
  · obtain ⟨rfl, rfl, rfl, rfl⟩ := by simpa only [Outcome.ret.injEq, Prod.mk.injEq] using h
    refine ⟨0, (Call.refl ok g _).fail List.suffix_rfl, rfl, ?_⟩
    rintro q ⟨⟩

/-- By induction on the fuel, for a value and for children at once. -/
theorem parse_read (ok : ℕ → Bool) (fuel : ℕ) :
    (∀ {g item p g' item' child r}, item.valuestring = none →
      parseValue ok fuel g item p = .ret (g', item', child, r) →
        ∃ n, ValueRead ok g item p g' item' child r n) ∧
    (∀ {named g p g' items r}, parseChildren ok named fuel g p = .ret (g', items, r) →
      ChildrenRead ok named g p g' items r) := by
  induction fuel with
  | zero =>
    refine ⟨fun _ h => ?_, fun h => ?_⟩
    · rw [parseValue] at h
      cases h
    · rw [parseChildren] at h
      cases h
  | succ fuel ih =>
    obtain ⟨ihv, ihc⟩ := ih
    exact ⟨fun hitem h => parseValue_read hitem ihc h, fun h => parseChildren_read ihv ihc h⟩

/-- Every block taken between two states of the allocator has been given back. -/
def Balanced (m m' : Alloc) : Prop := m'.allocated + m.freed = m.allocated + m'.freed

/-- What a returning call of `cJSON_ParseWithOpts` leaves. -/
structure Parsed (ok : ℕ → Bool) (m : Alloc) (p : Ptr) (g : Globals)
    (res : Option (Fields × Items × Ptr)) : Prop where
  failed : res = none → Balanced m g.mem
  located : Plenty ok → res = none → ∃ q, g.ep = some q ∧ q <:+ p
  tree : ∀ item child stop, res = some (item, child, stop) →
    Balanced m (delete (.cons item child .nil) g.mem) ∧ g.ep = none ∧ stop <:+ p ∧
      ∃ v, item = fieldsOf v newItem ∧ child = itemsOf v

lemma balanced_delete {m : Alloc} {g : Globals} {item : Fields} {child : Items} {n : ℕ}
    (hfreed : g.mem.freed = m.freed) (halloc : g.mem.allocated = m.allocated + n)
    (hn : n = (Items.cons item child .nil).blocks) :
    Balanced m (delete (.cons item child .nil) g.mem) := by
  rw [delete_eq, Balanced, ← hn]
  dsimp only
  omega

lemma parseWithOpts_parsed {req : Bool} {m : Alloc} {p : Ptr} {g : Globals}
    {res : Option (Fields × Items × Ptr)} (h : parseWithOpts ok req m p = .ret (g, res)) :
    Parsed ok m p g res := by
  unfold parseWithOpts at h
  cases hmem : m.malloc ok with
  | mk success mem =>
    rw [hmem] at h
    cases success with
    | false =>
      obtain ⟨rfl, rfl⟩ := by simpa only [Outcome.ret.injEq, Prod.mk.injEq] using h
      have hcall := @Call.noMemory ok ⟨none, m⟩ p (by rw [hmem])
      rw [hmem] at hcall
      refine ⟨fun _ => ?_, fun hok _ => hcall.error hok rfl, ?_⟩
      · have hfreed := hcall.freed
        have halloc := hcall.allocated
        unfold Balanced
        dsimp only at hfreed halloc ⊢
        omega
      · rintro item child stop ⟨⟩
    | true =>
      have hnew := @Call.memory ok ⟨none, m⟩ p (by rw [hmem])
      rw [hmem] at hnew
      obtain ⟨p₁, hskip, h⟩ := Outcome.bind_eq_ret.mp h
      obtain ⟨⟨g₁, item, child, stop⟩, hvalue, h⟩ := Outcome.bind_eq_ret.mp h
      obtain ⟨n, hread⟩ := (parse_read ok (fuelFor p₁)).1 rfl hvalue
      have hcall := (hnew.advance (skip_moves hskip)).trans hread.call
      have hblocks : 1 + n = (Items.cons item child .nil).blocks := by
        have hheld := hread.held
        have hzero : stringBlocks newItem = 0 := rfl
        simp only [Items.blocks]
        omega
      have hbalanced : Balanced m (delete (.cons item child .nil) g₁.mem) :=
        balanced_delete hcall.freed hcall.allocated hblocks
      cases stop with
      | none =>
        obtain ⟨rfl, rfl⟩ := by simpa only [Outcome.ret.injEq, Prod.mk.injEq] using h
        refine ⟨fun _ => hbalanced, fun hok _ => hcall.error hok rfl, ?_⟩
        rintro item child stop ⟨⟩
      | some stop =>
        have hsome : ∀ stop' : Ptr, stop' <:+ stop →
            Parsed ok m p g₁ (some (item, child, stop')) := by
          intro stop' hstop
          refine ⟨?_, ?_, ?_⟩
          · rintro ⟨⟩
          · rintro - ⟨⟩
          · rintro item' child' stop'' ⟨⟩
            exact ⟨hbalanced, hcall.quiet stop rfl, hstop.trans (hcall.moves stop rfl),
              (hread.read stop rfl).2⟩
        cases req with
        | false =>
          obtain ⟨rfl, rfl⟩ := by simpa only [Bool.false_eq_true, if_false, Outcome.ret.injEq,
            Prod.mk.injEq] using h
          exact hsome stop List.suffix_rfl
        | true =>
          obtain ⟨stop', hskip', h⟩ := Outcome.bind_eq_ret.mp h
          obtain ⟨c, hc, h⟩ := Outcome.bind_eq_ret.mp h
          have hmoves := skip_moves hskip'
          split at h
          · obtain ⟨rfl, rfl⟩ := by simpa only [Outcome.ret.injEq, Prod.mk.injEq] using h
            refine ⟨fun _ => hbalanced, fun _ _ => ⟨stop', rfl, ?_⟩, ?_⟩
            · exact hmoves.trans (hcall.moves stop rfl)
            · rintro item child stop ⟨⟩
          · obtain ⟨rfl, rfl⟩ := by simpa only [Outcome.ret.injEq, Prod.mk.injEq] using h
            exact hsome stop' hmoves

end Runs

end Twister.CJson
