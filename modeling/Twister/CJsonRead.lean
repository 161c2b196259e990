import Twister.CJsonScan

/-! The reader is complete for JSON: every text of a value is read to the items of that value,
and no byte behind an array, an object or a string is looked at. -/
namespace Twister.CJson
open Json

section Representation

/-- What reading a value leaves in an item. -/
def fieldsOf : Json .value → Fields → Fields
  | .null, item => { item with type := .isNull }
  | .bool false, item => { item with type := .isFalse }
  | .bool true, item => { item with type := .isTrue, valueint := 1 }
  | .num d, item => numberItem d item
  | .str s, item => { item with valuestring := some s, type := .string }
  | .array _, item => { item with type := .array }
  | .object _, item => { item with type := .object }

def namedItem (name : Str) : Fields := { newItem with string := some name.1 }

/-- The list of the elements or members. That of a value is its `child`. -/
def itemsOf : {k : Shape} → Json k → Items
  | _, .null => .nil
  | _, .bool _ => .nil
  | _, .num _ => .nil
  | _, .str _ => .nil
  | _, .array es => itemsOf es
  | _, .object ms => itemsOf ms
  | _, .noElems => .nil
  | _, .elem v es => .cons (fieldsOf v newItem) (itemsOf v) (itemsOf es)
  | _, .noMembers => .nil
  | _, .member name v ms =>
    .cons (fieldsOf v (namedItem name)) (itemsOf v) (itemsOf ms)

/-- An item when its name has been read, which leaves it a string until its value is. -/
def labelItem (name : Str) : Fields := { namedItem name with type := .string }

lemma fieldsOf_labelItem (v : Json .value) (name : Str) :
    fieldsOf v (labelItem name) = fieldsOf v (namedItem name) := by
  cases v with
  | bool b => cases b <;> rfl
  | _ => rfl

end Representation

section Values
variable {ok : ℕ → Bool}

/-- A number is read up to the byte behind it. -/
def Ends : Json .value → Ptr → Prop
  | .num _, rest => Stops rest
  | _, _ => True

lemma startsWith_append (literal : List UInt8) (p : Ptr) :
    startsWith literal (literal ++ p) = .ret true := by
  induction literal with
  | nil => rfl
  | cons l literal ih => simp [startsWith, ih]

lemma startsWith_head {c l : UInt8} (h : c ≠ l) (literal : List UInt8) (p : Ptr) :
    startsWith (l :: literal) (c :: p) = .ret false := if_neg h

/-- A text that begins with no letter is none of the three words. -/
lemma parseValue_noWord {c : UInt8} (hn : c ≠ 0x6e) (hf : c ≠ 0x66) (ht : c ≠ 0x74) (fuel : ℕ)
    (g : Globals) (item : Fields) (p : Ptr) :
    parseValue ok (fuel + 1) g item (c :: p) =
      if c = 0x22 then do
        let (g, item, value) ← parseString ok g item (c :: p)
        .ret (g, item, .nil, value)
      else if c = 0x2d ∨ 0x30 ≤ c ∧ c ≤ 0x39 then do
        let (item, value) ← parseNumber item (c :: p)
        .ret (g, item, .nil, some value)
      else if c = 0x5b then
        parseContainer .array 0x5b 0x5d (fun g value => parseChildren ok false fuel g value) g item
          (c :: p)
      else if c = 0x7b then
        parseContainer .object 0x7b 0x7d (fun g value => parseChildren ok true fuel g value) g item
          (c :: p)
      else .ret ({ g with ep := some (c :: p) }, item, .nil, none) := by
  rw [parseValue, nullText, falseText, trueText, startsWith_head hn, startsWith_head hf,
    startsWith_head ht]
  rfl

/-- The texts of a value that the reader is complete for. -/
def ReadsValue (ok : ℕ → Bool) (v : Json .value) (t : List UInt8) : Prop :=
  ∀ fuel g item rest, 2 * t.length + 1 ≤ fuel → Ends v rest → ∃ mem,
    parseValue ok fuel g item (t ++ rest) =
      .ret ({ g with mem }, fieldsOf v item, itemsOf v, some rest)

lemma readsValue_null : ReadsValue ok .null nullText := by
  intro fuel g item rest hfuel _
  obtain ⟨fuel, rfl⟩ := Nat.exists_eq_add_of_le' (Nat.le_of_add_left_le hfuel)
  refine ⟨g.mem, ?_⟩
  rw [parseValue, startsWith_append]
  rfl

lemma readsValue_bool (b : Bool) : ReadsValue ok (.bool b) (if b then trueText else falseText) := by
  intro fuel g item rest hfuel _
  obtain ⟨fuel, rfl⟩ := Nat.exists_eq_add_of_le' (Nat.le_of_add_left_le hfuel)
  refine ⟨g.mem, ?_⟩
  cases b with
  | false =>
    have hnull : startsWith nullText (falseText ++ rest) = .ret false := rfl
    simp only [Bool.false_eq_true, if_false]
    rw [parseValue, hnull, Outcome.ret_bind, startsWith_append]
    rfl
  | true =>
    have hnull : startsWith nullText (trueText ++ rest) = .ret false := rfl
    have hfalse : startsWith falseText (trueText ++ rest) = .ret false := rfl
    simp only [if_true]
    rw [parseValue, hnull, Outcome.ret_bind, hfalse, startsWith_append]
    rfl

lemma readsValue_num (x : Number) : ReadsValue ok (.num x.value) x.text := by
  intro fuel g item rest hfuel hends
  obtain ⟨fuel, rfl⟩ := Nat.exists_eq_add_of_le' (Nat.le_of_add_left_le hfuel)
  refine ⟨g.mem, ?_⟩
  obtain ⟨c, p, hhead, hc⟩ : ∃ c p, x.text ++ rest = c :: p ∧ (c = 0x2d ∨ IsDigit c) := by
    obtain ⟨c, cs, hint, hc⟩ := int_head x
    unfold Number.text
    rw [hint]
    cases x.neg with
    | true => exact ⟨0x2d, _, rfl, Or.inl rfl⟩
    | false => exact ⟨c, _, rfl, Or.inr hc⟩
  have hplain : c ≠ 0x6e ∧ c ≠ 0x66 ∧ c ≠ 0x74 ∧ c ≠ 0x22 := by
    refine ⟨?_, ?_, ?_, ?_⟩ <;> rintro rfl <;> exact absurd hc (by decide)
  rw [hhead, parseValue_noWord hplain.1 hplain.2.1 hplain.2.2.1, if_neg hplain.2.2.2,
    if_pos (show c = 0x2d ∨ 0x30 ≤ c ∧ c ≤ 0x39 from hc), ← hhead, parseNumber_text x item hends]
  rfl

lemma readsValue_str (hok : Plenty ok) {s : Str} {t : List UInt8} (h : StrBody t s) :
    ReadsValue ok (.str s) (quoted t) := by
  intro fuel g item rest hfuel _
  obtain ⟨fuel, rfl⟩ := Nat.exists_eq_add_of_le' (Nat.le_of_add_left_le hfuel)
  obtain ⟨mem, hstring⟩ := parseString_text hok h g item rest
  refine ⟨mem, ?_⟩
  have hhead : quoted t ++ rest = 0x22 :: (t ++ [0x22] ++ rest) := rfl
  rw [hhead, parseValue_noWord (by decide) (by decide) (by decide), if_pos rfl, ← hhead, hstring]
  rfl

/-- No value begins with a blank or with a closing bracket. -/
lemma text_head {v : Json .value} {t : List UInt8} (h : Text v t) :
    ∃ c p, t = c :: p ∧ 32 < c ∧ c ≠ 0x5d := by
  cases h with
  | null => exact ⟨_, _, rfl, by decide, by decide⟩
  | bool b => cases b <;> exact ⟨_, _, rfl, by decide, by decide⟩
  | num x =>
    obtain ⟨c, cs, hint, hc⟩ := int_head x
    unfold Number.text
    rw [hint]
    cases x.neg with
    | true => exact ⟨0x2d, _, rfl, by decide, by decide⟩
    | false =>
      refine ⟨c, _, rfl, UInt8.lt_of_lt_of_le (by decide) hc.1, ?_⟩
      rintro rfl
      exact absurd hc (by decide)
  | str => exact ⟨_, _, rfl, by decide, by decide⟩
  | array => exact ⟨_, _, rfl, by decide, by decide⟩
  | object => exact ⟨_, _, rfl, by decide, by decide⟩

end Values

section Children
variable {ok : ℕ → Bool}

/-- The first thing the loop does with its text is to skip blanks. -/
lemma parseChildren_ws {w : List UInt8} (hw : Ws w) (named : Bool) (fuel : ℕ) (g : Globals)
    (p : Ptr) : parseChildren ok named fuel g (w ++ p) = parseChildren ok named fuel g p := by
  cases fuel with
  | zero => rfl
  | succ fuel =>
    cases named <;> simp only [parseChildren, parseLabel, parseName, skip_ws hw, Outcome.ret_bind,
      if_true, if_false, Bool.false_eq_true]

/-- What the loop reads in front of a value, and the item it reads it to. -/
def ReadsLabel (ok : ℕ → Bool) (named : Bool) (label : List UInt8) (item : Fields) : Prop :=
  ∀ g p, ∃ mem, parseLabel ok named g newItem (label ++ p) = .ret ({ g with mem }, item, some p)

lemma readsLabel_none : ReadsLabel ok false [] newItem := fun g _ => ⟨g.mem, rfl⟩

lemma readsLabel_name (hok : Plenty ok) {w₁ n w₂ : List UInt8} {name : Str} (hw₁ : Ws w₁)
    (hn : StrBody n name) (hw₂ : Ws w₂) :
    ReadsLabel ok true (label w₁ n w₂) (labelItem name) := by
  intro g p
  obtain ⟨mem, hstring⟩ := parseString_text hok hn g newItem (w₂ ++ 0x3a :: p)
  refine ⟨mem, ?_⟩
  have hskip : skip (label w₁ n w₂ ++ p) = .ret (quoted n ++ (w₂ ++ 0x3a :: p)) := by
    simp only [label, List.append_assoc]
    rw [skip_ws hw₁]
    exact skip_ret (by decide) _
  simp only [parseLabel, parseName, hskip, hstring, Outcome.ret_bind,
    skip_padded hw₂ (show 32 < 0x3a by decide), deref, if_true, ne_eq, not_true_eq_false, if_false,
    List.tail_cons]
  rfl

/-- What stands behind a value inside brackets. -/
lemma stops_behind {w : List UInt8} (hw : Ws w) {c : UInt8} (hc : c = 0x2c ∨ c = 0x5d ∨ c = 0x7d)
    (p : Ptr) : Stops (w ++ c :: p) := by
  cases w with
  | nil =>
    refine ⟨c, p, rfl, ?_⟩
    rcases hc with rfl | rfl | rfl <;> decide
  | cons d w =>
    refine ⟨d, w ++ c :: p, rfl, ?_⟩
    rcases hw d (by simp) with rfl | rfl | rfl | rfl <;> decide

lemma ends_of_stops (v : Json .value) {rest : Ptr} (h : Stops rest) : Ends v rest := by
  cases v <;> first | exact h | trivial

/-- The texts inside brackets that the loop is complete for. -/
def ReadsChildren (ok : ℕ → Bool) (named : Bool) (items : Items) (t : List UInt8) : Prop :=
  ∀ fuel g close rest, 2 * t.length + 2 ≤ fuel → close = 0x5d ∨ close = 0x7d → ∃ mem,
    parseChildren ok named fuel g (t ++ close :: rest) =
      .ret ({ g with mem }, items, some (close :: rest))

section Child
variable {named : Bool} {l w₁ t w₂ : List UInt8} {item : Fields} {v : Json .value}

/-- One turn of the loop reads a child and stops at the byte behind it. -/
lemma parseChildren_child (hok : Plenty ok) (hl : ReadsLabel ok named l item) (hw₁ : Ws w₁)
    (hv : ReadsValue ok v t) (hhead : ∃ c p, t = c :: p ∧ 32 < c ∧ c ≠ 0x5d) (hw₂ : Ws w₂)
    {d : UInt8} (hd : d = 0x2c ∨ d = 0x5d ∨ d = 0x7d) {fuel : ℕ} (hfuel : 2 * t.length + 1 ≤ fuel)
    (g : Globals) (q : Ptr) :
    ∃ mem, parseChildren ok named (fuel + 1) g (l ++ padded w₁ t w₂ ++ d :: q) =
      if d = 0x2c then do
        let (g, next, value) ← parseChildren ok named fuel { g with mem } q
        .ret (g, .cons (fieldsOf v item) (itemsOf v) next, value)
      else .ret ({ g with mem }, .cons (fieldsOf v item) (itemsOf v) .nil, some (d :: q)) := by
  have hmalloc := malloc_plenty hok g.mem
  obtain ⟨mem₁, hlabel⟩ := hl { g with mem := (g.mem.malloc ok).2 } (w₁ ++ (t ++ (w₂ ++ d :: q)))
  obtain ⟨c, p, rfl, hc, -⟩ := hhead
  obtain ⟨mem₂, hvalue⟩ := hv fuel { g with mem := mem₁ } item (w₂ ++ d :: q) hfuel
    (ends_of_stops v (stops_behind hw₂ hd q))
  have hskip : skip (w₁ ++ (c :: p ++ (w₂ ++ d :: q))) = .ret (c :: p ++ (w₂ ++ d :: q)) :=
    skip_padded hw₁ hc _
  have hafter : skip (w₂ ++ d :: q) = .ret (d :: q) :=
    skip_padded hw₂ (by rcases hd with rfl | rfl | rfl <;> decide) q
  refine ⟨mem₂, ?_⟩
  rw [hmalloc] at hlabel
  simp only [padded, List.append_assoc] at hlabel ⊢
  rw [parseChildren, hmalloc]
  simp only [hlabel, Outcome.ret_bind, hskip, hvalue, hafter, deref, List.tail_cons]

lemma readsChildren_last (hok : Plenty ok) (hl : ReadsLabel ok named l item) (hw₁ : Ws w₁)
    (hv : ReadsValue ok v t) (hhead : ∃ c p, t = c :: p ∧ 32 < c ∧ c ≠ 0x5d) (hw₂ : Ws w₂) :
    ReadsChildren ok named (.cons (fieldsOf v item) (itemsOf v) .nil) (l ++ padded w₁ t w₂) := by
  intro fuel g close rest hfuel hclose
  obtain ⟨fuel, rfl⟩ := Nat.exists_eq_add_of_le' (show 1 ≤ fuel by omega)
  simp only [padded, List.length_append] at hfuel
  obtain ⟨mem, hchild⟩ := parseChildren_child hok hl hw₁ hv hhead hw₂ (Or.inr hclose)
    (show 2 * t.length + 1 ≤ fuel by omega) g rest
  refine ⟨mem, hchild.trans (if_neg ?_)⟩
  rcases hclose with rfl | rfl <;> decide

lemma readsChildren_more (hok : Plenty ok) (hl : ReadsLabel ok named l item) (hw₁ : Ws w₁)
    (hv : ReadsValue ok v t) (hhead : ∃ c p, t = c :: p ∧ 32 < c ∧ c ≠ 0x5d) (hw₂ : Ws w₂)
    {items : Items} {u : List UInt8} (hmore : ReadsChildren ok named items u) :
    ReadsChildren ok named (.cons (fieldsOf v item) (itemsOf v) items)
      (l ++ padded w₁ t w₂ ++ 0x2c :: u) := by
  intro fuel g close rest hfuel hclose
  obtain ⟨fuel, rfl⟩ := Nat.exists_eq_add_of_le' (show 1 ≤ fuel by omega)
  simp only [padded, List.length_append, List.length_cons] at hfuel
  obtain ⟨mem, hchild⟩ := parseChildren_child hok hl hw₁ hv hhead hw₂ (Or.inl rfl)
    (show 2 * t.length + 1 ≤ fuel by omega) g (u ++ close :: rest)
  obtain ⟨mem', hnext⟩ := hmore fuel { g with mem } close rest (by omega) hclose
  refine ⟨mem', ?_⟩
  rw [List.append_assoc, List.cons_append, hchild, if_pos rfl, hnext]
  rfl

end Child

/-- What stands between two brackets: blanks, or children. -/
inductive Inside (ok : ℕ → Bool) (named : Bool) (close : UInt8) (items : Items) (t : List UInt8) :
    Prop
  | empty : items = .nil → Ws t → Inside ok named close items t
  | filled {w : List UInt8} {c : UInt8} {p : List UInt8} : Ws w → t = w ++ c :: p → 32 < c →
      c ≠ close → ReadsChildren ok named items t → Inside ok named close items t

lemma Inside.reads {named : Bool} {close : UInt8} {item : Fields} {child next : Items}
    {t : List UInt8} (h : Inside ok named close (.cons item child next) t) :
    ReadsChildren ok named (.cons item child next) t := by
  cases h with
  | empty h => cases h
  | filled _ _ _ _ hreads => exact hreads

lemma parseContainer_text {named : Bool} {close : UInt8} {items : Items} {t : List UInt8}
    (h : Inside ok named close items t) (hclose : close = 0x5d ∨ close = 0x7d) (type : ItemType)
    (opening : UInt8) {fuel : ℕ} (hfuel : 2 * t.length + 2 ≤ fuel) (g : Globals) (item : Fields)
    (rest : Ptr) :
    ∃ mem, parseContainer type opening close (fun g value => parseChildren ok named fuel g value) g
      item (opening :: (t ++ close :: rest)) =
        .ret ({ g with mem }, { item with type }, items, some rest) := by
  have hblank : 32 < close := by rcases hclose with rfl | rfl <;> decide
  cases h with
  | empty hitems hw =>
    refine ⟨g.mem, ?_⟩
    subst hitems
    simp only [parseContainer, deref, Outcome.ret_bind, List.tail_cons, skip_padded hw hblank,
      ne_eq, not_true_eq_false, if_false, if_true]
  | @filled w c p hw ht hc hne hreads =>
    obtain ⟨mem, hchildren⟩ := hreads fuel g close rest hfuel hclose
    refine ⟨mem, ?_⟩
    rw [ht, List.append_assoc, List.cons_append] at hchildren ⊢
    rw [parseChildren_ws hw] at hchildren
    simp only [parseContainer, deref, Outcome.ret_bind, List.tail_cons, skip_padded hw hc,
      hchildren, ne_eq, not_true_eq_false, if_false, if_true, hne]

lemma readsValue_array {es : Json .elements} {t : List UInt8}
    (h : Inside ok false 0x5d (itemsOf es) t) :
    ReadsValue ok (.array es) (0x5b :: (t ++ [0x5d])) := by
  intro fuel g item rest hfuel _
  obtain ⟨fuel, rfl⟩ := Nat.exists_eq_add_of_le' (Nat.le_of_add_left_le hfuel)
  simp only [List.length_cons, List.length_append, List.length_nil] at hfuel
  obtain ⟨mem, hread⟩ := parseContainer_text h (Or.inl rfl) .array 0x5b
    (show 2 * t.length + 2 ≤ fuel by omega) g item rest
  refine ⟨mem, ?_⟩
  rw [List.cons_append, List.append_assoc]
  exact (parseValue_noWord (by decide) (by decide) (by decide) fuel g item _).trans hread

lemma readsValue_object {ms : Json .members} {t : List UInt8}
    (h : Inside ok true 0x7d (itemsOf ms) t) :
    ReadsValue ok (.object ms) (0x7b :: (t ++ [0x7d])) := by
  intro fuel g item rest hfuel _
  obtain ⟨fuel, rfl⟩ := Nat.exists_eq_add_of_le' (Nat.le_of_add_left_le hfuel)
  simp only [List.length_cons, List.length_append, List.length_nil] at hfuel
  obtain ⟨mem, hread⟩ := parseContainer_text h (Or.inr rfl) .object 0x7b
    (show 2 * t.length + 2 ≤ fuel by omega) g item rest
  refine ⟨mem, ?_⟩
  rw [List.cons_append, List.append_assoc]
  exact (parseValue_noWord (by decide) (by decide) (by decide) fuel g item _).trans hread

end Children

section Complete
variable {ok : ℕ → Bool}

/-- What the reader does with a text, by what it is a text of. -/
def Reads (ok : ℕ → Bool) : {k : Shape} → Json k → List UInt8 → Prop
  | .value, v, t => ReadsValue ok v t
  | .elements, es, t => Inside ok false 0x5d (itemsOf es) t
  | .members, ms, t => Inside ok true 0x7d (itemsOf ms) t

lemma inside_elem {es : Json .elements} {w₁ t u : List UInt8} (hw₁ : Ws w₁)
    (hhead : ∃ c p, t = c :: p ∧ 32 < c ∧ c ≠ 0x5d)
    (hreads : ReadsChildren ok false (itemsOf es) (w₁ ++ (t ++ u))) :
    Inside ok false 0x5d (itemsOf es) (w₁ ++ (t ++ u)) := by
  obtain ⟨c, p, rfl, hc, hne⟩ := hhead
  exact .filled hw₁ rfl hc hne hreads

lemma inside_member {ms : Json .members} {w₁ n w₂ u : List UInt8} (hw₁ : Ws w₁)
    (hreads : ReadsChildren ok true (itemsOf ms) (label w₁ n w₂ ++ u)) :
    Inside ok true 0x7d (itemsOf ms) (label w₁ n w₂ ++ u) :=
  .filled hw₁ (by simp [label, quoted]; rfl) (show 32 < 0x22 by decide) (by decide) hreads

/-- By induction on how the text is derived. -/
theorem reads_text (hok : Plenty ok) {k : Shape} {j : Json k} {t : List UInt8} (h : Text j t) :
    Reads ok j t := by
  induction h with
  | null => exact readsValue_null
  | bool b => exact readsValue_bool b
  | num x => exact readsValue_num x
  | str hs => exact readsValue_str hok hs
  | array _ ih => exact readsValue_array ih
  | object _ ih => exact readsValue_object ih
  | noElems hw => exact .empty rfl hw
  | lastElem hw₁ hv hw₂ ih =>
    exact inside_elem hw₁ (text_head hv)
      (readsChildren_last hok readsLabel_none hw₁ ih (text_head hv) hw₂)
  | elem hw₁ hv hw₂ _ ih ih' =>
    have hreads :=
      readsChildren_more hok readsLabel_none hw₁ ih (text_head hv) hw₂ (Inside.reads ih')
    rw [List.nil_append, padded, List.append_assoc, List.append_assoc] at hreads
    rw [padded, List.append_assoc, List.append_assoc]
    exact inside_elem hw₁ (text_head hv) hreads
  | noMembers hw => exact .empty rfl hw
  | lastMember hw₁ hn hw₂ hw₃ hv hw₄ ih =>
    have hreads := readsChildren_last hok (readsLabel_name hok hw₁ hn hw₂) hw₃ ih (text_head hv) hw₄
    rw [fieldsOf_labelItem] at hreads
    exact inside_member hw₁ hreads
  | member hw₁ hn hw₂ hw₃ hv hw₄ _ ih ih' =>
    have hreads := readsChildren_more hok (readsLabel_name hok hw₁ hn hw₂) hw₃ ih (text_head hv) hw₄
      (Inside.reads ih')
    rw [fieldsOf_labelItem, List.append_assoc] at hreads
    rw [List.append_assoc]
    exact inside_member hw₁ hreads

/-- A document is read to its value, and the pointer behind it is returned. -/
theorem parse_text (hok : Plenty ok) {v : Json .value} {w t : List UInt8} (hw : Ws w)
    (h : Text v t) {rest : Ptr} (hends : Ends v rest) (m : Alloc) :
    ∃ mem, parse ok m (w ++ (t ++ rest)) =
      .ret (⟨none, mem⟩, some (fieldsOf v newItem, itemsOf v, rest)) := by
  obtain ⟨c, p, rfl, hc, -⟩ := text_head h
  have hskip : skip (w ++ (c :: p ++ rest)) = .ret (c :: p ++ rest) := skip_padded hw hc _
  obtain ⟨mem, hvalue⟩ := reads_text hok h (fuelFor (c :: p ++ rest)) ⟨none, (m.malloc ok).2⟩
    newItem rest (by unfold fuelFor; rw [List.length_append]; omega) hends
  refine ⟨mem, ?_⟩
  rw [malloc_plenty hok] at hvalue
  simp only [parse, parseWithOpts, malloc_plenty hok, hskip, Outcome.ret_bind, hvalue,
    Bool.false_eq_true, if_false]

end Complete

end Twister.CJson
