import Mathlib

/-! JSON values and their texts. One family holds the values, the elements of arrays and the
members of objects, so that one induction does all three. Texts are byte strings. -/
namespace Twister

/-- A byte string that a terminator can end. -/
abbrev Str := { s : List UInt8 // 0 ∉ s }

def Json.IsDigit (c : UInt8) : Prop := 0x30 ≤ c ∧ c ≤ 0x39

/-- A number by its sign, its digits, how many of them stand behind the point, and its exponent.
What value that is depends on the arithmetic of who reads it. -/
structure Decimal where
  neg : Bool
  digits : List UInt8
  scale : ℕ
  exponent : ℤ
  digits_ok : ∀ c ∈ digits, Json.IsDigit c
  scale_le : scale ≤ digits.length

inductive Shape
  | value
  | elements
  | members

inductive Json : Shape → Type
  | null : Json .value
  | bool (b : Bool) : Json .value
  | num (d : Decimal) : Json .value
  | str (s : Str) : Json .value
  | array (elems : Json .elements) : Json .value
  | object (mems : Json .members) : Json .value
  | noElems : Json .elements
  | elem (v : Json .value) (elems : Json .elements) : Json .elements
  | noMembers : Json .members
  | member (name : Str) (v : Json .value) (mems : Json .members) : Json .members

namespace Json

section Numbers

instance (c : UInt8) : Decidable (IsDigit c) := inferInstanceAs (Decidable (_ ∧ _))

/-- The number that decimal digits denote. -/
def decimal (ds : List UInt8) : ℕ := ds.foldl (fun n c => 10 * n + (c.toNat - 0x30)) 0

/-- The part of a number behind an `e`. Its value fits 31 bits. -/
structure Exponent where
  mark : UInt8
  mark_ok : mark = 0x65 ∨ mark = 0x45
  /-- whether there is a sign, and whether it is a minus -/
  sign : Option Bool
  digits : List UInt8
  digits_ok : ∀ c ∈ digits, IsDigit c
  digits_ne : digits ≠ []
  small : decimal digits < 2 ^ 31

namespace Exponent

def signText : Option Bool → List UInt8
  | none => []
  | some false => [0x2b]
  | some true => [0x2d]

def text (e : Exponent) : List UInt8 := e.mark :: (signText e.sign ++ e.digits)

def value (e : Exponent) : ℤ :=
  if e.sign = some true then -(decimal e.digits : ℤ) else decimal e.digits

end Exponent

/-- A number as it is written. The integral part has no leading zero. -/
structure Number where
  neg : Bool
  int : List UInt8
  frac : List UInt8
  exp : Option Exponent
  int_ok : int = [0x30] ∨
    ∃ c cs, int = c :: cs ∧ 0x31 ≤ c ∧ c ≤ 0x39 ∧ ∀ d ∈ cs, IsDigit d
  frac_ok : ∀ c ∈ frac, IsDigit c

namespace Number

def fracText (frac : List UInt8) : List UInt8 := if frac = [] then [] else 0x2e :: frac

def expText : Option Exponent → List UInt8
  | none => []
  | some e => e.text

def expValue : Option Exponent → ℤ
  | none => 0
  | some e => e.value

def text (x : Number) : List UInt8 :=
  (if x.neg then [0x2d] else []) ++ (x.int ++ (fracText x.frac ++ expText x.exp))

/-- The integral part, which a single zero leaves empty. -/
def intDigits (int : List UInt8) : List UInt8 := if int = [0x30] then [] else int

lemma intDigits_ok (x : Number) : ∀ c ∈ intDigits x.int, IsDigit c := by
  intro c hc
  rw [intDigits] at hc
  split at hc
  · exact absurd hc List.not_mem_nil
  · rename_i hzero
    obtain ⟨d, ds, hint, hlo, hhi, hds⟩ := x.int_ok.resolve_left hzero
    rw [hint] at hc
    rcases List.mem_cons.mp hc with rfl | hmem
    · exact ⟨UInt8.le_trans (by decide) hlo, hhi⟩
    · exact hds c hmem

def value (x : Number) : Decimal where
  neg := x.neg
  digits := intDigits x.int ++ x.frac
  scale := x.frac.length
  exponent := expValue x.exp
  digits_ok := List.forall_mem_append.mpr ⟨x.intDigits_ok, x.frac_ok⟩
  scale_le := by simp

end Number

end Numbers

section Strings

def hexDigit (c : UInt8) : Option ℕ :=
  if 0x30 ≤ c ∧ c ≤ 0x39 then some (c.toNat - 0x30)
  else if 0x41 ≤ c ∧ c ≤ 0x46 then some (c.toNat - 0x41 + 10)
  else if 0x61 ≤ c ∧ c ≤ 0x66 then some (c.toNat - 0x61 + 10)
  else none

/-- The number that hexadecimal digits denote, read behind the digits of `n`. -/
def hexFrom (n : ℕ) : List UInt8 → Option ℕ
  | [] => some n
  | c :: cs => (hexDigit c).bind fun d => hexFrom (16 * n + d) cs

/-- Four hexadecimal digits. -/
def Hex4 (ds : List UInt8) (n : ℕ) : Prop := ds.length = 4 ∧ hexFrom 0 ds = some n

instance (ds : List UInt8) (n : ℕ) : Decidable (Hex4 ds n) := inferInstanceAs (Decidable (_ ∧ _))

/-- What may follow a backslash, and the byte both stand for. -/
def escapes : List (UInt8 × UInt8) :=
  [(0x22, 0x22), (0x5c, 0x5c), (0x2f, 0x2f), (0x62, 0x08), (0x66, 0x0c), (0x6e, 0x0a),
    (0x72, 0x0d), (0x74, 0x09)]

/-- The text between two quotes and the bytes it stands for. A character beyond the first
65536 is written as a pair of surrogates. -/
inductive StrBody : List UInt8 → List UInt8 → Prop
  | nil : StrBody [] []
  | raw {c : UInt8} {t s : List UInt8} : 0x20 ≤ c → c ≠ 0x22 → c ≠ 0x5c → StrBody t s →
      StrBody (c :: t) (c :: s)
  | escape {c d : UInt8} {t s : List UInt8} : (c, d) ∈ escapes → StrBody t s →
      StrBody (0x5c :: c :: t) (d :: s)
  | unicode {ch : Char} {ds t s : List UInt8} : Hex4 ds ch.toNat → ch.toNat ≠ 0 → StrBody t s →
      StrBody (0x5c :: 0x75 :: (ds ++ t)) (String.utf8EncodeChar ch ++ s)
  | pair {ch : Char} {hi lo t s : List UInt8} : 0x10000 ≤ ch.toNat →
      Hex4 hi (0xd800 + (ch.toNat - 0x10000) / 0x400) →
      Hex4 lo (0xdc00 + (ch.toNat - 0x10000) % 0x400) → StrBody t s →
      StrBody (0x5c :: 0x75 :: (hi ++ 0x5c :: 0x75 :: (lo ++ t))) (String.utf8EncodeChar ch ++ s)

/-- Bytes that need no escape. -/
def Unescaped (s : List UInt8) : Prop := ∀ c ∈ s, 0x20 ≤ c ∧ c ≠ 0x22 ∧ c ≠ 0x5c

instance (s : List UInt8) : Decidable (Unescaped s) := inferInstanceAs (Decidable (∀ c ∈ s, _))

lemma Unescaped.strBody {s : List UInt8} (h : Unescaped s) : StrBody s s := by
  induction s with
  | nil => exact .nil
  | cons c s ih =>
    obtain ⟨⟨hlo, hq, hb⟩, hs⟩ := List.forall_mem_cons.mp h
    exact .raw hlo hq hb (ih hs)

def quoted (t : List UInt8) : List UInt8 := 0x22 :: (t ++ [0x22])

end Strings

section Texts

/-- Blanks, tabs and line ends. -/
def Ws (w : List UInt8) : Prop := ∀ c ∈ w, c = 0x20 ∨ c = 0x09 ∨ c = 0x0a ∨ c = 0x0d

def nullText : List UInt8 := [0x6e, 0x75, 0x6c, 0x6c]
def falseText : List UInt8 := [0x66, 0x61, 0x6c, 0x73, 0x65]
def trueText : List UInt8 := [0x74, 0x72, 0x75, 0x65]

/-- A value with blanks around it. -/
def padded (w₁ t w₂ : List UInt8) : List UInt8 := w₁ ++ (t ++ w₂)

/-- A name with the colon behind it. -/
def label (w₁ n w₂ : List UInt8) : List UInt8 := w₁ ++ (quoted n ++ (w₂ ++ [0x3a]))

/-- The texts of a value. Elements and members are what stands between the brackets. -/
inductive Text : {k : Shape} → Json k → List UInt8 → Prop
  | null : Text .null nullText
  | bool (b : Bool) : Text (.bool b) (if b then trueText else falseText)
  | num (x : Number) : Text (.num x.value) x.text
  | str {s : Str} {t : List UInt8} : StrBody t s → Text (.str s) (quoted t)
  | array {es : Json .elements} {t : List UInt8} : Text es t →
      Text (.array es) (0x5b :: (t ++ [0x5d]))
  | object {ms : Json .members} {t : List UInt8} : Text ms t →
      Text (.object ms) (0x7b :: (t ++ [0x7d]))
  | noElems {w : List UInt8} : Ws w → Text .noElems w
  | lastElem {v : Json .value} {w₁ t w₂ : List UInt8} : Ws w₁ → Text v t → Ws w₂ →
      Text (.elem v .noElems) (padded w₁ t w₂)
  | elem {v v' : Json .value} {es : Json .elements} {w₁ t w₂ u : List UInt8} : Ws w₁ →
      Text v t → Ws w₂ → Text (.elem v' es) u →
      Text (.elem v (.elem v' es)) (padded w₁ t w₂ ++ 0x2c :: u)
  | noMembers {w : List UInt8} : Ws w → Text .noMembers w
  | lastMember {name : Str} {v : Json .value} {w₁ n w₂ w₃ t w₄ : List UInt8} : Ws w₁ →
      StrBody n name → Ws w₂ → Ws w₃ → Text v t → Ws w₄ →
      Text (.member name v .noMembers) (label w₁ n w₂ ++ padded w₃ t w₄)
  | member {name name' : Str} {v v' : Json .value} {ms : Json .members}
      {w₁ n w₂ w₃ t w₄ u : List UInt8} : Ws w₁ → StrBody n name → Ws w₂ → Ws w₃ → Text v t →
      Ws w₄ → Text (.member name' v' ms) u →
      Text (.member name v (.member name' v' ms)) (label w₁ n w₂ ++ padded w₃ t w₄ ++ 0x2c :: u)

end Texts

section Lookup

/-- The elements of an array or the values of the members of an object. -/
def children : {k : Shape} → Json k → List (Json .value)
  | _, .array es => children es
  | _, .object ms => children ms
  | _, .elem v es => v :: children es
  | _, .member _ v ms => v :: children ms
  | _, _ => []

/-- The value of the first member whose name passes a test. -/
def find? (p : Str → Bool) : {k : Shape} → Json k → Option (Json .value)
  | _, .object ms => find? p ms
  | _, .member name v ms => if p name then some v else find? p ms
  | _, _ => none

def str? : Json .value → Option Str
  | .str s => some s
  | _ => none

end Lookup
end Json
end Twister
