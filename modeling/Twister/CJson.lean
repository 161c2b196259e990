import Twister.JsonText
import Twister.PortConf

/-! The JSON reader: a recursive descent over the text that fills items from a fallible
allocator. A pointer is what it can reach, the bytes up to the end of their block. -/
namespace Twister.CJson

section Memory

abbrev Ptr := List UInt8

/-- `*p`. -/
def deref : Ptr → Outcome UInt8
  | [] => .fault
  | c :: _ => .ret c

/-- The calls of `cJSON_malloc` so far, how many of them succeeded, and the blocks given
back. -/
structure Alloc where
  calls : ℕ
  allocated : ℕ
  freed : ℕ
  deriving DecidableEq

/-- Whether a block was allocated. `ok` tells which calls succeed. -/
def Alloc.malloc (ok : ℕ → Bool) (m : Alloc) : Bool × Alloc :=
  if ok m.calls then (true, { m with calls := m.calls + 1, allocated := m.allocated + 1 })
  else (false, { m with calls := m.calls + 1 })

def Alloc.free (m : Alloc) : Alloc := { m with freed := m.freed + 1 }

end Memory

section Items

inductive ItemType
  | isFalse
  | isTrue
  | isNull
  | number
  | string
  | array
  | object
  deriving DecidableEq

/-- What an item holds beside its links. -/
structure Fields where
  type : ItemType
  valuestring : Option CString
  valueint : Int32
  valuedouble : Float
  string : Option CString

/-- An item with its `child` and its `next`. -/
inductive Items
  | nil
  | cons (item : Fields) (child next : Items)

/-- An item filled with zeros. -/
def newItem : Fields := ⟨.isFalse, none, 0, 0, none⟩

def freeString : Option CString → Alloc → Alloc
  | none, m => m
  | some _, m => m.free

def delete : Items → Alloc → Alloc
  | .nil, m => m
  | .cons item child next, m =>
    delete next (freeString item.string (freeString item.valuestring (delete child m))).free

def Items.getArraySize : Items → ℕ
  | .nil => 0
  | .cons _ _ next => next.getArraySize + 1

/-- An item out of a list, as its fields and its `child`. -/
def Items.getArrayItem : Items → ℕ → Option (Fields × Items)
  | .nil, _ => none
  | .cons item child _, 0 => some (item, child)
  | .cons _ _ next, n + 1 => next.getArrayItem n

def tolower (c : UInt8) : UInt8 := if 0x41 ≤ c ∧ c ≤ 0x5a then c + 0x20 else c

/-- `cJSON_strcasecmp(s1, s2) == 0` for names. -/
def sameName (s1 : Option CString) (s2 : CString) : Bool :=
  match s1 with
  | none => false
  | some s1 => s1.map tolower = s2.map tolower

def Items.getObjectItem : Items → CString → Option (Fields × Items)
  | .nil, _ => none
  | .cons item child next, string =>
    if sameName item.string string then some (item, child) else next.getObjectItem string

end Items

section Reader

/-- The error pointer and the allocator. -/
structure Globals where
  ep : Option Ptr
  mem : Alloc
  deriving DecidableEq

def skip : Ptr → Outcome Ptr
  | [] => .fault
  | c :: p => if c ≠ 0 ∧ c ≤ 32 then skip p else .ret (c :: p)

/-- The three loops over digits, each with its own accumulator. -/
def digitLoop {α : Type} (f : α → UInt8 → α) (a : α) : Ptr → Outcome (α × Ptr)
  | [] => .fault
  | c :: p => if 0x30 ≤ c ∧ c ≤ 0x39 then digitLoop f (f a c) p else .ret (a, c :: p)

/-- `n = (n * 10.0) + (*num++ - '0')` -/
def addDigit (n : Float) (c : UInt8) : Float := n * 10.0 + Float.ofNat (c.toNat - 0x30)

/-- The loop behind the point also counts the scale down. -/
def addScaled (x : Float × Float) (c : UInt8) : Float × Float := (addDigit x.1 c, x.2 - 1.0)

def parseExpSign (num : Ptr) : Outcome (Int32 × Ptr) := do
  let c ← deref num
  if c = 0x2b then .ret (1, num.tail)
  else if c = 0x2d then .ret (-1, num.tail)
  else .ret (1, num)

/-- The exponent as an `int`. -/
def parseExponent (num : Ptr) : Outcome (ℤ × Ptr) := do
  let c ← deref num
  if c = 0x65 ∨ c = 0x45 then
    let (signsubscale, num) ← parseExpSign num.tail
    let (subscale, num) ← digitLoop (fun n c => 10 * n + (c.toNat - 0x30)) 0 num
    .ret ((Int32.ofNat subscale * signsubscale).toInt, num)
  else .ret (0, num)

/-- `(int) n`, with the value of the machine for a number out of range. -/
def castInt (n : Float) : Int32 :=
  if -2147483649.0 < n ∧ n < 2147483648.0 then n.toInt32 else Int32.minValue

def parseIntegral (num : Ptr) : Outcome (Float × Ptr) := do
  let c ← deref num
  let num := if c = 0x30 then num.tail else num
  let c ← deref num
  if 0x31 ≤ c ∧ c ≤ 0x39 then digitLoop addDigit 0.0 num else .ret (0.0, num)

/-- The number and its scale. -/
def parseFraction (n : Float) (num : Ptr) : Outcome ((Float × Float) × Ptr) := do
  let c ← deref num
  if c = 0x2e then
    let d ← deref num.tail
    if 0x30 ≤ d ∧ d ≤ 0x39 then digitLoop addScaled (n, 0.0) num.tail else .ret ((n, 0.0), num)
  else .ret ((n, 0.0), num)

def parseSign (num : Ptr) : Outcome (Float × Ptr) := do
  let c ← deref num
  if c = 0x2d then .ret (-1.0, num.tail) else .ret (1.0, num)

def parseNumber (item : Fields) (num : Ptr) : Outcome (Fields × Ptr) := do
  let (sign, num) ← parseSign num
  let (n, num) ← parseIntegral num
  let ((n, scale), num) ← parseFraction n num
  let (exponent, num) ← parseExponent num
  let n := sign * n * Float.pow 10.0 (scale + Float.ofInt exponent)
  .ret ({ item with valuedouble := n, valueint := castInt n, type := .number }, num)

def hexLoop (h : ℕ) : ℕ → Ptr → Outcome ℕ
  | 0, _ => .ret h
  | k + 1, str => do
    let c ← deref str
    match Json.hexDigit c with
    | none => .ret 0
    | some d => hexLoop (16 * h + d) k str.tail

def parseHex4 (str : Ptr) : Outcome ℕ := hexLoop 0 4 str

/-- The length the first pass over a string finds. An escape counts for one. -/
def scanLen : Ptr → Outcome ℕ
  | [] => .fault
  | c :: p =>
    if c = 0x22 ∨ c = 0 then .ret 0
    else if c = 0x5c then
      match p with
      | [] => .fault
      | _ :: p => do
        let n ← scanLen p
        .ret (n + 1)
    else do
      let n ← scanLen p
      .ret (n + 1)

/-- Bytes written behind `out` in a block of `size` bytes. -/
def store (size : ℕ) (out bytes : List UInt8) : Outcome (List UInt8) :=
  if out.length + bytes.length ≤ size then .ret (out ++ bytes) else .fault

def firstByteMark (len : ℕ) : ℕ := [0x00, 0x00, 0xC0, 0xE0, 0xF0, 0xF8, 0xFC].getD len 0

/-- The bytes of a character, written from the last one on. -/
def utf8From (len : ℕ) : ℕ → ℕ → List UInt8
  | 0, _ => []
  | 1, uc => [UInt8.ofNat (uc ||| firstByteMark len)]
  | k + 2, uc => utf8From len (k + 1) (uc >>> 6) ++ [UInt8.ofNat ((uc ||| 0x80) &&& 0xBF)]

def utf8Len (uc : ℕ) : ℕ :=
  if uc < 0x80 then 1 else if uc < 0x800 then 2 else if uc < 0x10000 then 3 else 4

def utf8 (uc : ℕ) : List UInt8 := utf8From (utf8Len uc) (utf8Len uc) uc

/-- An escape at its `u`: the bytes it gives and its last byte. -/
def unicodeEscape (ptr : Ptr) : Outcome (List UInt8 × Ptr) := do
  let uc ← parseHex4 ptr.tail
  let ptr := ptr.drop 4
  if 0xDC00 ≤ uc ∧ uc ≤ 0xDFFF ∨ uc = 0 then .ret ([], ptr)
  else if 0xD800 ≤ uc ∧ uc ≤ 0xDBFF then
    let c ← deref (ptr.drop 1)
    if c ≠ 0x5c then .ret ([], ptr)
    else
      let c ← deref (ptr.drop 2)
      if c ≠ 0x75 then .ret ([], ptr)
      else
        let uc2 ← parseHex4 (ptr.drop 3)
        let ptr := ptr.drop 6
        if uc2 < 0xDC00 ∨ 0xDFFF < uc2 then .ret ([], ptr)
        else .ret (utf8 (0x10000 + (((uc &&& 0x3FF) <<< 10) ||| (uc2 &&& 0x3FF))), ptr)
  else .ret (utf8 uc, ptr)

def unescape (c : UInt8) : UInt8 :=
  if c = 0x62 then 0x08
  else if c = 0x66 then 0x0c
  else if c = 0x6e then 0x0a
  else if c = 0x72 then 0x0d
  else if c = 0x74 then 0x09
  else c

/-- The second pass over a string, which writes to a block of `size` bytes. -/
def decodeLoop (size : ℕ) : ℕ → List UInt8 → Ptr → Outcome (List UInt8 × Ptr)
  | 0, _, _ => .timeout
  | fuel + 1, out, ptr => do
    let c ← deref ptr
    if c = 0x22 ∨ c = 0 then .ret (out, ptr)
    else if c ≠ 0x5c then
      let out ← store size out [c]
      decodeLoop size fuel out ptr.tail
    else
      let c ← deref ptr.tail
      if c = 0x75 then
        let (bytes, ptr) ← unicodeEscape ptr.tail
        let out ← store size out bytes
        decodeLoop size fuel out ptr.tail
      else
        let out ← store size out [unescape c]
        decodeLoop size fuel out ptr.tail.tail

variable (ok : ℕ → Bool)

/-- The item is filled as far as the call gets. It returns no pointer when it fails. -/
def parseString (g : Globals) (item : Fields) (str : Ptr) :
    Outcome (Globals × Fields × Option Ptr) := do
  let c ← deref str
  if c ≠ 0x22 then .ret ({ g with ep := some str }, item, none)
  else
    let len ← scanLen str.tail
    match g.mem.malloc ok with
    | (false, mem) => .ret ({ g with mem }, item, none)
    | (true, mem) =>
      let (out, ptr) ← decodeLoop (len + 1) str.length [] str.tail
      let out ← store (len + 1) out [0]
      let c ← deref ptr
      .ret ({ g with mem },
        { item with valuestring := some (out.takeWhile (· ≠ 0)), type := .string },
        some (if c = 0x22 then ptr.tail else ptr))

/-- `!strncmp(value, literal, n)` for a literal of `n` bytes. -/
def startsWith : List UInt8 → Ptr → Outcome Bool
  | [], _ => .ret true
  | _ :: _, [] => .fault
  | l :: literal, c :: value => if c = l then startsWith literal value else .ret false

/-- What `parse_array` and `parse_object` do around the loop over their children. -/
def parseContainer (type : ItemType) (opening close : UInt8)
    (children : Globals → Ptr → Outcome (Globals × Items × Option Ptr)) (g : Globals)
    (item : Fields) (value : Ptr) : Outcome (Globals × Fields × Items × Option Ptr) := do
  let c ← deref value
  if c ≠ opening then .ret ({ g with ep := some value }, item, .nil, none)
  else
    let item := { item with type }
    let value ← skip value.tail
    let c ← deref value
    if c = close then .ret (g, item, .nil, some value.tail)
    else
      let (g, child, value) ← children g value
      match value with
      | none => .ret (g, item, child, none)
      | some value =>
        let c ← deref value
        if c = close then .ret (g, item, child, some value.tail)
        else .ret ({ g with ep := some value }, item, child, none)

/-- The name of a member and the colon behind it. -/
def parseName (g : Globals) (child : Fields) (value : Ptr) :
    Outcome (Globals × Fields × Option Ptr) := do
  let value ← skip value
  let (g, child, value) ← parseString ok g child value
  match value with
  | none => .ret (g, child, none)
  | some value =>
    let value ← skip value
    let child := { child with string := child.valuestring, valuestring := none }
    let c ← deref value
    if c ≠ 0x3a then .ret ({ g with ep := some value }, child, none)
    else .ret (g, child, some value.tail)

/-- What is read in front of a child: the name of a member, and nothing of an element. -/
def parseLabel (named : Bool) (g : Globals) (child : Fields) (value : Ptr) :
    Outcome (Globals × Fields × Option Ptr) :=
  if named then parseName ok g child value else .ret (g, child, some value)

mutual

def parseValue : ℕ → Globals → Fields → Ptr → Outcome (Globals × Fields × Items × Option Ptr)
  | 0, _, _, _ => .timeout
  | fuel + 1, g, item, value => do
    if ← startsWith Json.nullText value then
      .ret (g, { item with type := .isNull }, .nil, some (value.drop 4))
    else if ← startsWith Json.falseText value then
      .ret (g, { item with type := .isFalse }, .nil, some (value.drop 5))
    else if ← startsWith Json.trueText value then
      .ret (g, { item with type := .isTrue, valueint := 1 }, .nil, some (value.drop 4))
    else
      let c ← deref value
      if c = 0x22 then
        let (g, item, value) ← parseString ok g item value
        .ret (g, item, .nil, value)
      else if c = 0x2d ∨ 0x30 ≤ c ∧ c ≤ 0x39 then
        let (item, value) ← parseNumber item value
        .ret (g, item, .nil, some value)
      else if c = 0x5b then
        parseContainer .array 0x5b 0x5d (fun g value => parseChildren false fuel g value) g item
          value
      else if c = 0x7b then
        parseContainer .object 0x7b 0x7d (fun g value => parseChildren true fuel g value) g item
          value
      else .ret ({ g with ep := some value }, item, .nil, none)

/-- The loops of `parse_array` and of `parse_object`, which reads a name before each value. -/
def parseChildren (named : Bool) : ℕ → Globals → Ptr → Outcome (Globals × Items × Option Ptr)
  | 0, _, _ => .timeout
  | fuel + 1, g, value =>
    match g.mem.malloc ok with
    | (false, mem) => .ret ({ g with mem }, .nil, none)
    | (true, mem) => do
      let (g, child, value) ← parseLabel ok named { g with mem } newItem value
      match value with
      | none => .ret (g, .cons child .nil .nil, none)
      | some value =>
        let value ← skip value
        let (g, child, grandchild, value) ← parseValue fuel g child value
        match value with
        | none => .ret (g, .cons child grandchild .nil, none)
        | some value =>
          let value ← skip value
          let c ← deref value
          if c = 0x2c then
            let (g, next, value) ← parseChildren named fuel g value.tail
            .ret (g, .cons child grandchild next, value)
          else .ret (g, .cons child grandchild .nil, some value)

end

/-- Enough steps for a text: two for each byte. -/
def fuelFor (value : Ptr) : ℕ := 2 * value.length + 1

/-- The item read, if any, with its `child`, and the pointer behind it. -/
def parseWithOpts (requireNullTerminated : Bool) (m : Alloc) (value : Ptr) :
    Outcome (Globals × Option (Fields × Items × Ptr)) :=
  match m.malloc ok with
  | (false, mem) => .ret (⟨none, mem⟩, none)
  | (true, mem) => do
    let value ← skip value
    let (g, item, child, stop) ← parseValue ok (fuelFor value) ⟨none, mem⟩ newItem value
    match stop with
    | none => .ret ({ g with mem := delete (.cons item child .nil) g.mem }, none)
    | some stop =>
      if requireNullTerminated then
        let stop ← skip stop
        let c ← deref stop
        if c ≠ 0 then
          .ret ({ ep := some stop, mem := delete (.cons item child .nil) g.mem }, none)
        else .ret (g, some (item, child, stop))
      else .ret (g, some (item, child, stop))

def parse (m : Alloc) (value : Ptr) : Outcome (Globals × Option (Fields × Items × Ptr)) :=
  parseWithOpts ok false m value

end Reader
end Twister.CJson
