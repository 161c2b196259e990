import Mathlib

/-! Byte buffers, little-endian loads and stores of fixed width, and byte swaps.
Values are read as the machine reads them; network order is a swap away. -/
namespace Twister

abbrev Bytes := ℕ → UInt8

namespace Bytes
variable {n k : ℕ}

def load (b : Bytes) (off n : ℕ) : Fin n → UInt8 := fun i => b (off + i)

def store (b : Bytes) (off : ℕ) (v : Fin n → UInt8) : Bytes :=
  fun j => if h : off ≤ j ∧ j - off < n then v ⟨j - off, h.2⟩ else b j

@[simp] lemma load_store_self (b : Bytes) (off : ℕ) (v : Fin n → UInt8) :
    load (store b off v) off n = v := by
  funext i
  simp [load, store]

lemma load_store_of_disjoint (b : Bytes) {off off' : ℕ} (v : Fin k → UInt8)
    (h : off' + n ≤ off ∨ off + k ≤ off') : load (store b off v) off' n = load b off' n := by
  funext i
  have hi := i.isLt
  simp only [load, store]
  rw [dif_neg]
  omega

end Bytes

/-- Words of two and four bytes are indexed by literals here and in later modules. -/
instance neZero_two : NeZero 2 := ⟨by decide⟩
instance neZero_four : NeZero 4 := ⟨by decide⟩

def le16 (v : Fin 2 → UInt8) : UInt16 := UInt16.ofNat ((v 0).toNat + 256 * (v 1).toNat)

def le32 (v : Fin 4 → UInt8) : UInt32 :=
  UInt32.ofNat ((v 0).toNat + 256 * (v 1).toNat + 65536 * (v 2).toNat + 16777216 * (v 3).toNat)

def le64 (v : Fin 8 → UInt8) : UInt64 := UInt64.ofNat (∑ i, 256 ^ i.val * (v i).toNat)

def bytes16 (x : UInt16) : Fin 2 → UInt8 := fun i => UInt8.ofNat (x.toNat / 256 ^ i.val)

def bytes32 (x : UInt32) : Fin 4 → UInt8 := fun i => UInt8.ofNat (x.toNat / 256 ^ i.val)

def bytes64 (x : UInt64) : Fin 8 → UInt8 := fun i => UInt8.ofNat (x.toNat / 256 ^ i.val)

@[simp] lemma le16_bytes16 (x : UInt16) : le16 (bytes16 x) = x := by
  have hx := x.toNat_lt
  apply UInt16.toNat_inj.mp
  simp [le16, bytes16]
  omega

@[simp] lemma le32_bytes32 (x : UInt32) : le32 (bytes32 x) = x := by
  have hx := x.toNat_lt
  apply UInt32.toNat_inj.mp
  simp [le32, bytes32]
  omega

@[simp] lemma le64_bytes64 (x : UInt64) : le64 (bytes64 x) = x := by
  have hx := x.toNat_lt
  apply UInt64.toNat_inj.mp
  simp [le64, bytes64, Fin.sum_univ_eight]
  omega

@[simp] lemma bytes16_le16 (v : Fin 2 → UInt8) : bytes16 (le16 v) = v := by
  have h0 := (v 0).toNat_lt
  have h1 := (v 1).toNat_lt
  funext i
  apply UInt8.toNat_inj.mp
  fin_cases i <;> simp [le16, bytes16]
  omega

@[simp] lemma bytes32_le32 (v : Fin 4 → UInt8) : bytes32 (le32 v) = v := by
  have h0 := (v 0).toNat_lt
  have h1 := (v 1).toNat_lt
  have h2 := (v 2).toNat_lt
  have h3 := (v 3).toNat_lt
  funext i
  apply UInt8.toNat_inj.mp
  fin_cases i <;> simp [le32, bytes32] <;> omega

/-- The bytes of a word in the opposite order. -/
def bswap16 (x : UInt16) : UInt16 := le16 fun i => bytes16 x i.rev
def bswap32 (x : UInt32) : UInt32 := le32 fun i => bytes32 x i.rev

@[simp] lemma bswap16_bswap16 (x : UInt16) : bswap16 (bswap16 x) = x := by simp [bswap16]

@[simp] lemma bswap32_bswap32 (x : UInt32) : bswap32 (bswap32 x) = x := by simp [bswap32]

lemma bytes32_injective : Function.Injective bytes32 :=
  Function.LeftInverse.injective le32_bytes32

lemma bswap32_injective : Function.Injective bswap32 :=
  Function.Involutive.injective bswap32_bswap32

/-- Each byte of a conjunction is the conjunction of the bytes. -/
lemma bytes32_and (x y : UInt32) (i : Fin 4) :
    bytes32 (x &&& y) i = bytes32 x i &&& bytes32 y i := by
  have hpow : (256 : ℕ) ^ i.val = 2 ^ (8 * i.val) := by rw [pow_mul]; rfl
  apply UInt8.toNat_inj.mp
  simp only [bytes32, UInt8.toNat_and, UInt8.toNat_ofNat', UInt32.toNat_and, hpow]
  rw [Nat.and_div_two_pow, Nat.and_mod_two_pow]

lemma bytes32_bswap32 (x : UInt32) (i : Fin 4) : bytes32 (bswap32 x) i = bytes32 x i.rev := by
  rw [bswap32, bytes32_le32]

/-- Masking commutes with the change of byte order. -/
lemma bswap32_and (x y : UInt32) : bswap32 (x &&& y) = bswap32 x &&& bswap32 y := by
  refine bytes32_injective (funext fun i => ?_)
  rw [bytes32_bswap32, bytes32_and, bytes32_and, bytes32_bswap32, bytes32_bswap32]

end Twister
