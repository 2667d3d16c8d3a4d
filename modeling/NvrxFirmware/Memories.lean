import NvrxFirmware.Scanning
import Mathlib.Algebra.Group.Nat.Defs

namespace NvrxFirmware

/-- The bytes by their addresses. -/
abbrev Memory := Nat → UInt8

/-- So many bytes, as they lie in memory. -/
abbrev Bytes (n : Nat) := { bytes : List UInt8 // bytes.length = n }

namespace Memory

variable {m m' : Memory} {a b n : Nat} {src : List UInt8}

def bytes (m : Memory) (a n : Nat) : List UInt8 := before (fun i => m (a + i)) n

@[simp] theorem bytes_length (m : Memory) (a n : Nat) : (m.bytes a n).length = n := before_length _ n

def load (m : Memory) (a n : Nat) : Bytes n := ⟨m.bytes a n, m.bytes_length a n⟩

def store (m : Memory) (a : Nat) (src : List UInt8) : Memory :=
  fun i => if a ≤ i ∧ i < a + src.length then src.getD (i - a) 0 else m i

theorem bytes_add (m : Memory) (a k n : Nat) : m.bytes a (k + n) = m.bytes a k ++ m.bytes (a + k) n := by
  simp only [bytes, before_add, Nat.add_assoc]

theorem drop_take_bytes {k : Nat} (h : a + n ≤ k) (m : Memory) (b : Nat) :
    ((m.bytes b k).drop a).take n = m.bytes (b + a) n := by
  obtain ⟨rest, rfl⟩ := Nat.exists_eq_add_of_le h
  rw [Nat.add_assoc, bytes_add, List.drop_left' (m.bytes_length b a), bytes_add, List.take_left' (m.bytes_length _ n)]

theorem bytes_congr (h : ∀ i, a ≤ i → i < a + n → m i = m' i) : m.bytes a n = m'.bytes a n :=
  before_congr fun i hi => h (a + i) (by omega) (by omega)

theorem bytes_inj (h : m.bytes 0 n = m'.bytes 0 n) {i : Nat} (hi : i < n) : m i = m' i := by
  have hget := congrArg (·[i]?) h
  simpa [bytes, before, hi] using hget

theorem load_congr (h : ∀ i, a ≤ i → i < a + n → m i = m' i) : m.load a n = m'.load a n :=
  Subtype.ext (bytes_congr h)

theorem store_of_lt {i : Nat} (h : i < a) : m.store a src i = m i := if_neg (by omega)

theorem store_of_le {i : Nat} (h : a + src.length ≤ i) : m.store a src i = m i := if_neg (by omega)

theorem store_of_outside {i : Nat} (h : i < a ∨ a + src.length ≤ i) : m.store a src i = m i :=
  h.elim store_of_lt store_of_le

theorem store_add {i : Nat} (h : i < src.length) : m.store a src (a + i) = src.getD i 0 := by
  rw [store, if_pos (by omega), Nat.add_sub_cancel_left]

theorem bytes_store (m : Memory) (a : Nat) (src : List UInt8) : (m.store a src).bytes a src.length = src := by
  have h : ∀ i, i < src.length → m.store a src (a + i) = src.getD i 0 := fun i hi => store_add hi
  rw [bytes, before_congr h, before_getD]

theorem bytes_store_of_disjoint (h : a + n ≤ b ∨ b + src.length ≤ a) : (m.store b src).bytes a n = m.bytes a n := by
  apply bytes_congr
  intro i hle hlt
  rcases h with h | h
  · exact store_of_lt (by omega)
  · exact store_of_le (by omega)

theorem load_store_of_disjoint (h : a + n ≤ b ∨ b + src.length ≤ a) : (m.store b src).load a n = m.load a n :=
  Subtype.ext (bytes_store_of_disjoint h)

/-- The bytes are stored in place of those there. -/
def put (m : Memory) (a : Nat) (src : Bytes n) : Memory := m.store a src.val

theorem put_of_outside {src : Bytes n} {i : Nat} (h : i < a ∨ a + n ≤ i) : m.put a src i = m i :=
  store_of_outside (by rwa [src.property])

theorem load_put (m : Memory) (a : Nat) (src : Bytes n) : (m.put a src).load a n = src := by
  obtain ⟨src, rfl⟩ := src
  exact Subtype.ext (bytes_store m a src)

theorem load_put_of_disjoint {k : Nat} {src : Bytes k} (h : a + n ≤ b ∨ b + k ≤ a) :
    (m.put b src).load a n = m.load a n :=
  load_store_of_disjoint (by rwa [src.property])

/-- A half word of a little-endian machine. -/
def load16 (m : Memory) (a : Nat) : UInt16 := .ofNat ((m a).toNat + 256 * (m (a + 1)).toNat)

def halfWord (x : UInt16) : Bytes 2 := ⟨[.ofNat x.toNat, .ofNat (x.toNat / 256)], rfl⟩

def store16 (m : Memory) (a : Nat) (x : UInt16) : Memory := m.put a (halfWord x)

def store8 (m : Memory) (a : Nat) (x : UInt8) : Memory := m.put a (⟨[x], rfl⟩ : Bytes 1)

theorem store8_self (m : Memory) (a : Nat) (x : UInt8) : m.store8 a x a = x :=
  store_add (i := 0) (by decide : 0 < 1)

theorem load16_congr (h : m a = m' a) (h' : m (a + 1) = m' (a + 1)) : m.load16 a = m'.load16 a := by
  rw [load16, load16, h, h']

theorem load16_store16 (m : Memory) (a : Nat) (x : UInt16) : (m.store16 a x).load16 a = x := by
  have hlow : m.store16 a x a = .ofNat x.toNat := store_add (i := 0) (by decide : 0 < 2)
  have hhigh : m.store16 a x (a + 1) = .ofNat (x.toNat / 256) := store_add (i := 1) (by decide : 1 < 2)
  have hx := x.toNat_lt
  rw [load16, hlow, hhigh, UInt8.toNat_ofNat', UInt8.toNat_ofNat']
  apply UInt16.toNat.inj
  rw [UInt16.toNat_ofNat']
  omega

theorem load16_put_of_disjoint {k : Nat} {src : Bytes k} (h : a + 2 ≤ b ∨ b + k ≤ a) :
    (m.put b src).load16 a = m.load16 a :=
  load16_congr (put_of_outside (by omega)) (put_of_outside (by omega))

section Widths

variable {i k : Nat} {x : UInt16} {y : UInt8}

theorem store16_of_outside (h : i < a ∨ a + 2 ≤ i) : m.store16 a x i = m i := put_of_outside h

theorem store8_of_outside (h : i < a ∨ a + 1 ≤ i) : m.store8 a y i = m i := put_of_outside h

theorem load16_store16_of_disjoint (h : a + 2 ≤ b ∨ b + 2 ≤ a) : (m.store16 b x).load16 a = m.load16 a :=
  load16_put_of_disjoint h

theorem load16_store8_of_disjoint (h : a + 2 ≤ b ∨ b + 1 ≤ a) : (m.store8 b y).load16 a = m.load16 a :=
  load16_put_of_disjoint h

theorem load_store16_of_disjoint (h : a + n ≤ b ∨ b + 2 ≤ a) : (m.store16 b x).load a n = m.load a n :=
  load_put_of_disjoint h

theorem load_store8_of_disjoint (h : a + n ≤ b ∨ b + 1 ≤ a) : (m.store8 b y).load a n = m.load a n :=
  load_put_of_disjoint h

end Widths

end Memory

/-- The bytes of a half word the other way round, from or to the order of the network. -/
def ntohs (x : UInt16) : UInt16 := .ofNat (x.toNat % 256 * 256 + x.toNat / 256)

def htons (x : UInt16) : UInt16 := ntohs x

theorem ntohs_toNat (x : UInt16) : (ntohs x).toNat = x.toNat % 256 * 256 + x.toNat / 256 := by
  have hx := x.toNat_lt
  rw [ntohs, UInt16.toNat_ofNat', Nat.mod_eq_of_lt (by omega)]

@[simp] theorem ntohs_htons (x : UInt16) : ntohs (htons x) = x := by
  have hx := x.toNat_lt
  apply UInt16.toNat.inj
  rw [htons, ntohs_toNat, ntohs_toNat]
  omega

end NvrxFirmware
