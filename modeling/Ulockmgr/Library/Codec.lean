import Mathlib.Data.List.Basic
import Mathlib.Tactic.Ring

/-!
# Prefix codecs

A codec writes a value as bytes and reads a value off the front of a byte
string.  It carries its round trip as a field: what was written is read back, and
the bytes behind it are left alone.  That law composes under sequencing, under
tagging and under changes of representation, so a format is assembled from its
parts without being proved again.
-/

namespace Wire

abbrev Bytes := List UInt8

structure Codec (α : Type) where
  encode : α → Bytes
  decode : Bytes → Option (α × Bytes)
  decode_encode : ∀ value rest, decode (encode value ++ rest) = some (value, rest)

attribute [simp] Codec.decode_encode

/-! ## Fixed-width integers -/

/-- The low `width` bytes of a number, least significant first. -/
def littleEndian : Nat → Nat → Bytes
  | 0, _ => []
  | width + 1, n => UInt8.ofNat n :: littleEndian width (n / 256)

def fromLittleEndian (bytes : Bytes) : Nat :=
  bytes.foldr (fun byte high => byte.toNat + 256 * high) 0

@[simp] theorem length_littleEndian (width n : Nat) : (littleEndian width n).length = width := by
  induction width generalizing n with
  | zero => rfl
  | succ width ih => simp [littleEndian, ih]

theorem fromLittleEndian_littleEndian {width n : Nat} (bounded : n < 256 ^ width) :
    fromLittleEndian (littleEndian width n) = n := by
  induction width generalizing n with
  | zero =>
      rw [pow_zero] at bounded
      have zero : n = 0 := by omega
      rw [zero]
      rfl
  | succ width ih =>
      have high : n / 256 < 256 ^ width := by
        rw [pow_succ] at bounded
        exact Nat.div_lt_of_lt_mul (by rwa [Nat.mul_comm])
      have rest := ih high
      simp only [fromLittleEndian] at rest
      simp only [littleEndian, fromLittleEndian, List.foldr_cons, rest]
      rw [UInt8.toNat_ofNat']
      exact Nat.mod_add_div n 256

theorem fromLittleEndian_cons (byte : UInt8) (bytes : Bytes) :
    fromLittleEndian (byte :: bytes) = byte.toNat + 256 * fromLittleEndian bytes := rfl

theorem fromLittleEndian_lt (bytes : Bytes) : fromLittleEndian bytes < 256 ^ bytes.length := by
  induction bytes with
  | nil => exact Nat.one_pos
  | cons byte bytes ih =>
      have small := byte.toNat_lt
      rw [fromLittleEndian_cons, List.length_cons, pow_succ]
      omega

/-- Conversely, every byte string is the encoding of the number it is read as. -/
theorem littleEndian_fromLittleEndian (bytes : Bytes) :
    littleEndian bytes.length (fromLittleEndian bytes) = bytes := by
  induction bytes with
  | nil => rfl
  | cons byte bytes ih =>
      have small := byte.toNat_lt
      have low : UInt8.ofNat (byte.toNat + 256 * fromLittleEndian bytes) = byte := by
        apply UInt8.toNat_inj.mp
        rw [UInt8.toNat_ofNat']
        omega
      have high : (byte.toNat + 256 * fromLittleEndian bytes) / 256 = fromLittleEndian bytes := by
        omega
      rw [fromLittleEndian_cons, List.length_cons, littleEndian, low, high, ih]

namespace Codec

variable {α β : Type}

/-- A type whose values are numbers of `width` bytes. -/
def fixed (width : Nat) (toNat : α → Nat) (ofNat : Nat → α)
    (back : ∀ value, ofNat (toNat value) = value)
    (bounded : ∀ value, toNat value < 256 ^ width) : Codec α where
  encode value := littleEndian width (toNat value)
  decode bytes :=
    if width ≤ bytes.length then
      some (ofNat (fromLittleEndian (bytes.take width)), bytes.drop width)
    else none
  decode_encode value rest := by
    have front : (littleEndian width (toNat value) ++ rest).take width =
        littleEndian width (toNat value) := List.take_left' (length_littleEndian _ _)
    have behind : (littleEndian width (toNat value) ++ rest).drop width = rest :=
      List.drop_left' (length_littleEndian _ _)
    rw [front, behind, fromLittleEndian_littleEndian (bounded value), back value]
    simp

def u32 : Codec UInt32 :=
  fixed 4 UInt32.toNat UInt32.ofNat (fun _ => UInt32.ofNat_toNat) fun n => n.toNat_lt

def u64 : Codec UInt64 :=
  fixed 8 UInt64.toNat UInt64.ofNat (fun _ => UInt64.ofNat_toNat) fun n => n.toNat_lt

/-- Signed integers are written as their two's complement. -/
def i32 : Codec Int32 :=
  fixed 4 (fun n => n.toUInt32.toNat) (fun n => (UInt32.ofNat n).toInt32)
    (fun n => by rw [UInt32.ofNat_toNat, Int32.toInt32_toUInt32]) fun n => n.toUInt32.toNat_lt

def i64 : Codec Int64 :=
  fixed 8 (fun n => n.toUInt64.toNat) (fun n => (UInt64.ofNat n).toInt64)
    (fun n => by rw [UInt64.ofNat_toNat, Int64.toInt64_toUInt64]) fun n => n.toUInt64.toNat_lt

@[simp] theorem length_u32 (n : UInt32) : (u32.encode n).length = 4 := length_littleEndian _ _
@[simp] theorem length_u64 (n : UInt64) : (u64.encode n).length = 8 := length_littleEndian _ _
@[simp] theorem length_i32 (n : Int32) : (i32.encode n).length = 4 := length_littleEndian _ _
@[simp] theorem length_i64 (n : Int64) : (i64.encode n).length = 8 := length_littleEndian _ _

/-! ## Composition -/

/-- The empty encoding. -/
def unit : Codec Unit where
  encode _ := []
  decode bytes := some ((), bytes)
  decode_encode _ _ := rfl

/-- Two values one behind the other. -/
def pair (first : Codec α) (second : Codec β) : Codec (α × β) where
  encode value := first.encode value.1 ++ second.encode value.2
  decode bytes := do
    let (a, rest) ← first.decode bytes
    let (b, rest) ← second.decode rest
    return ((a, b), rest)
  decode_encode value rest := by simp [List.append_assoc]

/-- Values in another representation. -/
def via (codec : Codec α) (pack : β → α) (unpack : α → β)
    (back : ∀ value, unpack (pack value) = value) : Codec β where
  encode value := codec.encode (pack value)
  decode bytes := (codec.decode bytes).map fun (value, rest) => (unpack value, rest)
  decode_encode value rest := by simp [back]

/-- A `u32` that selects how the rest is read, as for the variants of an enumeration. -/
def tagged (tag : α → UInt32) (fields : α → Bytes) (select : UInt32 → Bytes → Option (α × Bytes))
    (back : ∀ value rest, select (tag value) (fields value ++ rest) = some (value, rest)) :
    Codec α where
  encode value := u32.encode (tag value) ++ fields value
  decode bytes := do
    let (chosen, rest) ← u32.decode bytes
    select chosen rest
  decode_encode value rest := by simp [List.append_assoc, back]

/-- Read a whole buffer; bytes behind the value are allowed. -/
def deserialize (codec : Codec α) (bytes : Bytes) : Option α := (codec.decode bytes).map Prod.fst

@[simp] theorem deserialize_encode (codec : Codec α) (value : α) :
    codec.deserialize (codec.encode value) = some value := by
  have read := codec.decode_encode value []
  rw [List.append_nil] at read
  simp [deserialize, read]

/-! ## Exact codecs -/

/-- Nothing is read that was not written so: the bytes in front of `rest` are the one encoding
of the value. -/
def Exact (codec : Codec α) : Prop :=
  ∀ ⦃bytes : Bytes⦄ ⦃value : α⦄ ⦃rest : Bytes⦄, codec.decode bytes = some (value, rest) →
    bytes = codec.encode value ++ rest

theorem exact_fixed {width : Nat} {toNat : α → Nat} {ofNat : Nat → α}
    (back : ∀ value, ofNat (toNat value) = value)
    (bounded : ∀ value, toNat value < 256 ^ width)
    (forth : ∀ n < 256 ^ width, toNat (ofNat n) = n) :
    (fixed width toNat ofNat back bounded).Exact := by
  intro bytes value rest read
  simp only [fixed] at read
  split at read
  · next enough =>
      cases read
      have length : (bytes.take width).length = width := List.length_take_of_le enough
      have small := fromLittleEndian_lt (bytes.take width)
      rw [length] at small
      have same := littleEndian_fromLittleEndian (bytes.take width)
      rw [length] at same
      simp only [fixed, forth _ small, same, List.take_append_drop]
  · cases read

theorem exact_u32 : u32.Exact :=
  exact_fixed _ _ fun _ small => UInt32.toNat_ofNat_of_lt' small

theorem exact_u64 : u64.Exact :=
  exact_fixed _ _ fun _ small => UInt64.toNat_ofNat_of_lt' small

theorem exact_i32 : i32.Exact := by
  refine exact_fixed _ _ fun n small => ?_
  rw [UInt32.toUInt32_toInt32]
  exact UInt32.toNat_ofNat_of_lt' small

theorem exact_i64 : i64.Exact := by
  refine exact_fixed _ _ fun n small => ?_
  rw [UInt64.toUInt64_toInt64]
  exact UInt64.toNat_ofNat_of_lt' small

theorem exact_unit : unit.Exact := by
  intro bytes value rest read
  cases read
  rfl

theorem Exact.pair {first : Codec α} {second : Codec β} (exact₁ : first.Exact)
    (exact₂ : second.Exact) : (first.pair second).Exact := by
  intro bytes value rest read
  simp only [Codec.pair, bind, Option.bind_eq_some_iff] at read
  obtain ⟨⟨a, middle⟩, left, ⟨b, behind⟩, right, same⟩ := read
  cases same
  have behind_a : middle = second.encode b ++ behind := exact₂ right
  rw [exact₁ left, behind_a]
  simp only [Codec.pair, List.append_assoc]

theorem Exact.via {codec : Codec α} (exact' : codec.Exact) {pack : β → α} {unpack : α → β}
    (back : ∀ value, unpack (pack value) = value) (forth : ∀ value, pack (unpack value) = value) :
    (codec.via pack unpack back).Exact := by
  intro bytes value rest read
  simp only [Codec.via, Option.map_eq_some_iff] at read
  obtain ⟨⟨packed, behind⟩, inner, same⟩ := read
  cases same
  rw [exact' inner]
  simp only [Codec.via, forth]

theorem exact_tagged {tag : α → UInt32} {fields : α → Bytes}
    {select : UInt32 → Bytes → Option (α × Bytes)}
    (back : ∀ value rest, select (tag value) (fields value ++ rest) = some (value, rest))
    (forth : ∀ chosen bytes value rest, select chosen bytes = some (value, rest) →
      chosen = tag value ∧ bytes = fields value ++ rest) :
    (tagged tag fields select back).Exact := by
  intro bytes value rest read
  simp only [tagged, bind, Option.bind_eq_some_iff] at read
  obtain ⟨⟨chosen, middle⟩, front, selected⟩ := read
  obtain ⟨rfl, rfl⟩ := forth _ _ _ _ selected
  rw [exact_u32 front]
  simp only [tagged, List.append_assoc]

theorem Exact.deserialize {codec : Codec α} (exact' : codec.Exact) {bytes : Bytes} {value : α} :
    codec.deserialize bytes = some value ↔ ∃ trailing, bytes = codec.encode value ++ trailing := by
  constructor
  · intro read
    obtain ⟨⟨found, trailing⟩, decoded, same⟩ := Option.map_eq_some_iff.mp read
    cases same
    exact ⟨trailing, exact' decoded⟩
  · rintro ⟨trailing, rfl⟩
    simp [Codec.deserialize]

end Codec

end Wire
