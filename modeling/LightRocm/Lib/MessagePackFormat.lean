import LightRocm.Lib.ByteReader
import Mathlib.Data.Nat.Digits.Lemmas

/-!
# The MessagePack format

The values without floating-point numbers, binary data and extensions, and all encodings
the format has for them: every width that holds an integer or a length is allowed. Maps
have distinct strings as their keys.
-/

namespace MessagePackFormat

open ByteReader

/-- A value; the entries of a map keep their order. -/
inductive Value where
  | nil
  | boolean (boolean : Bool)
  | integer (integer : ℤ)
  | string (raw : List UInt8)
  | array (values : List Value)
  | map (entries : List (List UInt8 × Value))

/-- The number whose digits to the base 256 are given, the highest first. -/
def number (bytes : List UInt8) : ℕ := Nat.ofDigits 256 (bytes.reverse.map UInt8.toNat)

/-- The integer whose bytes in two's complement are given, the highest first: of the integers with
this number as their residue the one in the middle range. -/
def twosComplement (bytes : List UInt8) : ℤ := Int.bmod (number bytes) (2 ^ (8 * bytes.length))

/-- The beginning of a value with a count: a marker that holds the count, or a marker and the
count in the number of bytes that goes with it. -/
inductive Header (base limit : ℕ) (wide : List (ℕ × ℕ)) (count : ℕ) : List UInt8 → Prop
  | short : count < limit → Header base limit wide count [UInt8.ofNat (base + count)]
  | wide {marker width : ℕ} {bytes : List UInt8} : (marker, width) ∈ wide → bytes.length = width →
      number bytes = count → Header base limit wide count (UInt8.ofNat marker :: bytes)

/-- The beginning of a string. -/
abbrev StringHeader : ℕ → List UInt8 → Prop := Header 0xa0 32 [(0xd9, 1), (0xda, 2), (0xdb, 4)]

/-- The beginning of an array. -/
abbrev ArrayHeader : ℕ → List UInt8 → Prop := Header 0x90 16 [(0xdc, 2), (0xdd, 4)]

/-- The beginning of a map. -/
abbrev MapHeader : ℕ → List UInt8 → Prop := Header 0x80 16 [(0xde, 2), (0xdf, 4)]

/-- An entry of a map with the encodings of its key and of its value. -/
structure Entry where
  key : List UInt8
  keyText : List UInt8
  value : Value
  text : List UInt8

/-- The encodings of a value. -/
inductive Encodes : Value → List UInt8 → Prop
  | nil : Encodes .nil [0xc0]
  | false : Encodes (.boolean false) [0xc2]
  | true : Encodes (.boolean true) [0xc3]
  | positive {byte : UInt8} : byte.toNat < 0x80 → Encodes (.integer byte.toNat) [byte]
  | negative {byte : UInt8} : 0xe0 ≤ byte.toNat → Encodes (.integer (byte.toNat - 256)) [byte]
  | unsigned {exponent : ℕ} {bytes : List UInt8} : exponent < 4 → bytes.length = 2 ^ exponent →
      Encodes (.integer (number bytes)) (UInt8.ofNat (0xcc + exponent) :: bytes)
  | signed {exponent : ℕ} {bytes : List UInt8} : exponent < 4 → bytes.length = 2 ^ exponent →
      Encodes (.integer (twosComplement bytes)) (UInt8.ofNat (0xd0 + exponent) :: bytes)
  | string {raw header : List UInt8} : StringHeader raw.length header →
      Encodes (.string raw) (header ++ raw)
  | array {items : List (Value × List UInt8)} {header : List UInt8} :
      ArrayHeader items.length header → (∀ item ∈ items, Encodes item.1 item.2) →
      Encodes (.array (items.map (·.1))) (header ++ (items.map (·.2)).flatten)
  | map {items : List Entry} {header : List UInt8} :
      MapHeader items.length header → (∀ item ∈ items, Encodes (.string item.key) item.keyText) →
      (∀ item ∈ items, Encodes item.value item.text) → (items.map (·.key)).Nodup →
      Encodes (.map (items.map fun item => (item.key, item.value)))
        (header ++ (items.map fun item => item.keyText ++ item.text).flatten)

/-- Nothing in the value is inside more than the given number of arrays and maps. -/
inductive Nested : ℕ → Value → Prop
  | nil {depth : ℕ} : Nested depth .nil
  | boolean {depth : ℕ} {boolean : Bool} : Nested depth (.boolean boolean)
  | integer {depth : ℕ} {integer : ℤ} : Nested depth (.integer integer)
  | string {depth : ℕ} {raw : List UInt8} : Nested depth (.string raw)
  | array {depth : ℕ} {values : List Value} : (∀ value ∈ values, 0 < depth) →
      (∀ value ∈ values, Nested (depth - 1) value) → Nested depth (.array values)
  | map {depth : ℕ} {entries : List (List UInt8 × Value)} : (∀ entry ∈ entries, 0 < depth) →
      (∀ entry ∈ entries, Nested (depth - 1) entry.2) → Nested depth (.map entries)

theorem number_append (bytes : List UInt8) (byte : UInt8) :
    number (bytes ++ [byte]) = 256 * number bytes + byte.toNat := by
  rw [number, List.reverse_append, List.reverse_singleton, List.singleton_append, List.map_cons,
    Nat.ofDigits_cons, Nat.add_comm]
  rfl

/-- A reader that shifts the bytes in one after the other gets their number. -/
theorem bigEndian_eq_number (bytes : List UInt8) : bigEndian bytes = number bytes := by
  induction bytes using List.reverseRecOn with
  | nil => rfl
  | append_singleton bytes byte ih =>
    rw [number_append, ← ih, bigEndian, List.foldl_append]
    rfl

theorem number_lt (bytes : List UInt8) : number bytes < 2 ^ (8 * bytes.length) := by
  have hlt := @Nat.ofDigits_lt_base_pow_length 256 (bytes.reverse.map UInt8.toNat) (by decide) <| by
    intro digit hdigit
    obtain ⟨byte, -, rfl⟩ := List.mem_map.mp hdigit
    exact byte.toNat_lt
  rw [List.length_map, List.length_reverse] at hlt
  rwa [pow_mul]

/-- Two's complement: a number with its highest bit set stands for a negative integer. -/
theorem twosComplement_eq (bytes : List UInt8) : twosComplement bytes =
    if number bytes < 2 ^ (8 * bytes.length - 1) then (number bytes : ℤ)
    else number bytes - 2 ^ (8 * bytes.length) := by
  have hlt := number_lt bytes
  have hhalf : (2 ^ (8 * bytes.length) + 1) / 2 = 2 ^ (8 * bytes.length - 1) := by
    cases bytes with
    | nil => rfl
    | cons byte bytes =>
      obtain ⟨bits, hbits⟩ : ∃ bits, 8 * (byte :: bytes).length = bits + 1 :=
        ⟨8 * bytes.length + 7, by rw [List.length_cons]; omega⟩
      rw [hbits, Nat.add_sub_cancel, Nat.pow_succ]
      omega
  rw [twosComplement, Int.bmod_def]
  norm_cast
  rw [Nat.mod_eq_of_lt hlt, hhalf]

/-- No encoding is empty. -/
theorem Encodes.length_pos {value : Value} {bytes : List UInt8} (h : Encodes value bytes) :
    0 < bytes.length := by
  have hheader : ∀ {base limit : ℕ} {wide : List (ℕ × ℕ)} {count : ℕ} {header : List UInt8},
      Header base limit wide count header → 0 < header.length := by
    intro base limit wide count header hheader
    cases hheader with
    | short => simp
    | wide => simp
  cases h with
  | string h | array h | map h =>
    have hpos := hheader h
    rw [List.length_append]
    omega
  | nil | false | true | positive | negative | unsigned | signed => simp

/-- The elements of an array have a byte each at least. -/
theorem length_le_flatten {items : List (Value × List UInt8)}
    (h : ∀ item ∈ items, Encodes item.1 item.2) :
    items.length ≤ (items.map (·.2)).flatten.length := by
  induction items with
  | nil => simp
  | cons item items ih =>
    rw [List.forall_mem_cons] at h
    have hpos := h.1.length_pos
    have hrest := ih h.2
    rw [List.map_cons, List.flatten_cons, List.length_append, List.length_cons]
    omega

/-- The entries of a map have two bytes each at least. -/
theorem two_mul_length_le_flatten {items : List Entry}
    (hkeys : ∀ item ∈ items, Encodes (.string item.key) item.keyText)
    (hvalues : ∀ item ∈ items, Encodes item.value item.text) :
    2 * items.length ≤ (items.map fun item => item.keyText ++ item.text).flatten.length := by
  induction items with
  | nil => simp
  | cons item items ih =>
    rw [List.forall_mem_cons] at hkeys hvalues
    have hkey := hkeys.1.length_pos
    have hvalue := hvalues.1.length_pos
    have hrest := ih hkeys.2 hvalues.2
    rw [List.map_cons, List.flatten_cons, List.length_append, List.length_append, List.length_cons]
    omega

end MessagePackFormat
