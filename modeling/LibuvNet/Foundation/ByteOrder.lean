import Mathlib.Tactic.Ring
import Mathlib.Tactic.NormNum

/-!
# Fixed-width byte encodings of naturals

A natural number is written as exactly `width` bytes, in either byte order, and read back modulo
`256 ^ width`.  The big-endian layout is the reverse of the little-endian one, so every law is
proved once, for the little-endian digits, and transported.  The 32-bit words used by binary
headers are the width-four case.
-/

namespace LibuvNet.Foundation

/-- The order in which a host stores the bytes of a word. -/
inductive ByteOrder where
  | little
  | big
  deriving DecidableEq, Repr

/-- The `width` low bytes of a natural, least significant byte first. -/
def lowBytes : ℕ → ℕ → List UInt8
  | 0, _ => []
  | width + 1, value => UInt8.ofNat value :: lowBytes width (value / 256)

/-- The natural whose base-256 digits, least significant first, are the given bytes. -/
def ofLowBytes : List UInt8 → ℕ
  | [] => 0
  | byte :: bytes => byte.toNat + 256 * ofLowBytes bytes

@[simp]
theorem lowBytes_length (width value : ℕ) : (lowBytes width value).length = width := by
  induction width generalizing value with
  | zero => rfl
  | succ width ih => simp only [lowBytes, List.length_cons, ih]

theorem ofLowBytes_lowBytes (width value : ℕ) :
    ofLowBytes (lowBytes width value) = value % 256 ^ width := by
  induction width generalizing value with
  | zero => simp [lowBytes, ofLowBytes, Nat.mod_one]
  | succ width ih =>
    have hbyte : (UInt8.ofNat value).toNat = value % 256 := by simp
    calc ofLowBytes (lowBytes (width + 1) value)
        = (UInt8.ofNat value).toNat + 256 * ofLowBytes (lowBytes width (value / 256)) := rfl
      _ = value % 256 + 256 * (value / 256 % 256 ^ width) := by rw [hbyte, ih]
      _ = value % 256 ^ (width + 1) := by rw [pow_succ', Nat.mod_mul]

theorem ofLowBytes_lt (bytes : List UInt8) : ofLowBytes bytes < 256 ^ bytes.length := by
  induction bytes with
  | nil => simp [ofLowBytes]
  | cons byte bytes ih =>
    have hbyte : byte.toNat < 256 := byte.toNat_lt
    rw [ofLowBytes, List.length_cons, pow_succ]
    omega

theorem lowBytes_ofLowBytes (bytes : List UInt8) :
    lowBytes bytes.length (ofLowBytes bytes) = bytes := by
  induction bytes with
  | nil => rfl
  | cons byte bytes ih =>
    have hbyte : byte.toNat < 256 := byte.toNat_lt
    have hdiv : (byte.toNat + 256 * ofLowBytes bytes) / 256 = ofLowBytes bytes := by omega
    have hhead : UInt8.ofNat (byte.toNat + 256 * ofLowBytes bytes) = byte := by
      apply UInt8.toNat_inj.mp
      rw [UInt8.toNat_ofNat']
      omega
    calc lowBytes (bytes.length + 1) (byte.toNat + 256 * ofLowBytes bytes)
        = UInt8.ofNat (byte.toNat + 256 * ofLowBytes bytes) ::
            lowBytes bytes.length ((byte.toNat + 256 * ofLowBytes bytes) / 256) := rfl
      _ = byte :: bytes := by rw [hhead, hdiv, ih]

namespace ByteOrder

variable (order : ByteOrder)

/-- Store the `width` low bytes of a natural in the host's order. -/
def encode (width value : ℕ) : List UInt8 :=
  match order with
  | little => lowBytes width value
  | big => (lowBytes width value).reverse

/-- Read bytes stored in the host's order. -/
def decode (bytes : List UInt8) : ℕ :=
  match order with
  | little => ofLowBytes bytes
  | big => ofLowBytes bytes.reverse

@[simp]
theorem encode_length (width value : ℕ) : (order.encode width value).length = width := by
  cases order <;> simp [encode]

theorem decode_encode (width value : ℕ) :
    order.decode (order.encode width value) = value % 256 ^ width := by
  cases order <;> simp [encode, decode, ofLowBytes_lowBytes]

theorem decode_lt (bytes : List UInt8) : order.decode bytes < 256 ^ bytes.length := by
  cases order with
  | little => exact ofLowBytes_lt bytes
  | big => simpa [decode] using ofLowBytes_lt bytes.reverse

theorem encode_decode (bytes : List UInt8) :
    order.encode bytes.length (order.decode bytes) = bytes := by
  cases order with
  | little => exact lowBytes_ofLowBytes bytes
  | big =>
    have hreverse := lowBytes_ofLowBytes bytes.reverse
    rw [List.length_reverse] at hreverse
    simp only [encode, decode, hreverse, List.reverse_reverse]

/-- The four bytes of a 32-bit word in memory. -/
def encodeWord (word : UInt32) : List UInt8 :=
  order.encode 4 word.toNat

/-- The 32-bit word stored in four bytes of memory. -/
def decodeWord (bytes : List UInt8) : UInt32 :=
  UInt32.ofNat (order.decode bytes)

@[simp]
theorem encodeWord_length (word : UInt32) : (order.encodeWord word).length = 4 :=
  order.encode_length 4 word.toNat

@[simp]
theorem decodeWord_encodeWord (word : UInt32) :
    order.decodeWord (order.encodeWord word) = word := by
  apply UInt32.toNat_inj.mp
  have hword : word.toNat < 256 ^ 4 := word.toNat_lt
  have hdecode : order.decode (order.encode 4 word.toNat) = word.toNat := by
    rw [decode_encode, Nat.mod_eq_of_lt hword]
  calc (UInt32.ofNat (order.decode (order.encode 4 word.toNat))).toNat
      = (UInt32.ofNat word.toNat).toNat := by rw [hdecode]
    _ = word.toNat := by rw [UInt32.ofNat_toNat]

theorem encodeWord_decodeWord {bytes : List UInt8} (hlength : bytes.length = 4) :
    order.encodeWord (order.decodeWord bytes) = bytes := by
  have hlt : order.decode bytes < 2 ^ 32 := by
    simpa [hlength] using order.decode_lt bytes
  have hbytes := order.encode_decode bytes
  rw [hlength] at hbytes
  calc order.encode 4 (UInt32.ofNat (order.decode bytes)).toNat
      = order.encode 4 (order.decode bytes) := by
        rw [UInt32.toNat_ofNat', Nat.mod_eq_of_lt hlt]
    _ = bytes := hbytes

/-- The bytes of the word read the same in both directions. -/
def Palindromic (word : UInt32) : Prop :=
  little.encodeWord word = big.encodeWord word

instance (word : UInt32) : Decidable (Palindromic word) := by
  unfold Palindromic
  infer_instance

theorem encodeWord_eq_iff (first second : ByteOrder) (word : UInt32) :
    first.encodeWord word = second.encodeWord word ↔ first = second ∨ Palindromic word := by
  cases first with
  | little =>
    cases second with
    | little => simp
    | big => simp [Palindromic]
  | big =>
    cases second with
    | little => simp [Palindromic, eq_comm]
    | big => simp

/-- A word survives from one order to another if the orders are the same or make no difference. -/
theorem decodeWord_encodeWord_eq_iff (first second : ByteOrder) (word : UInt32) :
    second.decodeWord (first.encodeWord word) = word ↔ first = second ∨ Palindromic word := by
  rw [← encodeWord_eq_iff]
  constructor
  · intro hdecode
    have hencode := second.encodeWord_decodeWord (first.encodeWord_length word)
    rwa [hdecode, eq_comm] at hencode
  · intro hencode
    rw [hencode, decodeWord_encodeWord]

end ByteOrder

end LibuvNet.Foundation
