import LibuvNet.Foundation.Numeral

/-!
# Dotted quads

An IPv4 address is written as its four octets in decimal, with dots between them.  Reading splits
the text at the dots and accepts it if it is how the four numbers read are written, so exactly the
dotted quads are read, each as its address.
-/

namespace LibuvNet.Foundation

/-- An IPv4 address. -/
structure Ip4 where
  first : UInt8
  second : UInt8
  third : UInt8
  fourth : UInt8
  deriving DecidableEq, Repr

namespace Ip4

/-- `0.0.0.0`. -/
def any : Ip4 := ⟨0, 0, 0, 0⟩

def octets (address : Ip4) : List UInt8 :=
  [address.first, address.second, address.third, address.fourth]

/-- An octet in decimal. -/
def decimal (octet : UInt8) : List Char := Nat.toDigits 10 octet.toNat

/-- How an address is written. -/
def dotted (address : Ip4) : List Char := ['.'].intercalate (address.octets.map decimal)

/-- The octet that a decimal numeral names, modulo 256. -/
def readOctet (numeral : List Char) : UInt8 := .ofNat (Numeral.read 10 numeral 0)

/-- Read an address. -/
def parse (text : List Char) : Option Ip4 :=
  match (text.splitOn '.').map readOctet with
  | [first, second, third, fourth] =>
    let address : Ip4 := ⟨first, second, third, fourth⟩
    if address.dotted = text then some address else none
  | _ => none

theorem isDigit_of_mem_decimal {octet : UInt8} {digit : Char} (hdigit : digit ∈ decimal octet) :
    digit.isDigit :=
  Nat.isDigit_of_mem_toDigits (by decide) (by decide) hdigit

theorem readOctet_decimal (octet : UInt8) : readOctet (decimal octet) = octet := by
  rw [readOctet, decimal, Numeral.read_toDigits (by decide) (by decide), UInt8.ofNat_toNat]

/-- What a dotted quad is made of: digits and dots. -/
theorem isDigit_or_dot {address : Ip4} {char : Char} (hchar : char ∈ address.dotted) :
    char.isDigit ∨ char = '.' := by
  simp only [dotted, octets, List.map_cons, List.map_nil, List.intercalate_cons_cons,
    List.intercalate_singleton, List.mem_append, List.mem_singleton] at hchar
  rcases hchar with (hdigit | hdot) | (hdigit | hdot) | (hdigit | hdot) | hdigit
  all_goals first
    | exact .inl (isDigit_of_mem_decimal hdigit)
    | exact .inr hdot

theorem splitOn_dotted (address : Ip4) :
    address.dotted.splitOn '.' = address.octets.map decimal := by
  apply List.splitOn_intercalate
  · intro numeral hnumeral hdot
    obtain ⟨octet, -, rfl⟩ := List.mem_map.mp hnumeral
    exact absurd (isDigit_of_mem_decimal hdot) (by decide)
  · simp [octets]

theorem parse_dotted (address : Ip4) : parse address.dotted = some address := by
  unfold parse
  rw [splitOn_dotted, List.map_map]
  simp only [octets, List.map_cons, List.map_nil, Function.comp, readOctet_decimal, if_true]

/-- Exactly the dotted quads are read, each as its address. -/
theorem parse_eq_some_iff {text : List Char} {address : Ip4} :
    parse text = some address ↔ text = address.dotted := by
  constructor
  · intro hparse
    unfold parse at hparse
    split at hparse
    · simp only at hparse
      split at hparse
      · rename_i hdotted
        rw [Option.some.injEq] at hparse
        rw [← hparse, hdotted]
      · cases hparse
    · cases hparse
  · rintro rfl
    exact parse_dotted address

end Ip4

end LibuvNet.Foundation
