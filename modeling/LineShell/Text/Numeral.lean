/-!
# Decimal numerals

Operands that must be numbers are read by one rule: an optional sign, then one or more ASCII
digits, and nothing else. Values outside the width of the number are refused.
-/

namespace LineShell.Text

/-- The value of an ASCII digit. -/
def digit? (c : Char) : Option Nat :=
  if '0' ≤ c ∧ c ≤ '9' then some (c.toNat - '0'.toNat) else none

/-- Continues a decimal value with further digits; none when something else stands there. -/
def digitsFrom (value : Nat) : List Char → Option Nat
  | [] => some value
  | c :: rest =>
    match digit? c with
    | none => none
    | some d => digitsFrom (10 * value + d) rest

/-- The value of a non-empty row of digits. -/
def digits? : List Char → Option Nat
  | [] => none
  | cs => digitsFrom 0 cs

/-- The bound of the signed 32-bit integers, two to the power of 31. -/
def signed32Bound : Nat := 0x80000000

/-- Reads a signed 32-bit integer, with either sign in front. -/
def signed32? (s : String) : Option Int :=
  match s.toList with
  | '-' :: rest =>
    (digits? rest).bind fun n => if n ≤ signed32Bound then some (-(n : Int)) else none
  | '+' :: rest => (digits? rest).bind fun n => if n < signed32Bound then some (n : Int) else none
  | cs => (digits? cs).bind fun n => if n < signed32Bound then some (n : Int) else none

/-- Reads an unsigned 64-bit count; only a plus sign may stand in front. -/
def count? (s : String) : Option Nat :=
  match s.toList with
  | '+' :: rest => (digits? rest).bind fun n => if n < UInt64.size then some n else none
  | cs => (digits? cs).bind fun n => if n < UInt64.size then some n else none

end LineShell.Text
