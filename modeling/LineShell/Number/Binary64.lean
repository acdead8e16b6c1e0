/-!
# Binary numbers of sixty-four bits

A number is a whole number of fifty-three bits times a power of two. Other numbers are rounded to
the nearest of these, and halfway between two of them to the one with an even whole number. All
this is exact arithmetic on whole numbers.
-/

namespace LineShell

/-- A quotient of whole numbers. The lower one is never zero. -/
structure Quotient where
  upper : Nat
  lower : Nat
  deriving DecidableEq, Repr

namespace Quotient

/-- A power of a base. -/
def power (base : Nat) : Nat → Nat
  | 0 => 1
  | n + 1 => base * power base n

/-- The quotient times a power of a base. -/
def scale (base : Nat) (exponent : Int) (q : Quotient) : Quotient :=
  if 0 ≤ exponent then ⟨q.upper * power base exponent.natAbs, q.lower⟩
  else ⟨q.upper, q.lower * power base exponent.natAbs⟩

/-- The nearest whole number, and of two that are equally near the even one. -/
def round (q : Quotient) : Nat :=
  let whole := q.upper / q.lower
  let rest := 2 * (q.upper % q.lower)
  if rest < q.lower then whole
  else if q.lower < rest then whole + 1
  else if whole % 2 = 0 then whole
  else whole + 1

/-- The exponent of the first digit in base ten. The quotient must not be zero. -/
def firstPlace (q : Quotient) : Int :=
  let digits (n : Nat) : Int := (Nat.toDigits 10 n).length
  let place := digits q.upper - digits q.lower
  let unit := scale 10 place ⟨1, 1⟩
  if unit.upper * q.lower ≤ q.upper * unit.lower then place else place - 1

end Quotient

/-- A binary number without its sign. -/
inductive Magnitude where
  /-- A whole number times two to the power of the exponent. -/
  | finite (significand : Nat) (exponent : Int)
  | infinite
  /-- No number at all. -/
  | undefined
  deriving DecidableEq, Repr

namespace Magnitude

/-- The number of bits of a significand. -/
def precision : Nat := 53

/-- The least exponent. -/
def leastExponent : Int := -1074

/-- The greatest exponent. -/
def greatestExponent : Int := 971

/-- The nearest binary number. -/
def nearest (q : Quotient) : Magnitude :=
  if q.upper = 0 then finite 0 leastExponent
  else
    let guess : Int := (q.upper.log2 : Int) - q.lower.log2 - (precision - 1)
    let scaled := q.scale 2 (-guess)
    let isSmall := scaled.upper / scaled.lower < 1 <<< (precision - 1)
    let exponent := max (if isSmall then guess - 1 else guess) leastExponent
    let significand := (q.scale 2 (-exponent)).round
    let (significand, exponent) :=
      if significand = 1 <<< precision then (significand / 2, exponent + 1)
      else (significand, exponent)
    if greatestExponent < exponent then infinite else finite significand exponent

/-- The value as a quotient. -/
def quotient (significand : Nat) (exponent : Int) : Quotient :=
  Quotient.scale 2 exponent ⟨significand, 1⟩

/-- Whether a binary number is too far from a quotient, because the quotient is too great, or so
small that bits are lost. -/
def isOutOfRange (q : Quotient) : Magnitude → Bool
  | finite significand exponent =>
    let value := quotient significand exponent
    significand < 1 <<< (precision - 1) && value.upper * q.lower != q.upper * value.lower
  | infinite => true
  | undefined => false

end Magnitude

/-- A binary number. -/
structure Binary64 where
  isNegative : Bool
  magnitude : Magnitude
  deriving DecidableEq, Repr

namespace Binary64

/-- The number zero. -/
def zero : Binary64 := ⟨false, .finite 0 Magnitude.leastExponent⟩

/-- A whole number. -/
def ofNat (n : Nat) : Binary64 := ⟨false, .nearest ⟨n, 1⟩⟩

/-! ## Reading -/

/-- The value of a digit in a base up to sixteen. -/
def digit? (base : Nat) (c : Char) : Option Nat :=
  let n :=
    if c.isDigit then c.toNat - '0'.toNat
    else if c.isAlpha then c.toLower.toNat - 'a'.toNat + 10
    else base
  if n < base then some n else none

/-- The number that digits stand for, how many they are, and what follows. -/
def takeDigits (base : Nat) (value count : Nat) : List Char → Nat × Nat × List Char
  | [] => (value, count, [])
  | c :: rest =>
    match digit? base c with
    | some d => takeDigits base (base * value + d) (count + 1) rest
    | none => (value, count, c :: rest)

/-- The exponent behind a mark, and what follows; none when no digits stand there. -/
def exponent? (mark : Char) (cs : List Char) : Option (Int × List Char) :=
  match cs with
  | c :: rest =>
    if c.toLower != mark then none
    else
      let (isNegative, rest) :=
        match rest with
        | '-' :: rest => (true, rest)
        | '+' :: rest => (false, rest)
        | rest => (false, rest)
      match takeDigits 10 0 0 rest with
      | (_, 0, _) => none
      | (value, _, rest) => some (if isNegative then -(value : Int) else value, rest)
  | [] => none

/-- Exponents beyond this make any number with so few digits too great or too small. -/
def farExponent (count : Nat) : Int := 2000 + 4 * count

/-- A number in front of a text. -/
structure Reading where
  magnitude : Magnitude
  isOutOfRange : Bool
  rest : List Char

/-- The number in a base that digits, a point and an exponent behind a mark make up. The exponent
is one of another base. -/
def readNumeral? (base exponentBase placesPerDigit : Nat) (mark : Char) (cs : List Char) :
    Option Reading :=
  let (value, whole, rest) := takeDigits base 0 0 cs
  let (value, count, after) :=
    match rest with
    | '.' :: rest => takeDigits base value whole rest
    | rest => (value, whole, rest)
  if count = 0 then none
  else
    let (exponent, after) := (exponent? mark after).getD (0, after)
    let bound := farExponent count
    let exponent := max (-bound) (min bound exponent) - (placesPerDigit * (count - whole) : Nat)
    let q := Quotient.scale exponentBase exponent ⟨value, 1⟩
    let magnitude := Magnitude.nearest q
    some ⟨magnitude, magnitude.isOutOfRange q, after⟩

/-- What follows a word in front of a text, in letters of either case. -/
def behind? (word : String) (cs : List Char) : Option (List Char) :=
  let front := String.ofList ((cs.take word.length).map Char.toLower)
  if front == word then some (cs.drop word.length) else none

/-- What follows a remark in parentheses. -/
def behindRemark (cs : List Char) : List Char :=
  match cs with
  | '(' :: rest =>
    match rest.dropWhile fun c => c.isAlphanum || c == '_' with
    | ')' :: rest => rest
    | _ => cs
  | cs => cs

/-- The number without a sign in front of a text. -/
def readMagnitude? (cs : List Char) : Option Reading :=
  match behind? "0x" cs with
  | some digits => (readNumeral? 16 2 4 'p' digits).orElse fun _ => readNumeral? 10 10 1 'e' cs
  | none =>
    match behind? "infinity" cs, behind? "inf" cs, behind? "nan" cs with
    | some rest, _, _ | none, some rest, _ => some ⟨.infinite, false, rest⟩
    | none, none, some rest => some ⟨.undefined, false, behindRemark rest⟩
    | none, none, none => readNumeral? 10 10 1 'e' cs

/-- The number in front of a text, whether it is out of range, and what follows. -/
def read? (cs : List Char) : Option (Binary64 × Bool × List Char) :=
  let (isNegative, cs) :=
    match cs with
    | '-' :: rest => (true, rest)
    | '+' :: rest => (false, rest)
    | cs => (false, cs)
  (readMagnitude? cs).map fun found =>
    (⟨isNegative, found.magnitude⟩, found.isOutOfRange, found.rest)

end Binary64

end LineShell
