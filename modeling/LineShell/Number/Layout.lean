import LineShell.Number.Binary64

/-!
# How binary numbers are written

A number is written with a set number of places behind the point, with a power of ten, in
whichever of these is shorter, or in base sixteen with a power of two. The sign and what fills a
column are left to others.
-/

namespace LineShell

namespace Binary64

/-- The number of places when none is asked for. -/
def usualPlaces : Nat := 6

/-- Digits with a point in front of the last ones. A point with nothing behind it can be kept. -/
def withPoint (keepsPoint : Bool) (places : Nat) (digits : List Char) : List Char :=
  let digits := List.replicate (places + 1 - digits.length) '0' ++ digits
  let whole := digits.take (digits.length - places)
  let part := digits.drop (digits.length - places)
  if part.isEmpty && !keepsPoint then whole else whole ++ '.' :: part

/-- The exponent of a power, with its sign and at least so many digits. -/
def exponentText (mark : Char) (width : Nat) (exponent : Int) : List Char :=
  let digits := Nat.toDigits 10 exponent.natAbs
  mark :: (if exponent < 0 then '-' else '+') ::
    (List.replicate (width - digits.length) '0' ++ digits)

/-- A number with a set number of places. -/
def fixedText (keepsPoint : Bool) (places : Nat) (q : Quotient) : List Char :=
  withPoint keepsPoint places (Nat.toDigits 10 (q.scale 10 places).round)

/-- The digits of a number, one in front of the point and a set number of them behind it, and the
exponent of the first one. -/
def leadingDigits (places : Nat) (q : Quotient) : Nat × Int :=
  if q.upper = 0 then (0, 0)
  else
    let place := q.firstPlace
    let digits := (q.scale 10 (places - place)).round
    if digits = Quotient.power 10 (places + 1) then (digits / 10, place + 1) else (digits, place)

/-- Digits with a point behind the first of them, without zeros at the end where that is asked
for. -/
def mantissaText (keepsPoint keepsZeros : Bool) (places : Nat) (digits : List Char) : List Char :=
  let text := withPoint keepsPoint places digits
  if keepsZeros || !text.contains '.' then text
  else
    let text := text.reverse.dropWhile fun c => c == '0'
    (if text.head? == some '.' && !keepsPoint then text.tail else text).reverse

/-- A number with a power of ten. -/
def powerText (keepsPoint keepsZeros : Bool) (places : Nat) (q : Quotient) : List Char :=
  match leadingDigits places q with
  | (digits, exponent) =>
    mantissaText keepsPoint keepsZeros places
        (List.replicate (places + 1 - (Nat.toDigits 10 digits).length) '0' ++
          Nat.toDigits 10 digits) ++
      exponentText 'e' 2 exponent

/-- A number with a set number of digits, with a power of ten only when that is needed. -/
def shorterText (keepsZeros : Bool) (digits : Nat) (q : Quotient) : List Char :=
  let places := max digits 1 - 1
  let exponent := (leadingDigits places q).2
  if -4 ≤ exponent && exponent ≤ places then
    let places := (places - exponent).toNat
    mantissaText keepsZeros keepsZeros places (Nat.toDigits 10 (q.scale 10 places).round)
  else powerText keepsZeros keepsZeros places q

/-- The number of digits in base sixteen behind the first bit. -/
def hexPlaces : Nat := 13

/-- A number in base sixteen with a power of two, without the mark of its base. -/
def hexText (keepsPoint : Bool) (places : Option Nat) (significand : Nat) (exponent : Int) :
    List Char :=
  let exponent := if significand = 0 then 0 else exponent + (Magnitude.precision - 1)
  let digits :=
    match places with
    | some n =>
      if n < hexPlaces then (Quotient.scale 16 (n - hexPlaces) ⟨significand, 1⟩).round
      else significand * Quotient.power 16 (n - hexPlaces)
    | none => significand
  let text := Nat.toDigits 16 digits
  let count := places.getD hexPlaces
  mantissaText keepsPoint places.isSome count text ++ exponentText 'p' 1 exponent

/-- The text of a number without its sign, for a letter that tells how it is written, and the mark
of its base. -/
def layout (letter : Char) (keepsPoint : Bool) (places : Option Nat) (n : Binary64) :
    String × List Char :=
  match n.magnitude with
  | .infinite => ("", "inf".toList)
  | .undefined => ("", "nan".toList)
  | .finite significand exponent =>
    let q := Magnitude.quotient significand exponent
    match letter with
    | 'f' => ("", fixedText keepsPoint (places.getD usualPlaces) q)
    | 'e' => ("", powerText keepsPoint true (places.getD usualPlaces) q)
    | 'g' => ("", shorterText keepsPoint (places.getD usualPlaces) q)
    | _ => ("0x", hexText keepsPoint places significand exponent)

/-- Whether the number is written in digits. -/
def hasDigits (n : Binary64) : Bool :=
  match n.magnitude with
  | .finite _ _ => true
  | _ => false

end Binary64

end LineShell
