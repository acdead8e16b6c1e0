import LineShell.Number.Layout
import LineShell.Script.Arithmetic

/-!
# Formatted output of scripts

A format is written once for every group of arguments that it takes, and at least once. Missing
arguments count as empty. What is wrong with an argument is said, and the output goes on; what is
wrong with the format ends it.
-/

namespace LineShell

namespace Script

/-! ## Escapes -/

/-- The character that a letter after a backslash stands for. -/
def escapeOf? (c : Char) : Option Char :=
  match c with
  | 'n' => some '\n'
  | 't' => some '\t'
  | 'r' => some '\r'
  | 'a' => some '\x07'
  | 'b' => some '\x08'
  | 'e' => some '\x1b'
  | 'f' => some '\x0c'
  | 'v' => some '\x0b'
  | '\\' => some '\\'
  | _ => none

/-- Whether a character is an octal digit. -/
def isOctal (c : Char) : Bool := '0' ≤ c && c ≤ '7'

/-- The value of up to so many octal digits and what follows them. -/
def octal (digits : Nat) (value : Nat) : List Char → Nat × List Char
  | [] => (value, [])
  | c :: rest =>
    match digits with
    | 0 => (value, c :: rest)
    | digits + 1 =>
      if isOctal c then octal digits (8 * value + (c.toNat - '0'.toNat)) rest
      else (value, c :: rest)

/-- The character that the text behind a backslash stands for and what follows it. A backslash
that begins no escape stands for itself. -/
def escape (cs : List Char) : Char × List Char :=
  match cs with
  | [] => ('\\', [])
  | c :: rest =>
    if isOctal c then
      match octal 3 0 (c :: rest) with
      | (value, rest) => (Char.ofNat (value % 256), rest)
    else
      match escapeOf? c with
      | some replacement => (replacement, rest)
      | none => ('\\', c :: rest)

/-- A text with its escapes replaced, as far as the escape that ends all output, and whether there
is one. An octal number may have a zero in front of its digits. -/
def unescape : Nat → List Char → List Char → List Char × Bool
  | 0, found, _ => (found.reverse, false)
  | steps + 1, found, cs =>
    match cs with
    | [] => (found.reverse, false)
    | '\\' :: 'c' :: _ => (found.reverse, true)
    | '\\' :: '0' :: rest =>
      match octal 3 0 rest with
      | (value, rest) => unescape steps (Char.ofNat (value % 256) :: found) rest
    | '\\' :: rest =>
      match escape rest with
      | (c, rest) => unescape steps (c :: found) rest
    | c :: rest => unescape steps (c :: found) rest

/-- An argument with its escapes replaced, and whether it ends all output. -/
def unescaped (text : String) : String × Bool :=
  match unescape (text.length + 1) [] text.toList with
  | (cs, isLast) => (String.ofList cs, isLast)

/-! ## Formats -/

/-- A number in a format. -/
inductive FormatNumber where
  | absent
  | given (n : Nat)
  /-- The next argument. -/
  | argument
  deriving DecidableEq, Repr

/-- The place for an argument. -/
structure FormatPlace where
  /-- The place as it is written. -/
  text : String
  flags : List Char
  width : FormatNumber
  precision : FormatNumber
  conversion : Char
  deriving DecidableEq, Repr

/-- Reads a number of a format. -/
def formatNumber (cs : List Char) : FormatNumber × List Char :=
  match cs with
  | '*' :: rest => (.argument, rest)
  | cs =>
    let digits := cs.takeWhile fun c => c.isDigit || c == '*'
    match Text.digits? digits with
    | some n => (.given n, cs.drop digits.length)
    | none => (.absent, cs.drop digits.length)

/-- Reads the place that a text behind a percent sign describes; none when it has no letter. -/
def formatPlace? (cs : List Char) : Option (FormatPlace × List Char) :=
  let flags := cs.takeWhile fun c => c == '#' || c == '-' || c == '+' || c == ' ' || c == '0'
  let (width, rest) := formatNumber (cs.drop flags.length)
  let (precision, rest) :=
    match rest with
    | '.' :: rest =>
      match formatNumber rest with
      | (.absent, rest) => (.given 0, rest)
      | found => found
    | rest => (.absent, rest)
  match rest with
  | [] => none
  | c :: after =>
    let text := "%" ++ String.ofList (cs.take (cs.length - after.length))
    some (⟨text, flags, width, precision, c⟩, after)

/-! ## Output -/

/-- What has been written by a format so far. -/
structure Printed where
  output : String
  /-- What is wrong with arguments, the last complaint first. -/
  complaints : List String
  /-- The arguments that have not been used. -/
  arguments : List String
  deriving DecidableEq, Repr

/-- How the output of a format ends. -/
inductive PrintingEnd where
  | complete
  /-- By an escape. -/
  | stopped
  /-- By what is wrong with the format. -/
  | wrong (message : String)
  deriving DecidableEq, Repr

/-- The next argument, and the arguments behind it. -/
def Printed.take (p : Printed) : String × Printed :=
  (p.arguments.headD "", { p with arguments := p.arguments.tail })

/-- The integer in front of a text, with the sign and what follows the digits. -/
def leadingInteger (text : String) : Int × List Char :=
  let cs := text.toList.dropWhile Arithmetic.isSpace
  let (isNegative, digits) :=
    match cs with
    | '-' :: rest => (true, rest)
    | '+' :: rest => (false, rest)
    | cs => (false, cs)
  match digits with
  | c :: _ =>
    if c.isDigit then
      let (n, rest) := Arithmetic.readNumeral digits
      (if isNegative then -(n : Int) else n, rest)
    else (0, text.toList)
  | [] => (0, text.toList)

/-- The complaint about a number in front of a text, when something follows it. -/
def conversionFault (text : String) (rest : List Char) : String :=
  text ++
    if rest.length == text.length then ": expected numeric value" else ": not completely converted"

/-- The complaint about a number that cannot be represented. -/
def rangeFault (text : String) : String := text ++ ": Numerical result out of range"

/-- The integer that an argument stands for, and what is wrong with it. A quote in front stands
for the number of the character behind it. -/
def integerOf (isSigned : Bool) (text : String) : Int × Option String :=
  match text.toList with
  | '\x22' :: rest | '\x27' :: rest => (((rest.head?.map Char.toNat).getD 0 : Nat), none)
  | _ =>
    let (n, rest) := leadingInteger text
    let least : Int := if isSigned then -Arithmetic.greatest - 1 else 1 - Arithmetic.modulus
    let most : Int := if isSigned then Arithmetic.greatest else (Arithmetic.modulus : Int) - 1
    let value := if n < least then (if isSigned then least else most) else min n most
    let complaint :=
      if !rest.isEmpty then some (conversionFault text rest)
      else if n != value then some (rangeFault text)
      else none
    (value, complaint)

/-- The digits of a number. -/
def digitsOf (base : Nat) (n : Nat) : List Char := Nat.toDigits base n

/-- A text in so many columns. -/
def padded (leftAligned : Bool) (width : Nat) (text : String) : String :=
  let blanks := String.ofList (List.replicate (width - text.length) ' ')
  if leftAligned then text ++ blanks else blanks ++ text

/-- A number: its sign, the mark of its base, and its digits with zeros in front. -/
def numberText (sign mark : String) (digits : List Char) (flags : List Char) (width : Nat)
    (precision : Option Nat) : String :=
  let digits := if precision == some 0 && digits == ['0'] then [] else digits
  let isLeft := flags.contains '-'
  let fill :=
    match precision with
    | some n => n - digits.length
    | none =>
      if flags.contains '0' && !isLeft then width - digits.length - sign.length - mark.length
      else 0
  padded isLeft width (sign ++ mark ++ String.ofList (List.replicate fill '0' ++ digits))

/-- The sign in front of a number. -/
def signText (flags : List Char) (isNegative : Bool) : String :=
  if isNegative then "-" else if flags.contains '+' then "+" else if flags.contains ' ' then " "
  else ""

/-- The text for an integer in its place. -/
def renderInteger (conversion : Char) (flags : List Char) (width : Nat) (precision : Option Nat)
    (n : Int) : String :=
  let natural := (n % (Arithmetic.modulus : Int)).toNat
  match conversion with
  | 'd' | 'i' =>
    numberText (signText flags (n < 0)) "" (digitsOf 10 n.natAbs) flags width precision
  | 'u' => numberText "" "" (digitsOf 10 natural) flags width precision
  | 'o' =>
    let digits := digitsOf 8 natural
    let digits := if flags.contains '#' && digits != ['0'] then '0' :: digits else digits
    numberText "" "" digits flags width precision
  | c =>
    let digits := digitsOf 16 natural
    let mark := if flags.contains '#' && natural != 0 then "0x" else ""
    let text := numberText "" mark digits flags width precision
    if c == 'X' then text.map Char.toUpper else text

/-- The binary number that an argument stands for, and what is wrong with it. A quote in front
stands for the number of the character behind it. -/
def binaryOf (text : String) : Binary64 × Option String :=
  match text.toList with
  | '\x22' :: rest | '\x27' :: rest => (.ofNat ((rest.head?.map Char.toNat).getD 0), none)
  | cs =>
    match Binary64.read? (cs.dropWhile Arithmetic.isSpace) with
    | none => (.zero, if cs.isEmpty then none else some (conversionFault text cs))
    | some (n, isOutOfRange, rest) =>
      (n,
        if !rest.isEmpty then some (conversionFault text rest)
        else if isOutOfRange then some (rangeFault text)
        else none)

/-- The text for a binary number in its place. -/
def renderBinary (conversion : Char) (flags : List Char) (width : Nat) (precision : Option Nat)
    (n : Binary64) : String :=
  let (mark, digits) := n.layout conversion.toLower (flags.contains '#') precision
  let flags := if n.hasDigits then flags else flags.filter fun c => c != '0'
  let text := numberText (signText flags n.isNegative) mark digits flags width none
  if conversion.isUpper then text.map Char.toUpper else text

/-- The value of a number in a format. A negative width aligns to the left. -/
def resolveNumber (number : FormatNumber) (p : Printed) : Option Int × Printed :=
  match number with
  | .absent => (none, p)
  | .given n => (some n, p)
  | .argument =>
    match p.take with
    | (text, p) =>
      match integerOf true text with
      | (n, none) => (some n, p)
      | (n, some complaint) => (some n, { p with complaints := complaint :: p.complaints })

/-- Writes an argument in its place. -/
def renderPlace (place : FormatPlace) (p : Printed) : Printed × PrintingEnd :=
  match resolveNumber place.width p with
  | (width?, p) =>
    match resolveNumber place.precision p with
    | (precision?, p) =>
      let flags := if width?.any (· < 0) then '-' :: place.flags else place.flags
      let width := (width?.getD 0).natAbs
      let precision := precision?.bind fun n => if n < 0 then none else some n.toNat
      let isLeft := flags.contains '-'
      let cut (text : String) : String :=
        match precision with
        | some n => String.ofList (text.toList.take n)
        | none => text
      match place.conversion with
      | 's' =>
        match p.take with
        | (text, p) => ({ p with output := p.output ++ padded isLeft width (cut text) }, .complete)
      | 'b' =>
        match p.take with
        | (text, p) =>
          match unescaped text with
          | (text, isLast) =>
            ({ p with output := p.output ++ padded isLeft width (cut text) },
              if isLast then .stopped else .complete)
      | 'c' =>
        match p.take with
        | (text, p) =>
          let c := text.toList.head?.getD '\x00'
          ({ p with output := p.output ++ padded isLeft width c.toString }, .complete)
      | c =>
        if c == 'd' || c == 'i' || c == 'o' || c == 'u' || c == 'x' || c == 'X' then
          match p.take with
          | (text, p) =>
            match integerOf (c == 'd' || c == 'i') text with
            | (n, complaint) =>
              ({ p with
                  output := p.output ++ renderInteger c flags width precision n
                  complaints := complaint.toList ++ p.complaints }, .complete)
        else if ['a', 'e', 'f', 'g'].contains c.toLower then
          match p.take with
          | (text, p) =>
            match binaryOf text with
            | (n, complaint) =>
              ({ p with
                  output := p.output ++ renderBinary c flags width precision n
                  complaints := complaint.toList ++ p.complaints }, .complete)
        else (p, .wrong (place.text ++ ": invalid directive"))

/-- Writes a format once. -/
def renderOnce : Nat → List Char → Printed → Printed × PrintingEnd
  | 0, _, p => (p, .complete)
  | steps + 1, cs, p =>
    match cs with
    | [] => (p, .complete)
    | '%' :: '%' :: rest => renderOnce steps rest { p with output := p.output.push '%' }
    | '%' :: rest =>
      match formatPlace? rest with
      | none => (p, .wrong "missing format character")
      | some (place, rest) =>
        match renderPlace place p with
        | (p, .complete) => renderOnce steps rest p
        | result => result
    | '\\' :: rest =>
      match escape rest with
      | (c, rest) => renderOnce steps rest { p with output := p.output.push c }
    | c :: rest => renderOnce steps rest { p with output := p.output.push c }

/-- Writes a format until no argument is left. A format without places for arguments is written
once. -/
def renderAll (format : List Char) : Nat → Printed → Printed × PrintingEnd
  | 0, p => (p, .complete)
  | rounds + 1, p =>
    match renderOnce (format.length + 1) format p with
    | (next, .complete) =>
      if next.arguments.isEmpty || next.arguments.length == p.arguments.length then
        (next, .complete)
      else renderAll format rounds next
    | result => result

/-- What a format and arguments make up. -/
def format (pattern : String) (arguments : List String) : Printed × PrintingEnd :=
  renderAll pattern.toList (arguments.length + 1) ⟨"", [], arguments⟩

/-- The text of words that are written on one line: with blanks between them, their escapes
replaced, and a line end unless the first word forbids it. -/
def echoText (words : List String) : String :=
  let (words, lineEnd) :=
    match words with
    | "-n" :: rest => (rest, "")
    | words => (words, "\n")
  match unescaped (" ".intercalate words) with
  | (text, isLast) => if isLast then text else text ++ lineEnd

end Script

end LineShell
