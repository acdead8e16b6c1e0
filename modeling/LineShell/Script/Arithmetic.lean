import LineShell.Script.Reader.Basic
import LineShell.Script.State
import LineShell.Text.Numeral

/-!
# Arithmetic in scripts

Expressions over integers of sixty-four bits and over variables. Their text is known only when
the parameters in it have been expanded, so it is read when the expression is evaluated.
-/

namespace LineShell

/-- Operations on two integers. -/
inductive ArithmeticOperator where
  | mul
  | div
  | mod
  | add
  | sub
  | shiftLeft
  | shiftRight
  | less
  | lessEqual
  | greater
  | greaterEqual
  | equal
  | different
  | bitAnd
  | bitXor
  | bitOr
  deriving DecidableEq, Repr

/-- Operations on one integer. -/
inductive ArithmeticSign where
  | plus
  | minus
  | isZero
  | complement
  deriving DecidableEq, Repr

/-- Expressions over integers and variables. -/
inductive Arithmetic where
  | number (n : Int)
  | variable (name : String)
  | sign (s : ArithmeticSign) (e : Arithmetic)
  | binary (op : ArithmeticOperator) (left right : Arithmetic)
  | both (left right : Arithmetic)
  | either (left right : Arithmetic)
  | choice (condition yes no : Arithmetic)
  /-- Gives a variable the value of an expression, or that of an operation on both. -/
  | assign (name : String) (op : Option ArithmeticOperator) (e : Arithmetic)
  deriving Repr, Inhabited

/-- A lexical unit of an expression. -/
inductive ArithmeticToken where
  | number (n : Int)
  | name (text : String)
  | operator (symbol : String)
  /-- What no expression holds. -/
  | unknown
  deriving DecidableEq, Repr

namespace Arithmetic

/-! ## Integers -/

/-- The number of integers of sixty-four bits. -/
def modulus : Nat := 0x10000000000000000

/-- The greatest integer of sixty-four bits. -/
def greatest : Int := 0x7FFFFFFFFFFFFFFF

/-- The integer of sixty-four bits that agrees with an integer in its lowest bits. -/
def wrap (n : Int) : Int := Int.bmod n modulus

/-- The bits of an integer, as a natural number. -/
def bits (n : Int) : Nat := (n % (modulus : Int)).toNat

/-- The value of a digit in any base up to sixteen. -/
def digit? (base : Nat) (c : Char) : Option Nat :=
  let n :=
    if c.isDigit then c.toNat - '0'.toNat
    else if 'a' ≤ c ∧ c ≤ 'f' then c.toNat - 'a'.toNat + 10
    else if 'A' ≤ c ∧ c ≤ 'F' then c.toNat - 'A'.toNat + 10
    else base
  if n < base then some n else none

/-- Reads digits as far as they go, and stops at the greatest integer. -/
def readDigits (base : Nat) (value : Nat) : List Char → Nat × List Char
  | [] => (value, [])
  | c :: rest =>
    match digit? base c with
    | some d => readDigits base (base * value + d) rest
    | none => (value, c :: rest)

/-- Reads a numeral in base sixteen, eight or ten, which its start tells. -/
def readNumeral (cs : List Char) : Nat × List Char :=
  match cs with
  | '0' :: 'x' :: c :: rest | '0' :: 'X' :: c :: rest =>
    if (digit? 16 c).isSome then readDigits 16 0 (c :: rest) else (0, cs.drop 1)
  | '0' :: rest => readDigits 8 0 rest
  | cs => readDigits 10 0 cs

/-- Whether a character is a blank in numerals. -/
def isSpace (c : Char) : Bool := c == ' ' || (0x09 ≤ c.toNat && c.toNat ≤ 0x0D)

/-- The integer that a text stands for, with blanks around it and a sign before it; a text of
blanks alone stands for zero where that is allowed. The base is ten unless the text may tell. -/
def ofText? (mayBeBlank tellsBase : Bool) (text : String) : Option Int :=
  let cs := text.toList.dropWhile isSpace
  let (isNegative, digits) :=
    match cs with
    | '-' :: rest => (true, rest)
    | '+' :: rest => (false, rest)
    | cs => (false, cs)
  match digits with
  | [] => if cs.isEmpty && mayBeBlank then some 0 else none
  | c :: _ =>
    if !c.isDigit then none
    else
      let (n, rest) := if tellsBase then readNumeral digits else readDigits 10 0 digits
      let value : Int := if isNegative then -(n : Int) else n
      if rest.all isSpace && -greatest - 1 ≤ value && value ≤ greatest then some value else none

/-! ## Reading -/

/-- The symbols of the operators, longer ones before those that they begin with. -/
def symbols : List (List Char × String) :=
  ["<<=", ">>=", "<<", ">>", "<=", ">=", "==", "!=", "&&", "||", "*=", "/=", "%=", "+=", "-=",
    "&=", "^=", "|=", "<", ">", "=", "!", "&", "|", "^", "~", "*", "/", "%", "+", "-", "?", ":",
    "(", ")"].map fun symbol => (symbol.toList, symbol)

/-- The operator in front of a text. -/
def symbolAt? (cs : List Char) : Option (String × List Char) :=
  (symbols.find? fun symbol => symbol.1.isPrefixOf cs).map fun symbol =>
    (symbol.2, cs.drop symbol.1.length)

/-- Cuts a text into its lexical units. -/
def tokens : Nat → List Char → List ArithmeticToken
  | 0, _ => []
  | steps + 1, cs =>
    match cs with
    | [] => []
    | c :: rest =>
      if c == ' ' || c == '\t' || c == '\n' then tokens steps rest
      else if c.isDigit then
        match readNumeral (c :: rest) with
        | (n, rest) => .number (min (n : Int) greatest) :: tokens steps rest
      else if ScriptReader.isNameStart c then
        let name := (c :: rest).takeWhile ScriptReader.isNameChar
        .name (String.ofList name) :: tokens steps ((c :: rest).drop name.length)
      else
        match symbolAt? (c :: rest) with
        | some (symbol, rest) => .operator symbol :: tokens steps rest
        | none => .unknown :: tokens steps rest

/-- The operation that a symbol stands for, with its level: the lower, the stronger it binds. -/
def operator? (symbol : String) : Option (ArithmeticOperator × Nat) :=
  match symbol with
  | "*" => some (.mul, 0)
  | "/" => some (.div, 0)
  | "%" => some (.mod, 0)
  | "+" => some (.add, 1)
  | "-" => some (.sub, 1)
  | "<<" => some (.shiftLeft, 2)
  | ">>" => some (.shiftRight, 2)
  | "<" => some (.less, 3)
  | "<=" => some (.lessEqual, 3)
  | ">" => some (.greater, 3)
  | ">=" => some (.greaterEqual, 3)
  | "==" => some (.equal, 4)
  | "!=" => some (.different, 4)
  | "&" => some (.bitAnd, 5)
  | "^" => some (.bitXor, 6)
  | "|" => some (.bitOr, 7)
  | _ => none

/-- The weakest level of the operations on integers; the two connectives are weaker still. -/
def weakestLevel : Nat := 7

/-- The operation that an assignment does on the old value; none at all when a symbol is no
assignment. -/
def assignment? (symbol : String) : Option (Option ArithmeticOperator) :=
  match symbol with
  | "=" => some none
  | "*=" => some (some .mul)
  | "/=" => some (some .div)
  | "%=" => some (some .mod)
  | "+=" => some (some .add)
  | "-=" => some (some .sub)
  | "<<=" => some (some .shiftLeft)
  | ">>=" => some (some .shiftRight)
  | "&=" => some (some .bitAnd)
  | "^=" => some (some .bitXor)
  | "|=" => some (some .bitOr)
  | _ => none

/-- What a reader of expressions looks for. -/
inductive Goal where
  /-- A whole expression. -/
  | whole
  /-- A choice or anything that binds stronger. -/
  | choice
  | either
  | both
  /-- Operations up to a level. -/
  | level (n : Nat)
  | operand
  /-- Further operations of a level behind a first expression. -/
  | more (n : Nat) (left : Arithmetic)

/-- Reads an expression, or finds what is wrong with it. -/
def readGoal : Nat → Goal → List ArithmeticToken →
    Except String (Arithmetic × List ArithmeticToken)
  | 0, _, _ => .error "expression too deep"
  | depth + 1, goal, ts =>
    match goal with
    | .whole =>
      match ts with
      | .name name :: .operator symbol :: rest =>
        match assignment? symbol with
        | some op => do
          let (e, rest) ← readGoal depth .whole rest
          return (.assign name op e, rest)
        | none => readGoal depth .choice ts
      | ts => readGoal depth .choice ts
    | .choice => do
      let (condition, rest) ← readGoal depth .either ts
      match rest with
      | .operator "?" :: rest =>
        let (yes, rest) ← readGoal depth .whole rest
        match rest with
        | .operator ":" :: rest =>
          let (no, rest) ← readGoal depth .choice rest
          return (.choice condition yes no, rest)
        | _ => throw "expecting \x27:\x27"
      | rest => return (condition, rest)
    | .either => do
      let (left, rest) ← readGoal depth .both ts
      match rest with
      | .operator "||" :: rest =>
        let (right, rest) ← readGoal depth .either rest
        return (.either left right, rest)
      | rest => return (left, rest)
    | .both => do
      let (left, rest) ← readGoal depth (.level weakestLevel) ts
      match rest with
      | .operator "&&" :: rest =>
        let (right, rest) ← readGoal depth .both rest
        return (.both left right, rest)
      | rest => return (left, rest)
    | .level 0 => do
      let (left, rest) ← readGoal depth .operand ts
      readGoal depth (.more 0 left) rest
    | .level (n + 1) => do
      let (left, rest) ← readGoal depth (.level n) ts
      readGoal depth (.more (n + 1) left) rest
    | .more n left =>
      match ts with
      | .operator symbol :: rest =>
        match operator? symbol with
        | some (op, level) =>
          if level = n then do
            let (right, rest) ←
              readGoal depth (match n with | 0 => .operand | n + 1 => .level n) rest
            readGoal depth (.more n (.binary op left right)) rest
          else .ok (left, ts)
        | none => .ok (left, ts)
      | ts => .ok (left, ts)
    | .operand =>
      match ts with
      | .number n :: rest => .ok (.number n, rest)
      | .name name :: rest => .ok (.variable name, rest)
      | .operator "(" :: rest => do
        let (e, rest) ← readGoal depth .whole rest
        match rest with
        | .operator ")" :: rest => return (e, rest)
        | _ => throw "expecting \x27)\x27"
      | .operator "+" :: rest => do
        let (e, rest) ← readGoal depth .operand rest
        return (.sign .plus e, rest)
      | .operator "-" :: rest => do
        let (e, rest) ← readGoal depth .operand rest
        return (.sign .minus e, rest)
      | .operator "!" :: rest => do
        let (e, rest) ← readGoal depth .operand rest
        return (.sign .isZero e, rest)
      | .operator "~" :: rest => do
        let (e, rest) ← readGoal depth .operand rest
        return (.sign .complement e, rest)
      | _ => .error "expecting primary"

/-- The expression that a text is, or what is wrong with it. -/
def ofText (text : String) : Except String Arithmetic := do
  let ts := tokens (text.length + 1) text.toList
  let (e, rest) ← readGoal (16 * ts.length + 16) .whole ts
  if rest.isEmpty then return e else throw "expecting EOF"

/-! ## Evaluating -/

/-- The value of a truth. -/
def ofTruth (b : Bool) : Int := if b then 1 else 0

/-- The value of an operation; none when it would divide by zero. -/
def operate (op : ArithmeticOperator) (a b : Int) : Option Int :=
  match op with
  | .mul => some (wrap (a * b))
  | .div => if b = 0 then none else some (wrap (a.tdiv b))
  | .mod => if b = 0 then none else some (wrap (a.tmod b))
  | .add => some (wrap (a + b))
  | .sub => some (wrap (a - b))
  | .shiftLeft => some (wrap ((bits a <<< (bits b % 64) : Nat) : Int))
  | .shiftRight => some (a >>> (bits b % 64))
  | .less => some (ofTruth (decide (a < b)))
  | .lessEqual => some (ofTruth (decide (a ≤ b)))
  | .greater => some (ofTruth (decide (b < a)))
  | .greaterEqual => some (ofTruth (decide (b ≤ a)))
  | .equal => some (ofTruth (a == b))
  | .different => some (ofTruth (a != b))
  | .bitAnd => some (wrap ((bits a &&& bits b : Nat) : Int))
  | .bitXor => some (wrap ((bits a ^^^ bits b : Nat) : Int))
  | .bitOr => some (wrap ((bits a ||| bits b : Nat) : Int))

/-- The value of a sign before an integer. -/
def applySign (s : ArithmeticSign) (n : Int) : Int :=
  match s with
  | .plus => n
  | .minus => wrap (-n)
  | .isZero => ofTruth (n == 0)
  | .complement => -n - 1

open ScriptM

/-- The integer that a variable holds; a missing one holds zero. -/
def valueOf (name : String) : ScriptM Int := do
  match ← value? name with
  | none => return 0
  | some text =>
    match ofText? true true text with
    | some n => return n
    | none => fail ("Illegal number: " ++ text)

/-- The value of an operation of an expression that is given as text. -/
def operation (text : String) (op : ArithmeticOperator) (a b : Int) : ScriptM Int :=
  match operate op a b with
  | some n => return n
  | none => fail ("arithmetic expression: division by zero: \"" ++ text ++ "\"")

/-- The value of an expression that is given as text as well. -/
def evaluate (text : String) : Arithmetic → ScriptM Int
  | number n => return n
  | .variable name => valueOf name
  | sign s e => do return applySign s (← evaluate text e)
  | binary op left right => do
    let a ← evaluate text left
    let b ← evaluate text right
    operation text op a b
  | both left right => do
    if (← evaluate text left) == 0 then return 0
    return ofTruth ((← evaluate text right) != 0)
  | either left right => do
    if (← evaluate text left) != 0 then return 1
    return ofTruth ((← evaluate text right) != 0)
  | choice condition yes no => do
    if (← evaluate text condition) != 0 then evaluate text yes else evaluate text no
  | .assign name op e => do
    let n ← evaluate text e
    let n ←
      match op with
      | none => pure n
      | some op => operation text op (← valueOf name) n
    ScriptM.assign name (toString n)
    return n

/-- The value of the expression that a text is. -/
def evaluateText (text : String) : ScriptM Int :=
  match ofText text with
  | .ok e => evaluate text e
  | .error message => fail ("arithmetic expression: " ++ message ++ ": \"" ++ text ++ "\"")

end Arithmetic

end LineShell
