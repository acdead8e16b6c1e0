import LineShell.Script.Arithmetic

/-!
# Options and operands of commands

The words behind the name of a command begin with its options. Letters that share a hyphen are
options of their own; one that takes a text takes the rest of its word, or the next word.
-/

namespace LineShell

namespace ScriptM

/-- Whether a letter is an option, and if so whether it takes a text. The known letters have a
colon behind them when they do. -/
def optionKind? (c : Char) : List Char → Option Bool
  | [] => none
  | known :: ':' :: rest => if known == c then some true else optionKind? c rest
  | known :: rest => if known == c then some false else optionKind? c rest

/-- Takes the options off some words, the first letters of which have been taken off already, or
finds what is wrong with them. -/
def readOptions (known : List Char) (letters : List Char) (words : List String) :
    Except String (List (Char × String) × List String) :=
  match letters with
  | [] =>
    match words with
    | [] => .ok ([], [])
    | word :: rest =>
      match word.toList with
      | ['-', '-'] => .ok ([], rest)
      | '-' :: c :: more => readOptions known (c :: more) rest
      | _ => .ok ([], word :: rest)
  | c :: more =>
    let found (text : String) :
        Except String (List (Char × String) × List String) →
          Except String (List (Char × String) × List String) :=
      fun result => result.map fun (options, rest) => ((c, text) :: options, rest)
    match optionKind? c known with
    | none => .error ("Illegal option -" ++ c.toString)
    | some false => found "" (readOptions known more words)
    | some true =>
      if !more.isEmpty then found (String.ofList more) (readOptions known [] words)
      else
        match words with
        | [] => .error ("No arg for -" ++ c.toString ++ " option")
        | word :: rest => found word (readOptions known [] rest)
termination_by (words.length, letters.length)

/-- Takes the options off the words of a command. -/
def takeOptions (known : String) (words : List String) :
    ScriptM (List (Char × String) × List String) :=
  match readOptions known.toList [] words with
  | .ok found => return found
  | .error message => fail message

/-- The bound of the numbers that commands take, two to the power of 31. -/
def numberBound : Nat := 0x80000000

/-- The natural number that a word is. -/
def numberOf (word : String) : ScriptM Nat :=
  match Arithmetic.ofText? false false word with
  | some n =>
    if 0 ≤ n && n < numberBound then return n.toNat else fail ("Illegal number: " ++ word)
  | none => fail ("Illegal number: " ++ word)

/-! ## Settings of the script -/

/-- The settings of a script by name, with their letters. Two of them mean nothing and have
none. -/
def settings : List (String × Option Char) :=
  [("errexit", 'e'), ("noglob", 'f'), ("ignoreeof", 'I'), ("interactive", 'i'), ("monitor", 'm'),
    ("noexec", 'n'), ("stdin", 's'), ("xtrace", 'x'), ("verbose", 'v'), ("vi", 'V'),
    ("emacs", 'E'), ("noclobber", 'C'), ("allexport", 'a'), ("notify", 'b'), ("nounset", 'u'),
    ("privileged", 'p'), ("nolog", none), ("debug", none)]

/-- The sign before a setting that is made or taken back. -/
def signOf (isOn : Bool) : String := if isOn then "-" else "+"

/-- Makes a setting, or takes it back. -/
def changeSetting (isOn : Bool) (letter : Char) : ScriptM Unit :=
  modify fun st =>
    let others := st.options.filter fun c => c != letter
    { st with options := if isOn then letter :: others else others }

/-- The setting that needs a terminal. -/
def terminalSetting : Char := 'm'

/-- Makes a setting that is known. The one that needs a terminal cannot be made. -/
def makeSetting (isOn : Bool) (letter : Char) : ScriptM Unit :=
  if isOn && letter == terminalSetting then
    complain "can\x27t access tty; job control turned off"
  else changeSetting isOn letter

/-- Makes a setting by its letter. -/
def setByLetter (isOn : Bool) (letter : Char) : ScriptM Unit :=
  if settings.any fun s => s.2 == some letter then makeSetting isOn letter
  else fail ("Illegal option " ++ signOf isOn ++ letter.toString)

/-- Makes a setting by its name. -/
def setByName (isOn : Bool) (name : String) : ScriptM Unit :=
  match settings.find? fun s => s.1 == name with
  | some (_, some letter) => makeSetting isOn letter
  | some (_, none) => return
  | none => fail ("Illegal option " ++ signOf isOn ++ "o " ++ name)

/-- Lists the settings for a reader, or as commands that make them. -/
def listSettings (forReader : Bool) : ScriptM Unit := do
  let options := (← get).options
  let isOn (setting : String × Option Char) : Bool := setting.2.any options.contains
  let line (setting : String × Option Char) : String :=
    if forReader then
      let gap := String.ofList (List.replicate (16 - setting.1.length) ' ')
      setting.1 ++ gap ++ (if isOn setting then "on" else "off") ++ "\n"
    else "set " ++ signOf (isOn setting) ++ "o " ++ setting.1 ++ "\n"
  say ((if forReader then "Current option settings\n" else "") ++
    String.join (settings.map line))

/-- Makes the settings that the letters of a word stand for. One of them takes the next word as a
name. Gives the words behind. -/
def setLetters (isOn : Bool) : List Char → List String → ScriptM (List String)
  | [], words => return words
  | 'o' :: more, words =>
    match words with
    | [] => do
      listSettings isOn
      setLetters isOn more []
    | name :: rest => do
      setByName isOn name
      setLetters isOn more rest
  | c :: more, words => do
    setByLetter isOn c
    setLetters isOn more words

/-- Makes the settings that the first words stand for, and gives the words that are to become the
arguments; none when these stay. -/
def takeSettings : Nat → List String → ScriptM (Option (List String))
  | 0, _ => return none
  | _, [] => return none
  | steps + 1, word :: rest =>
    match word.toList with
    | ['-'] => do
      changeSetting false 'x'
      changeSetting false 'v'
      return if rest.isEmpty then none else some rest
    | ['-', '-'] => return some rest
    | '-' :: letters => do takeSettings steps (← setLetters true letters rest)
    | '+' :: letters => do takeSettings steps (← setLetters false letters rest)
    | _ => return some (word :: rest)

end ScriptM

end LineShell
