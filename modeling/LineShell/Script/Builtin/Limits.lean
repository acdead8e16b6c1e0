import LineShell.Script.Operands

/-!
# Commands on rights and limits

The commands of the script language that settle which rights new files lack and how much a process
may use.
-/

namespace LineShell

namespace ScriptM

/-! ## Rights -/

/-- A number in base eight with at least so many digits. -/
def octalText (width n : Nat) : String :=
  let digits := Nat.toDigits 8 n
  String.ofList (List.replicate (width - digits.length) '0' ++ digits)

/-- The rights by their letters, as bits of a digit in base eight. -/
def rightLetters : List (Char × Nat) := [('r', 4), ('w', 2), ('x', 1)]

/-- Those who have rights by their letters, with the place of their digit. -/
def ownerLetters : List (Char × Nat) := [('u', 0o100), ('g', 0o10), ('o', 0o1)]

/-- All rights of everyone. -/
def allRights : Nat := 0o777

/-- Rights in letters. -/
def rightsText (rights : Nat) : String :=
  ",".intercalate (ownerLetters.map fun (owner, place) =>
    let digit := rights / place % 8
    let letters := rightLetters.filter fun (_, bit) => digit &&& bit != 0
    owner.toString ++ "=" ++ String.ofList (letters.map Prod.fst))

/-- The places that a text begins with, and what follows. Without any, everyone is meant. -/
def ownersOf (places : Nat) : List Char → Nat × List Char
  | [] => (places, [])
  | c :: rest =>
    if c == 'a' then ownersOf (places ||| 0o111) rest
    else
      match ownerLetters.lookup c with
      | some place => ownersOf (places ||| place) rest
      | none => (places, c :: rest)

/-- The digit that letters at the start of a text make up, and what follows. The letter of an owner
stands for the rights that this one has. -/
def rightsOf (before digit : Nat) : List Char → Nat × List Char
  | [] => (digit, [])
  | c :: rest =>
    match rightLetters.lookup c, ownerLetters.lookup c with
    | some bit, _ => rightsOf before (digit ||| bit) rest
    | none, some place => rightsOf before (digit ||| before / place % 8) rest
    | none, none =>
      if c == 'X' then
        rightsOf before (if before &&& 0o111 != 0 then digit ||| 1 else digit) rest
      else if c == 's' then rightsOf before digit rest
      else (digit, c :: rest)

/-- The rights without some others. -/
def without (rights others : Nat) : Nat := rights &&& (allRights - others)

/-- The rights that a text in letters makes of others; none when it cannot be read. -/
def changedRights? (before : Nat) : Nat → Nat → Nat → List Char → Option Nat
  | 0, _, _, _ => none
  | _, _, rights, [] => some rights
  | steps + 1, places, rights, cs =>
    let (places, cs) := ownersOf places cs
    let places := if places = 0 then 0o111 else places
    match cs with
    | [] => some rights
    | sign :: cs =>
      let (digit, cs) := rightsOf before 0 cs
      let given := digit * places
      let result? :=
        match sign with
        | '-' => some (without rights given)
        | '=' => some (without rights (places * 7) ||| given)
        | '+' => some (rights ||| given)
        | _ => none
      match result?, cs with
      | none, _ => none
      | some rights, ',' :: cs => changedRights? before steps 0 rights cs
      | some rights, [] => some rights
      | some rights, c :: cs =>
        if c == '=' || c == '+' || c == '-' then
          changedRights? before steps places rights (c :: cs)
        else none

/-- Settles which rights new files lack, or writes it. -/
def umaskCommand (words : List String) : ScriptM Nat := do
  let (options, words) ← takeOptions "S" words
  let mask ← ask (.mask none)
  match words with
  | [] =>
    if options.isEmpty then say (octalText 4 mask ++ "\n")
    else say (rightsText (allRights - mask) ++ "\n")
  | word :: _ =>
    let cs := word.toList
    let new ←
      if cs.head?.any Char.isDigit then
        if cs.all fun c => '0' ≤ c && c ≤ '7' then
          pure (cs.foldl (fun n c => 8 * n + (c.toNat - '0'.toNat)) 0 % (allRights + 1))
        else fail ("Illegal number: " ++ word)
      else
        let rights := allRights - mask
        match changedRights? rights (cs.length + 1) 0 rights cs with
        | some rights => pure (allRights - rights)
        | none => fail ("Illegal mode: " ++ word)
    discard (ask (.mask (some new)))
  return 0

/-! ## Limits -/

/-- What the use of can be limited: a letter, a name, the resource, and the size of the unit in
which it is counted. -/
structure LimitKind where
  letter : Char
  name : String
  resource : Resource
  unit : Nat
  deriving Repr

/-- What the use of can be limited. -/
def limitKinds : List LimitKind :=
  [⟨'t', "time(seconds)", .time, 1⟩, ⟨'f', "file(blocks)", .fileSize, 512⟩,
    ⟨'d', "data(kbytes)", .data, 1024⟩, ⟨'s', "stack(kbytes)", .stack, 1024⟩,
    ⟨'c', "coredump(blocks)", .coreSize, 512⟩, ⟨'m', "memory(kbytes)", .memory, 1024⟩,
    ⟨'l', "locked memory(kbytes)", .lockedMemory, 1024⟩, ⟨'p', "process", .processes, 1⟩,
    ⟨'n', "nofiles", .openFiles, 1⟩, ⟨'v', "vmemory(kbytes)", .addressSpace, 1024⟩,
    ⟨'w', "locks", .locks, 1⟩, ⟨'r', "rtprio", .priority, 1⟩]

/-- The text for a bound in units. -/
def boundText (unit : Nat) : Option Nat → String
  | none => "unlimited\n"
  | some n => toString (n / unit) ++ "\n"

/-- The bound that a word stands for. -/
def boundOf (unit : Nat) (word : String) : ScriptM (Option Nat) := do
  if word == "unlimited" then return none
  if word.any fun c => !c.isDigit then fail "bad number"
  return some ((Text.digits? word.toList).getD 0 * unit)

/-- Settles how much may be used, or writes it. -/
def ulimitCommand (words : List String) : ScriptM Nat := do
  let letters := String.ofList (limitKinds.map LimitKind.letter)
  let (options, words) ← takeOptions ("HSa" ++ letters) words
  let chosen := options.map Prod.fst
  let isAll := chosen.contains 'a'
  let setsHard := chosen.contains 'H' || !chosen.contains 'S'
  let setsSoft := chosen.contains 'S' || !chosen.contains 'H'
  let shown (limit : Limit) : Option Nat := if setsSoft then limit.soft else limit.hard
  let letter := (chosen.reverse.find? fun c => letters.toList.contains c).getD 'f'
  let limitOf (kind : LimitKind) : ScriptM Limit := do
    match ← ask (.limit kind.resource none) with
    | .ok limit => return limit
    | .error _ => return .unlimited
  match limitKinds.find? fun kind => kind.letter == letter with
  | none => return 0
  | some kind =>
    match words with
    | [] =>
      if isAll then
        for kind in limitKinds do
          let gap := String.ofList (List.replicate (20 - kind.name.length) ' ')
          say (kind.name ++ gap ++ " " ++ boundText kind.unit (shown (← limitOf kind)))
      else say (boundText kind.unit (shown (← limitOf kind)))
      return 0
    | word :: rest =>
      if isAll || !rest.isEmpty then fail "too many arguments"
      let bound ← boundOf kind.unit word
      let before ← limitOf kind
      let limit : Limit :=
        ⟨if setsSoft then bound else before.soft, if setsHard then bound else before.hard⟩
      match ← ask (.limit kind.resource (some limit)) with
      | .ok _ => return 0
      | .error e => fail ("error setting limit: " ++ e.description)

end ScriptM

end LineShell
