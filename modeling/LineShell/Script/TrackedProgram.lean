import LineShell.Script.NameTable

/-!
# Names for programs

A script remembers where it has found the programs that it runs by their names.
-/

namespace LineShell

/-- A name and where the program that it stands for was found. -/
structure TrackedProgram where
  name : String
  /-- The place of its directory among those that are searched. -/
  place : Nat
  /-- Whether the program has to be looked for again. -/
  isStale : Bool
  deriving DecidableEq, Repr

namespace TrackedProgram

/-- The table of the programs. -/
def table : NameTable := ⟨31⟩

/-- The program with a name. -/
def find? (name : String) (programs : List TrackedProgram) : Option TrackedProgram :=
  programs.find? fun p => p.name == name

/-- The programs with one more, or with another place for one of them. -/
def put (name : String) (place : Nat) : List TrackedProgram → List TrackedProgram
  | [] => [⟨name, place, false⟩]
  | p :: rest => if p.name == name then ⟨name, place, false⟩ :: rest else p :: put name place rest

/-- The programs without one of them. -/
def remove (name : String) (programs : List TrackedProgram) : List TrackedProgram :=
  programs.filter fun p => p.name != name

/-- The programs, all of which have to be looked for again. -/
def distrust (programs : List TrackedProgram) : List TrackedProgram :=
  programs.map fun p => { p with isStale := true }

end TrackedProgram

end LineShell
