/-!
# Blank characters and lines

Surrounding blanks never matter to the shell, and text files are read line by line.
This file fixes which characters are blank, how a text is trimmed and where its lines end.
-/

namespace LineShell.Text

/-- The characters with the Unicode property White_Space, all twenty-five of them. -/
def isBlank (c : Char) : Bool :=
  let n := c.toNat
  (0x09 ≤ n && n ≤ 0x0D) || n == 0x20 || n == 0x85 || n == 0xA0 || n == 0x1680 ||
    (0x2000 ≤ n && n ≤ 0x200A) || n == 0x2028 || n == 0x2029 || n == 0x202F ||
    n == 0x205F || n == 0x3000

/-- Characters from the first one that is not blank. -/
def dropBlanks (cs : List Char) : List Char := cs.dropWhile isBlank

/-- Characters up to the last one that is not blank. -/
def dropBlanksEnd (cs : List Char) : List Char := (cs.reverse.dropWhile isBlank).reverse

/-- A text without the blanks at either end. -/
def trim (s : String) : String := String.ofList (dropBlanksEnd (dropBlanks s.toList))

/-- A text without the blanks at its end. -/
def trimEnd (s : String) : String := String.ofList (dropBlanksEnd s.toList)

/-- The pieces between the occurrences of a separator, empty ones included; never none. -/
def pieces (separator : Char) (cs : List Char) : List (List Char) :=
  cs.foldr (fun c found =>
    if c = separator then [] :: found
    else match found with
      | [] => [[c]]
      | piece :: rest => (c :: piece) :: rest) [[]]

/-- A line without the one carriage return that may stand before its line feed. -/
def dropReturn (line : List Char) : List Char :=
  if line.getLast? = some '\r' then line.dropLast else line

/-- The lines of a text. A line ends at a line feed or at a carriage return before one; the last
line may lack its end, and nothing follows a final line feed. -/
def lines (cs : List Char) : List (List Char) :=
  let found := pieces '\n' cs
  let ended := found.dropLast.map dropReturn
  match found.getLast? with
  | none | some [] => ended
  | some last => ended ++ [last]

end LineShell.Text
