/-!
# Bytes as characters

Scripts handle text as rows of bytes, whatever the bytes mean. Such a row is kept as a text with
one character below 256 for each byte.
-/

namespace LineShell.Text

/-- The text with one character for each byte. -/
def ofOctets (bytes : ByteArray) : String :=
  bytes.foldl (fun text byte => text.push (Char.ofNat byte.toNat)) ""

/-- The bytes of a text with one character for each byte. -/
def toOctets (text : String) : ByteArray :=
  text.foldl (fun bytes c => bytes.push (UInt8.ofNat c.toNat)) .empty

/-- The bytes of a text in UTF-8, each as a character. -/
def octetsOfText (text : String) : String := ofOctets text.toUTF8

/-- The text whose UTF-8 bytes are given as characters. -/
def textOfOctets? (octets : String) : Option String := String.fromUTF8? (toOctets octets)

end LineShell.Text
