/-!
# Console — lines of input

Input is read line by line, and each line must be UTF-8.  Lines end with a line feed, which the last
one may lack; what follows the last line feed is no line if it is empty.
-/

namespace RingOverlay.Console

/-- The byte that ends a line. -/
def lineFeed : UInt8 := 10

/-- The lines of an input, without their line feeds. -/
def rawLines (input : List UInt8) : List (List UInt8) :=
  let pieces := input.splitOn lineFeed
  if pieces.getLast? = some [] then pieces.dropLast else pieces

/-- The text of a line, if it is UTF-8. -/
def lineText? (line : List UInt8) : Option String := String.fromUTF8? line.toByteArray

end RingOverlay.Console
