/-!
# Text — columns

Tables and labels are aligned by padding with blanks on the right.  A text that is as wide as its
column, or wider, is left alone: padding never cuts.
-/

namespace RingOverlay.Text

/-- `s`, followed by the blanks it needs to be `width` characters wide. -/
def padRight (width : Nat) (s : String) : String :=
  s ++ String.ofList (List.replicate (width - s.length) ' ')

/-- Lines one below the other, without a line end after the last one. -/
def stack (lines : List String) : String := "\n".intercalate lines

/-- Lines one below the other, each with its line end. -/
def unlines (lines : List String) : String := String.join (lines.map (· ++ "\n"))

end RingOverlay.Text
