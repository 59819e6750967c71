/-!
# Indentation

Every text that this library lays out in lines is indented by two blanks a level.
-/

namespace Kay.Text

/-- The blanks in front of a line. -/
def indentation (level : Nat) : String := String.ofList (List.replicate (2 * level) ' ')

end Kay.Text
