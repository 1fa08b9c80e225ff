/-!
# Parts of a text

Whether a text starts with another, and the part of it behind the last of its marks.
-/

namespace Settlement.Text

/-- The text starts with `start`. -/
def startsWith (start s : String) : Bool := start.toList.isPrefixOf s.toList

/-- The characters behind the last `mark`, all of them where there is none. -/
def behindLast (mark : Char) (cs : List Char) : List Char :=
  (cs.reverse.takeWhile (· != mark)).reverse

end Settlement.Text
