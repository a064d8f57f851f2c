/-!
# Comparison without regard to ASCII case

Identifiers of databases are compared letter by letter, where the twenty-six ASCII letters match in
either case and every other character matches itself only.
-/

namespace TierLineage.Text

/-- Whether two texts are equal up to the case of ASCII letters. -/
def sameIgnoringCase (a b : List Char) : Bool :=
  a.map Char.toLower == b.map Char.toLower

/-- Whether two strings are equal up to the case of ASCII letters. -/
def sameStringIgnoringCase (a b : String) : Bool :=
  sameIgnoringCase a.toList b.toList

/-- Whether a text starts with another. -/
def startsWith : List Char → List Char → Bool
  | _, [] => true
  | [], _ :: _ => false
  | c :: cs, d :: ds => c == d && startsWith cs ds

/-- What stands after a leading part, where the text starts with that part. -/
def after? : List Char → List Char → Option (List Char)
  | cs, [] => some cs
  | [], _ :: _ => none
  | c :: cs, d :: ds => if c = d then after? cs ds else none

end TierLineage.Text
