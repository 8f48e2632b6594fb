/-!
# Splitting texts

## Main definitions

* `Text.splitAt`: the parts of a text between the occurrences of a character
-/

namespace DealPacing.Text

/-- Split a text at every occurrence of a character. -/
def splitAt (separator : Char) : List Char → List (List Char)
  | [] => [[]]
  | c :: rest =>
    match splitAt separator rest with
    | [] => [[c]]
    | part :: parts => if c == separator then [] :: part :: parts else (c :: part) :: parts

end DealPacing.Text
