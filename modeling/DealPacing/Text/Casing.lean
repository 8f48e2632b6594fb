import DealPacing.Text.CasingTable

/-!
# Lower and upper case

Texts are mapped to lower and upper case character by character, some characters becoming several.
The capital sigma is the one character whose lower case depends on its place: at the end of a word
it has a form of its own.

## Main definitions

* `Text.lowercase`, `Text.uppercase`: the case mappings of a text
* `Text.endsWord`: a sigma between two texts is at the end of a word
-/

namespace DealPacing.Text

/-- The image of a code point in a list of runs. -/
def mapped? (runs : List CaseRun) (n : Nat) : Option Nat := runs.findSome? (·.image? n)

/-- The characters of a list of code points. -/
def ofCodePoints (ns : List Nat) : List Char := ns.map Char.ofNat

/-- The lower case of a character, wherever it stands. -/
def lowerChar (c : Char) : List Char :=
  if c.toNat < 0x80 then [c.toLower]
  else
    match lowerExpansions.lookup c.toNat with
    | some ns => ofCodePoints ns
    | none => [((mapped? lowerRuns c.toNat).map Char.ofNat).getD c]

/-- The upper case of a character. -/
def upperChar (c : Char) : List Char :=
  if c.toNat < 0x80 then [c.toUpper]
  else
    match upperExpansions.lookup c.toNat with
    | some ns => ofCodePoints ns
    | none => [((mapped? upperRuns c.toNat).map Char.ofNat).getD c]

/-- The character is cased and word ends do not look through it. -/
def isCased (c : Char) : Bool := casedRanges.any (·.contains c.toNat)

/-- Word ends look through the character. -/
def isCaseIgnorable (c : Char) : Bool := caseIgnorableRanges.any (·.contains c.toNat)

/-- The nearest character that word ends do not look through is cased. -/
def meetsCased (cs : List Char) : Bool :=
  match cs.dropWhile isCaseIgnorable with
  | c :: _ => isCased c
  | [] => false

/-- A letter between the text `before`, given last character first, and the text `after` is at the
end of a word. -/
def endsWord (before after : List Char) : Bool := meetsCased before && !meetsCased after

/-- The capital sigma and its two lower-case forms. -/
def capitalSigma : Char := '\u03a3'
@[inherit_doc capitalSigma] def smallSigma : Char := '\u03c3'
@[inherit_doc capitalSigma] def finalSigma : Char := '\u03c2'

/-- The lower case of a text that follows `before`, which is given last character first. -/
def lowerChars (before : List Char) : List Char → List Char
  | [] => []
  | c :: rest =>
    let image :=
      if c == capitalSigma then [if endsWord before rest then finalSigma else smallSigma]
      else lowerChar c
    image ++ lowerChars (c :: before) rest

/-- The lower case of a text. -/
def lowercase (s : String) : String := String.ofList (lowerChars [] s.toList)

/-- The upper case of a text. -/
def uppercase (s : String) : String := String.ofList (s.toList.flatMap upperChar)

/-- Two texts differ at most in the case of Latin letters. -/
def sameIgnoringLatinCase (a b : String) : Bool :=
  a.toList.map Char.toLower == b.toList.map Char.toLower

end DealPacing.Text
