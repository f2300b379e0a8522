import SchemaAudit.Text.Basic

/-!
# Blanks, and the pieces between them

* `isBlank`: the characters that count as white space everywhere in the library;
* `strip`, `stripStart`, `stripEnd`: a text without its outer blanks;
* `splitWhere`: the pieces of a text between separators;
* `words`: the runs of characters that are not blank.

The functions work on lists of characters; the ones with a `String` in their name wrap them.
-/

namespace SchemaAudit.Text

/-- The code points of white space: the controls that move the print position, the information
separators, the next-line control, and the spaces and separators of Unicode. -/
def blankRanges : List CodeRange :=
  [(0x09, 0x0d), (0x1c, 0x20), (0x85, 0x85), (0xa0, 0xa0), (0x1680, 0x1680), (0x2000, 0x200a),
   (0x2028, 0x2029), (0x202f, 0x202f), (0x205f, 0x205f), (0x3000, 0x3000)]

/-- White space. The zero-width characters do not belong to it. -/
def isBlank (c : Char) : Bool :=
  inRanges blankRanges c

/-- The text without its leading blanks. -/
def stripStart (cs : List Char) : List Char :=
  cs.dropWhile isBlank

/-- The text without its trailing blanks. -/
def stripEnd : List Char → List Char
  | [] => []
  | c :: cs =>
    match stripEnd cs with
    | [] => if isBlank c then [] else [c]
    | d :: ds => c :: d :: ds

/-- The text without leading and trailing blanks. -/
def strip (cs : List Char) : List Char :=
  stripEnd (stripStart cs)

/-- `strip` on strings. -/
def stripString (s : String) : String :=
  String.ofList (strip s.toList)

/-- Whether a text holds nothing but blanks. -/
def isBlankString (s : String) : Bool :=
  s.toList.all isBlank

/-- The pieces between the characters that satisfy `p`. There is always one piece more than there
are separators. -/
def splitWhere (p : Char → Bool) : List Char → List (List Char)
  | [] => [[]]
  | c :: cs =>
    if p c then [] :: splitWhere p cs
    else
      match splitWhere p cs with
      | [] => [[c]]
      | w :: ws => (c :: w) :: ws

/-- The maximal runs of characters that are not blank. -/
def words (cs : List Char) : List (List Char) :=
  (splitWhere isBlank cs).filter (!·.isEmpty)

/-- The pieces of a string between the occurrences of a character. -/
def splitString (sep : Char) (s : String) : List String :=
  (splitWhere (· == sep) s.toList).map String.ofList

/-- Lists of characters joined with a separator between neighbours. -/
def joinWith (sep : List Char) : List (List Char) → List Char
  | [] => []
  | [w] => w
  | w :: v :: ws => w ++ sep ++ joinWith sep (v :: ws)

/-- Whether `part` occurs somewhere in the text. -/
def occursIn (part : List Char) : List Char → Bool
  | [] => part.isEmpty
  | c :: cs => part.isPrefixOf (c :: cs) || occursIn part cs

end SchemaAudit.Text
