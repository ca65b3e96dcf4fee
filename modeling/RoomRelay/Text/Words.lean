/-!
# Words of a line

A line is split at the characters of the Unicode property White_Space. Its words are the
maximal runs of other characters, so no word is empty.
-/

namespace RoomRelay.Text

/-- The characters of the Unicode property White_Space. -/
def isWhiteSpace (c : Char) : Bool :=
  let n := c.toNat
  (0x09 ≤ n && n ≤ 0x0D) || n == 0x20 || n == 0x85 || n == 0xA0 || n == 0x1680 ||
    (0x2000 ≤ n && n ≤ 0x200A) || n == 0x2028 || n == 0x2029 || n == 0x202F ||
    n == 0x205F || n == 0x3000

/-- The words of a character list, given the letters of the word being read, last one first. -/
def wordsFrom (word : List Char) : List Char → List (List Char)
  | [] => if word.isEmpty then [] else [word.reverse]
  | c :: rest =>
    if isWhiteSpace c then
      if word.isEmpty then wordsFrom [] rest else word.reverse :: wordsFrom [] rest
    else wordsFrom (c :: word) rest

/-- The maximal runs of characters that are not white space, in order. -/
def words (line : String) : List String :=
  (wordsFrom [] line.toList).map String.ofList

end RoomRelay.Text
