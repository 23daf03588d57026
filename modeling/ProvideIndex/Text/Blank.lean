/-!
# White space

The white space characters of Unicode, the words of a line, which are its longest runs without white
space, and trimming at either end.
-/

namespace ProvideIndex.Text

def isBlank (c : Char) : Bool :=
  let n := c.toNat
  (0x09 ≤ n && n ≤ 0x0d) || n == 0x20 || n == 0x85 || n == 0xa0 || n == 0x1680 ||
    (0x2000 ≤ n && n ≤ 0x200a) || n == 0x2028 || n == 0x2029 || n == 0x202f || n == 0x205f ||
    n == 0x3000

/-- The words of a text that follows the characters `word` of an unfinished word. -/
def wordsFrom (word : List Char) : List Char → List (List Char)
  | [] => if word.isEmpty then [] else [word]
  | c :: text =>
    if isBlank c then
      if word.isEmpty then wordsFrom [] text else word :: wordsFrom [] text
    else wordsFrom (word ++ [c]) text

def words (text : List Char) : List (List Char) := wordsFrom [] text

def trimStart (text : List Char) : List Char := text.dropWhile isBlank

def trimEnd (text : List Char) : List Char := (text.reverse.dropWhile isBlank).reverse

end ProvideIndex.Text
