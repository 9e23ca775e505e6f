/-!
White space. A blank is a character with the Unicode property White_Space, which is wider than the
ASCII blanks: it holds the no-break space and the ideographic space too. Trimming and splitting into
words both go by it.
-/

set_option autoImplicit false
set_option relaxedAutoImplicit false

namespace Bindery.Text

def isBlank (c : Char) : Bool :=
  let n := c.toNat
  (9 ≤ n && n ≤ 13) || n == 0x20 || n == 0x85 || n == 0xA0 || n == 0x1680 ||
    (0x2000 ≤ n && n ≤ 0x200A) || n == 0x2028 || n == 0x2029 || n == 0x202F || n == 0x205F ||
    n == 0x3000

def trimStartChars (cs : List Char) : List Char := cs.dropWhile isBlank

def trimEndChars (cs : List Char) : List Char := (cs.reverse.dropWhile isBlank).reverse

def trimChars (cs : List Char) : List Char := trimEndChars (trimStartChars cs)

/-- The maximal runs of non-blank characters, in order. -/
def words (cs : List Char) : List (List Char) :=
  (cs.splitOnP isBlank).filter (!·.isEmpty)

def trim (s : String) : String := String.ofList (trimChars s.toList)

/-- Whether nothing but white space is written. -/
def isBlankText (s : String) : Bool := s.toList.all isBlank

end Bindery.Text
