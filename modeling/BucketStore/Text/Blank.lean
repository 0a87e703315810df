/-
  BucketStore/Text/Blank.lean
  ===========================
  **Blank characters: the Unicode property White_Space.**

  `trim` takes blanks off both ends of a text and leaves those inside.
-/

namespace BucketStore.Text

def isBlank (c : Char) : Bool :=
  let n := c.toNat
  (9 ≤ n && n ≤ 13) || n == 0x20 || n == 0x85 || n == 0xA0 || n == 0x1680 ||
    (0x2000 ≤ n && n ≤ 0x200A) || n == 0x2028 || n == 0x2029 || n == 0x202F || n == 0x205F ||
    n == 0x3000

/-- The characters without the blanks at either end. -/
def trimChars (cs : List Char) : List Char :=
  ((cs.dropWhile isBlank).reverse.dropWhile isBlank).reverse

def trim (s : String) : String := String.ofList (trimChars s.toList)

/-- The text with its ASCII letters in lower case; no other character changes. -/
def lowerAscii (s : String) : String := String.ofList (s.toList.map Char.toLower)

/-- Does `part` occur among the characters? -/
def containsChars (part : List Char) : List Char → Bool
  | [] => part.isEmpty
  | c :: cs => part.isPrefixOf (c :: cs) || containsChars part cs

/-- Does `part` occur in `s`? -/
def containsText (s part : String) : Bool := containsChars part.toList s.toList

example : trim "  a b\t" = "a b" := by decide +kernel
example : lowerAscii "ABc É" = "abc É" := by decide +kernel

end BucketStore.Text
