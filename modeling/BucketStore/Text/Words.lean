/-
  BucketStore/Text/Words.lean
  ===========================
  **Cutting a text into words.**

  Blanks stand between words.  Some characters are marks: a mark is a word of its own,
  whether or not there are blanks around it.
-/

namespace BucketStore.Text

variable (isMark : Char → Bool)

/-- A word ends before such a character. -/
def isBreak (c : Char) : Bool := c == ' ' || isMark c

/-- Puts a word before the words that follow, unless it is empty. -/
def finish (word : List Char) (rest : List String) : List String :=
  if word.isEmpty then rest else String.ofList word :: rest

/-- Cuts a text into words, behind the beginning of one. -/
def cut (word : List Char) : List Char → List String
  | [] => finish word []
  | c :: rest =>
    if isMark c then finish word (String.singleton c :: cut [] rest)
    else if c = ' ' then finish word (cut [] rest)
    else cut (word ++ [c]) rest

def words (text : String) : List String := cut isMark [] text.toList

end BucketStore.Text
