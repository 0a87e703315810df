/-
  BucketStore/Text/Quoted.lean
  ============================
  **Text between double quotes, with escapes.**

  A quote and a backslash are written behind a backslash; tab, line feed,
  carriage return and NUL have letters of their own; any other character that
  does not stand for itself is written `\u{…}` with its number in hexadecimal.
-/
import BucketStore.Text.Printable

namespace BucketStore.Text.Quoted

def escape (c : Char) : List Char :=
  if c = '"' then ['\\', '"']
  else if c = '\\' then ['\\', '\\']
  else if c = '\t' then ['\\', 't']
  else if c = '\n' then ['\\', 'n']
  else if c = '\r' then ['\\', 'r']
  else if c.toNat = 0 then ['\\', '0']
  else if isPrintable c then [c]
  else ['\\', 'u', Char.ofNat 0x7B] ++ Nat.toDigits 16 c.toNat ++ [Char.ofNat 0x7D]

def encode (s : String) : String := String.ofList ('"' :: s.toList.flatMap escape ++ ['"'])

end BucketStore.Text.Quoted
