import Interpolation.Text.Printable
import Interpolation.Text.Grapheme

/-!
# Quoted text

A text between double quotes, in which every character that could be misread is escaped: the
quote and the backslash, the common controls by a letter, and all else that is not printable or
joins the character before it by its code point.
-/

namespace Interpolation.Quoted

/-- The escape that stands for a character by its code point. -/
def codePoint (c : Char) : List Char :=
  ['\\', 'u', '{'] ++ Nat.toDigits 16 c.toNat ++ ['}']

/-- What is written for a character between the quotes. -/
def escape (c : Char) : List Char :=
  match c with
  | '\x00' => ['\\', '0']
  | '\t' => ['\\', 't']
  | '\r' => ['\\', 'r']
  | '\n' => ['\\', 'n']
  | '"' => ['\\', '"']
  | '\\' => ['\\', '\\']
  | c => if extendsGrapheme c || !isPrintable c then codePoint c else [c]

/-- The text between quotes. -/
def quote (text : String) : String :=
  String.ofList ('"' :: text.toList.flatMap escape ++ ['"'])

end Interpolation.Quoted
