import LeafFringe.Text.Printable

/-!
# Text in quotes

Quotes and backslashes in a text are escaped, and so is everything that cannot be printed:
some controls by a letter, all else by its code point in hexadecimal.
-/

namespace LeafFringe.Text

/-- The letter that stands for a character after a backslash. -/
def letter? : Char → Option Char
  | '"' => some '"'
  | '\\' => some '\\'
  | '\x00' => some '0'
  | '\t' => some 't'
  | '\n' => some 'n'
  | '\r' => some 'r'
  | _ => none

/-- A code point in hexadecimal, between braces. -/
def codePoint (c : Char) : List Char :=
  '\\' :: 'u' :: '\x7b' :: (Nat.toDigits 16 c.toNat ++ ['\x7d'])

def quoteChar (c : Char) : List Char :=
  match letter? c with
  | some l => ['\\', l]
  | none => if isPrintable c then [c] else codePoint c

/-- The text in quotes. -/
def quote (s : List Char) : List Char := '"' :: (s.flatMap quoteChar ++ ['"'])

end LeafFringe.Text
