import Untyped.Text.ExtendingMark
import Untyped.Text.Unprintable

/-!
The form of a text in a dump: between double quotes, with escapes for the quote, the backslash,
the common controls, and every character that has no image of its own.
-/
namespace Untyped.Text

def hexDigits (n : Nat) : List Char := Nat.toDigits 16 n

def quoteChar (c : Char) : List Char :=
  if c = '\x00' then ['\\', '0']
  else if c = '\t' then ['\\', 't']
  else if c = '\r' then ['\\', 'r']
  else if c = '\n' then ['\\', 'n']
  else if c = '\\' then ['\\', '\\']
  else if c = '"' then ['\\', '"']
  else if isExtendingMark c || isUnprintable c then
    ['\\', 'u', '\x7b'] ++ hexDigits c.toNat ++ ['\x7d']
  else [c]

def quote (text : List Char) : List Char :=
  '"' :: (text.flatMap quoteChar ++ ['"'])

end Untyped.Text
