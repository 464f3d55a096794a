import Untyped.Text.Position

/-!
Why and where a text is not JSON. A failure is located by the number of bytes that follow its
place, so that text put before it does not change it.
-/
namespace Untyped.Json

open Text (byteLength)

inductive Reason where
  | endInValue
  | endInList
  | endInObject
  | endInString
  | expectedWord
  | expectedValue
  | expectedColon
  | expectedCommaOrBracket
  | expectedCommaOrBrace
  | trailingComma
  | trailingCharacters
  | keyNotString
  | controlCharacter
  | invalidEscape
  | loneSurrogate
  | unpairedSurrogate
  | invalidNumber
  | numberOutOfRange
  | recursionLimit
deriving DecidableEq

namespace Reason

def message : Reason → String
  | endInValue => "EOF while parsing a value"
  | endInList => "EOF while parsing a list"
  | endInObject => "EOF while parsing an object"
  | endInString => "EOF while parsing a string"
  | expectedWord => "expected ident"
  | expectedValue => "expected value"
  | expectedColon => "expected `:`"
  | expectedCommaOrBracket => "expected `,` or `]`"
  | expectedCommaOrBrace => "expected `,` or `\x7d`"
  | trailingComma => "trailing comma"
  | trailingCharacters => "trailing characters"
  | keyNotString => "key must be a string"
  | controlCharacter => "control character (\\u0000-\\u001F) found while parsing a string"
  | invalidEscape => "invalid escape"
  | loneSurrogate => "lone leading surrogate in hex escape"
  | unpairedSurrogate => "unexpected end of hex escape"
  | invalidNumber => "invalid number"
  | numberOutOfRange => "number out of range"
  | recursionLimit => "recursion limit exceeded"

end Reason

structure Failure where
  reason : Reason
  /-- The number of bytes of the text after the place. -/
  left : Nat
deriving DecidableEq

namespace Failure

/-- The failure placed `bytes` bytes after the start of `rest`, at most at its end. -/
def after (bytes : Nat) (reason : Reason) (rest : List Char) : Failure :=
  ⟨reason, byteLength rest - bytes⟩

def atEnd (reason : Reason) : Failure := ⟨reason, 0⟩

def position (text : List Char) (failure : Failure) : Text.Position :=
  .ofBytes text (byteLength text - failure.left)

end Failure

end Untyped.Json
