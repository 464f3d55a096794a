/-!
Places in a text, counted in bytes of its UTF-8 form and shown as line and column.
-/
namespace Untyped.Text

def byteLength : List Char → Nat
  | [] => 0
  | c :: rest => c.utf8Size + byteLength rest

structure Position where
  line : Nat
  /-- The number of bytes after the last newline before the place. -/
  column : Nat
deriving DecidableEq

namespace Position

def start : Position := ⟨1, 0⟩

/-- The place that is `bytes` bytes after the given one; it may lie inside a character. -/
def advance (place : Position) : List Char → Nat → Position
  | [], _ => place
  | _, 0 => place
  | c :: rest, bytes =>
    if bytes < c.utf8Size then ⟨place.line, place.column + bytes⟩
    else if c = '\n' then advance ⟨place.line + 1, 0⟩ rest (bytes - 1)
    else advance ⟨place.line, place.column + c.utf8Size⟩ rest (bytes - c.utf8Size)

def ofBytes (text : List Char) (bytes : Nat) : Position := start.advance text bytes

end Position

end Untyped.Text
