import Untyped.Json.Basic

/-!
The text of a JSON tree. One writer serves both forms; a layout says what stands between the
brackets, the members and the names.
-/
namespace Untyped.Json

/-- What is written between the tokens of a tree. -/
structure Layout where
  /-- What precedes an item or a closing bracket at a depth. -/
  gap : Nat → List Char
  colon : List Char

namespace Layout

def compact : Layout := ⟨fun _ => [], [':']⟩

/-- A line for each item, indented by two spaces a level. -/
def indented : Layout := ⟨fun depth => '\n' :: List.replicate (2 * depth) ' ', [':', ' ']⟩

end Layout

def escapeChar (c : Char) : List Char :=
  if c = '"' then ['\\', '"']
  else if c = '\\' then ['\\', '\\']
  else if c = '\x08' then ['\\', 'b']
  else if c = '\x0c' then ['\\', 'f']
  else if c = '\n' then ['\\', 'n']
  else if c = '\r' then ['\\', 'r']
  else if c = '\t' then ['\\', 't']
  else if c.toNat < 0x20 then
    ['\\', 'u', '0', '0', Nat.digitChar (c.toNat / 16), Nat.digitChar (c.toNat % 16)]
  else [c]

def writeString (s : String) : List Char :=
  '"' :: (s.toList.flatMap escapeChar ++ ['"'])

namespace Raw

mutual

/-- The text of a tree whose brackets stand at the depth. -/
def write (layout : Layout) (depth : Nat) : Raw → List Char
  | null => ['n', 'u', 'l', 'l']
  | bool true => ['t', 'r', 'u', 'e']
  | bool false => ['f', 'a', 'l', 's', 'e']
  | number n => n.write
  | string s => writeString s
  | array [] => ['[', ']']
  | array (item :: items) =>
    '[' :: (layout.gap (depth + 1) ++ write layout (depth + 1) item ++
      writeItems layout depth items)
  | object [] => ['\x7b', '\x7d']
  | object ((name, value) :: members) =>
    '\x7b' :: (layout.gap (depth + 1) ++ writeString name ++ layout.colon ++
      write layout (depth + 1) value ++ writeMembers layout depth members)

def writeItems (layout : Layout) (depth : Nat) : List Raw → List Char
  | [] => layout.gap depth ++ [']']
  | item :: items =>
    ',' :: (layout.gap (depth + 1) ++ write layout (depth + 1) item ++
      writeItems layout depth items)

def writeMembers (layout : Layout) (depth : Nat) : List (String × Raw) → List Char
  | [] => layout.gap depth ++ ['\x7d']
  | (name, value) :: members =>
    ',' :: (layout.gap (depth + 1) ++ writeString name ++ layout.colon ++
      write layout (depth + 1) value ++ writeMembers layout depth members)

end

end Raw

def write (layout : Layout) (j : Json) : List Char := j.raw.write layout 0

def compact (j : Json) : String := String.ofList (j.write .compact)

def indented (j : Json) : String := String.ofList (j.write .indented)

end Untyped.Json
