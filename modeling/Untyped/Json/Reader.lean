import Untyped.Json.Basic
import Untyped.Json.Token

/-!
Reading a JSON tree. Nesting is bounded: a reader for containers is built from a reader for what
stands inside them, one level at a time.
-/
namespace Untyped.Json

abbrev ItemReader := (text : List Char) → Reading Json text

/-! ### Arrays -/

def readMoreItems (item : ItemReader) (text : List Char) : Reading (List Json) text :=
  match h : skipBlank text with
  | [] => .error (.atEnd .endInList)
  | c :: rest =>
    if c = ']' then .ok ((Parsed.one [] c rest).widen (length_le_of_skipBlank h))
    else if c = ',' then
      if (skipBlank rest).head? = some ']' then
        .error (.after 1 .trailingComma (skipBlank rest))
      else
        match item rest with
        | .error e => .error e
        | .ok p => (readMoreItems item p.rest).map fun q =>
            ((p.andThen q List.cons).cons c).widen (length_le_of_skipBlank h)
    else .error (.after 1 .expectedCommaOrBracket (c :: rest))
termination_by text.length
decreasing_by
  exact Nat.lt_trans p.shorter (length_le_of_skipBlank h)

def readItems (item : ItemReader) (text : List Char) : Reading (List Json) text :=
  match h : skipBlank text with
  | [] => .error (.atEnd .endInList)
  | c :: rest =>
    if c = ']' then .ok ((Parsed.one [] c rest).widen (length_le_of_skipBlank h))
    else
      match item (c :: rest) with
      | .error e => .error e
      | .ok p => (readMoreItems item p.rest).map fun q =>
          (p.andThen q List.cons).widen (length_le_of_skipBlank h)

/-! ### Objects -/

def readNamed (item : ItemReader) (text : List Char) : Reading Json text :=
  match h : skipBlank text with
  | [] => .error (.atEnd .endInObject)
  | c :: rest =>
    if c = ':' then (item rest).map fun p => (p.cons c).widen (length_le_of_skipBlank h)
    else .error (.after 1 .expectedColon (c :: rest))

def readMember (item : ItemReader) (text : List Char) : Reading (String × Json) text :=
  match text with
  | [] => .error (.atEnd .endInValue)
  | c :: rest =>
    if c = '"' then
      match readString rest with
      | .error e => .error e
      | .ok name => (readNamed item name.rest).map fun value =>
          (name.andThen value fun name j => (String.ofList name, j)).cons c
    else .error (.after 1 .keyNotString (c :: rest))

def readMoreMembers (item : ItemReader) (text : List Char) : Reading (List (String × Json)) text :=
  match h : skipBlank text with
  | [] => .error (.atEnd .endInObject)
  | c :: rest =>
    if c = '\x7d' then .ok ((Parsed.one [] c rest).widen (length_le_of_skipBlank h))
    else if c = ',' then
      if (skipBlank rest).head? = some '\x7d' then
        .error (.after 1 .trailingComma (skipBlank rest))
      else
        match (readMember item (skipBlank rest)).map (Parsed.widen · (length_skipBlank rest)) with
        | .error e => .error e
        | .ok p => (readMoreMembers item p.rest).map fun q =>
            ((p.andThen q List.cons).cons c).widen (length_le_of_skipBlank h)
    else .error (.after 1 .expectedCommaOrBrace (c :: rest))
termination_by text.length
decreasing_by
  exact Nat.lt_trans p.shorter (length_le_of_skipBlank h)

def readMembers (item : ItemReader) (text : List Char) : Reading (List (String × Json)) text :=
  match h : skipBlank text with
  | [] => .error (.atEnd .endInObject)
  | c :: rest =>
    if c = '\x7d' then .ok ((Parsed.one [] c rest).widen (length_le_of_skipBlank h))
    else
      match readMember item (c :: rest) with
      | .error e => .error e
      | .ok p => (readMoreMembers item p.rest).map fun q =>
          (p.andThen q List.cons).widen (length_le_of_skipBlank h)

/-! ### Trees -/

def readLiteral (letters : List Char) (j : Json) (c : Char) (rest : List Char) :
    Reading Json (c :: rest) :=
  match h : readWord letters rest with
  | .error e => .error e
  | .ok _ => .ok ((Parsed.one j c rest).drop (length_readWord h))

/-- A tree from its first character on. Where there is no reader of items, no container may be
opened. -/
def readTree (inner : Option ItemReader) (c : Char) (rest : List Char) : Reading Json (c :: rest) :=
  if c = 'n' then readLiteral ['u', 'l', 'l'] .null c rest
  else if c = 't' then readLiteral ['r', 'u', 'e'] (.bool true) c rest
  else if c = 'f' then readLiteral ['a', 'l', 's', 'e'] (.bool false) c rest
  else if c = '-' then (readNumber true rest).map fun p => (p.map .number).cons c
  else if (Digit.ofChar? c).isSome then (readNumber false (c :: rest)).map (Parsed.map .number)
  else if c = '"' then
    (readString rest).map fun p => (p.map fun cs => .string (String.ofList cs)).cons c
  else if c = '[' then
    match inner with
    | none => .error (.after 1 .recursionLimit (c :: rest))
    | some item => (readItems item rest).map fun p => (p.map .ofItems).cons c
  else if c = '\x7b' then
    match inner with
    | none => .error (.after 1 .recursionLimit (c :: rest))
    | some item => (readMembers item rest).map fun p => (p.map .ofMembers).cons c
  else .error (.after 1 .expectedValue (c :: rest))

def readItem (inner : Option ItemReader) (text : List Char) : Reading Json text :=
  match h : skipBlank text with
  | [] => .error (.atEnd .endInValue)
  | c :: rest => (readTree inner c rest).map (Parsed.widen · (length_le_of_skipBlank h))

/-- A tree after blanks, with at most the given number of nested containers. -/
def readNested : Nat → ItemReader
  | 0 => readItem none
  | depth + 1 => readItem (some (readNested depth))

def maxDepth : Nat := 127

def readChars (text : List Char) : Except Failure Json :=
  match readNested maxDepth text with
  | .error e => .error e
  | .ok p =>
    match skipBlank p.rest with
    | [] => .ok p.value
    | c :: rest => .error (.after 1 .trailingCharacters (c :: rest))

/-- The tree that a whole text stands for. -/
def read (text : String) : Except Failure Json := readChars text.toList

end Untyped.Json
