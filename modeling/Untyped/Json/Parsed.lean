import Untyped.Json.Failure

/-!
The outcome of reading from the start of a text: what was read and the rest, which is shorter, or
a failure. Readings are put together without looking at the rest again.
-/
namespace Untyped.Json

/-- What was read from the start of a text, and the rest of it. -/
structure Parsed (α : Type) (text : List Char) where
  value : α
  rest : List Char
  shorter : rest.length < text.length

abbrev Reading (α : Type) (text : List Char) := Except Failure (Parsed α text)

namespace Parsed

variable {α β γ : Type} {text : List Char}

def one (value : α) (c : Char) (rest : List Char) : Parsed α (c :: rest) :=
  ⟨value, rest, Nat.lt_succ_self _⟩

def map (f : α → β) (p : Parsed α text) : Parsed β text := ⟨f p.value, p.rest, p.shorter⟩

def cons (c : Char) (p : Parsed α text) : Parsed α (c :: text) :=
  ⟨p.value, p.rest, Nat.lt_succ_of_lt p.shorter⟩

def andThen (p : Parsed α text) (q : Parsed β p.rest) (f : α → β → γ) : Parsed γ text :=
  ⟨f p.value q.value, q.rest, Nat.lt_trans q.shorter p.shorter⟩

def drop {rest : List Char} (p : Parsed α text) (h : rest.length ≤ p.rest.length) :
    Parsed α text :=
  ⟨p.value, rest, Nat.lt_of_le_of_lt h p.shorter⟩

def widen {later : List Char} (p : Parsed α later) (h : later.length ≤ text.length) :
    Parsed α text :=
  ⟨p.value, p.rest, Nat.lt_of_lt_of_le p.shorter h⟩

end Parsed

end Untyped.Json
