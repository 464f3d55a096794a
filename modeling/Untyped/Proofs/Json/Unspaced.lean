import Mathlib
import Untyped.Proofs.Json.Rendered

/-! What the compact text of a tree is made of. Control characters stand nowhere in it, and outside
the string literals only printing characters of one byte do. Where a literal starts and ends is told
by the quotes and backslashes alone, without reading the text as JSON. -/
namespace Untyped

namespace Text

/-- Where a character stands in a text with string literals. -/
inductive Quoting where
  | outside
  | inside
  | escaped
deriving DecidableEq

def Quoting.next : Quoting → Char → Quoting
  | outside, c => if c = '"' then inside else outside
  | inside, c => if c = '"' then outside else if c = '\\' then escaped else inside
  | escaped, _ => inside

/-- The text with every string literal cut down to the quote that opens it. -/
def unquoted : Quoting → List Char → List Char
  | _, [] => []
  | .outside, c :: rest => c :: unquoted (Quoting.outside.next c) rest
  | place, c :: rest => unquoted (place.next c) rest

example : unquoted .outside ['[', '"', ' ', '\\', '"', ',', '"', ',', '0', ']'] =
    ['[', '"', ',', '0', ']'] := rfl

theorem unquoted_append (place : Quoting) (a b : List Char) :
    unquoted place (a ++ b) = unquoted place a ++ unquoted (a.foldl Quoting.next place) b := by
  induction a generalizing place with
  | nil => rfl
  | cons c a ih => cases place <;> simp [unquoted, ih]

/-- A printing character of one byte, the space not among them. -/
def IsGraphic (c : Char) : Prop := 0x20 < c.toNat ∧ c.toNat < 0x7f

instance (c : Char) : Decidable (IsGraphic c) := inferInstanceAs (Decidable (_ ∧ _))

/-- Without control characters, graphic outside the literals, and leading back to where it starts:
outside a literal every literal is closed, and inside one it goes on. -/
structure Unspaced (place : Quoting) (text : List Char) : Prop where
  printed : ∀ c ∈ text, 0x20 ≤ c.toNat
  returns : text.foldl Quoting.next place = place
  graphic : ∀ c ∈ unquoted place text, IsGraphic c

namespace Unspaced

variable {place : Quoting} {a b : List Char} {c : Char}

theorem nil : Unspaced place [] where
  printed := by simp
  returns := rfl
  graphic := by simp [unquoted]

theorem append (ha : Unspaced place a) (hb : Unspaced place b) : Unspaced place (a ++ b) where
  printed := List.forall_mem_append.2 ⟨ha.printed, hb.printed⟩
  returns := by rw [List.foldl_append, ha.returns, hb.returns]
  graphic := by
    rw [unquoted_append, ha.returns]
    exact List.forall_mem_append.2 ⟨ha.graphic, hb.graphic⟩

theorem flatMap {α : Type} {text : α → List Char} {items : List α}
    (each : ∀ item ∈ items, Unspaced place (text item)) : Unspaced place (items.flatMap text) := by
  induction items with
  | nil => exact nil
  | cons item items ih =>
    obtain ⟨first, rest⟩ := List.forall_mem_cons.1 each
    rw [List.flatMap_cons]
    exact first.append (ih rest)

theorem cons (graphic : IsGraphic c) (other : c ≠ '"') (h : Unspaced .outside a) :
    Unspaced .outside (c :: a) := by
  have stays : Quoting.outside.next c = .outside := if_neg other
  refine ⟨List.forall_mem_cons.2 ⟨graphic.1.le, h.printed⟩, ?_, ?_⟩
  · rw [List.foldl_cons, stays, h.returns]
  · rw [unquoted, stays]
    exact List.forall_mem_cons.2 ⟨graphic, h.graphic⟩

theorem of_graphic (graphic : ∀ c ∈ a, IsGraphic c ∧ c ≠ '"') : Unspaced .outside a := by
  induction a with
  | nil => exact nil
  | cons c a ih =>
    obtain ⟨first, rest⟩ := List.forall_mem_cons.1 graphic
    exact cons first.1 first.2 (ih rest)

theorem plain (printed : 0x20 ≤ c.toNat) (quote : c ≠ '"') (backslash : c ≠ '\\') :
    Unspaced .inside [c] where
  printed := List.forall_mem_singleton.2 printed
  returns := by rw [List.foldl_cons, Quoting.next, if_neg quote, if_neg backslash, List.foldl_nil]
  graphic := by simp [unquoted]

theorem escape (printed : 0x20 ≤ c.toNat) : Unspaced .inside ['\\', c] where
  printed := by simpa using printed
  returns := rfl
  graphic := List.forall_mem_nil _

theorem quoted (h : Unspaced .inside a) : Unspaced .outside ('"' :: (a ++ ['"'])) := by
  have opens : Quoting.outside.next '"' = .inside := rfl
  refine ⟨?_, ?_, ?_⟩
  · exact List.forall_mem_cons.2 ⟨by decide, List.forall_mem_append.2 ⟨h.printed, by simp⟩⟩
  · rw [List.foldl_cons, opens, List.foldl_append, h.returns]
    rfl
  · rw [unquoted, opens, unquoted_append, h.returns]
    exact List.forall_mem_cons.2
      ⟨by decide, List.forall_mem_append.2 ⟨h.graphic, by simp [unquoted]⟩⟩

end Unspaced

end Text

namespace Json
open Text (IsGraphic Unspaced)

theorem unspaced_escapeChar (c : Char) : Unspaced .inside (escapeChar c) := by
  have digit : ∀ k < 16, 0x20 ≤ (Nat.digitChar k).toNat ∧ Nat.digitChar k ≠ '"' ∧
      Nat.digitChar k ≠ '\\' := by decide
  have plainDigit (k : Nat) (below : k < 16) : Unspaced .inside [Nat.digitChar k] :=
    .plain (digit k below).1 (digit k below).2.1 (digit k below).2.2
  unfold escapeChar
  split_ifs with quote backslash _ _ _ _ _ control
  iterate 7 exact .escape (by decide)
  · have zero := plainDigit 0 (by decide)
    have code := zero.append (zero.append
      ((plainDigit (c.toNat / 16) (by omega)).append (plainDigit (c.toNat % 16) (by omega))))
    exact (Unspaced.escape (by decide)).append code
  · exact .plain (by omega) quote backslash

theorem unspaced_writeString (s : String) : Unspaced .outside (writeString s) :=
  .quoted (.flatMap fun c _ => unspaced_escapeChar c)

theorem unspaced_chars (ds : List Digit) : Unspaced .outside (Digit.chars ds) := by
  have graphic : ∀ d : Digit, IsGraphic d.toChar ∧ d.toChar ≠ '"' := by decide
  exact .of_graphic (List.forall_mem_map.2 fun d _ => graphic d)

theorem unspaced_exponent (e : Exponent) : Unspaced .outside e.text := by
  have sign : Unspaced .outside (signText e.sign) := by
    obtain _ | _ | _ := e.sign <;> exact .of_graphic (by simp [signText, IsGraphic])
  have letter : IsGraphic (if e.upper then 'E' else 'e') ∧
      (if e.upper then 'E' else 'e') ≠ '"' := by
    cases e.upper <;> decide
  exact (sign.append (unspaced_chars e.digits)).cons letter.1 letter.2

theorem NumberToken.unspaced_text (t : NumberToken) : Unspaced .outside t.text := by
  have fraction : Unspaced .outside (fractionText t.fraction) := by
    rw [fractionText]
    split
    · exact .nil
    · exact (unspaced_chars _).cons (by decide) (by decide)
  have exponent : Unspaced .outside (t.exponent.elim [] Exponent.text) := by
    cases t.exponent with
    | none => exact .nil
    | some e => exact unspaced_exponent e
  have unsigned : Unspaced .outside t.unsigned :=
    (unspaced_chars _).append (fraction.append exponent)
  rw [text]
  split
  · exact unsigned.cons (by decide) (by decide)
  · exact unsigned

theorem unspaced_joined {texts : List (List Char)}
    (each : ∀ text ∈ texts, Unspaced .outside text) : Unspaced .outside (Element.joined texts) := by
  cases texts with
  | nil => exact .nil
  | cons first rest =>
    obtain ⟨head, tail⟩ := List.forall_mem_cons.1 each
    exact head.append (.flatMap fun text mem => (tail text mem).cons (by decide) (by decide))

theorem unspaced_enclosed {first last : Char} {a : List Char}
    (graphic : IsGraphic first ∧ IsGraphic last) (other : first ≠ '"' ∧ last ≠ '"')
    (h : Unspaced .outside a) : Unspaced .outside (first :: (a ++ [last])) :=
  (h.append (Unspaced.nil.cons graphic.2 other.2)).cons graphic.1 other.1

/-- The compact text of a tree has no control characters, and nothing but graphic ones outside its
string literals, however deep they stand. -/
theorem Raw.unspaced_write (r : Raw) : ∀ depth, Unspaced .outside (r.write .compact depth) := by
  induction r using Raw.induction with
  | null => exact fun _ => .of_graphic (by simp [write, IsGraphic])
  | bool b => cases b <;> exact fun _ => .of_graphic (by simp [write, IsGraphic])
  | number n =>
    obtain ⟨t, text⟩ := Element.exists_token_write n
    intro depth
    rw [write, ← text]
    exact t.unspaced_text
  | string s => exact fun _ => unspaced_writeString s
  | array items ih =>
    intro depth
    rw [write_compact_array]
    exact unspaced_enclosed (by decide) (by decide)
      (unspaced_joined (List.forall_mem_map.2 fun item mem => ih item mem (depth + 1)))
  | object members ih =>
    intro depth
    have member : ∀ m ∈ members,
        Unspaced .outside (writeString m.1 ++ ':' :: m.2.write .compact (depth + 1)) := by
      intro m mem
      have value := (ih m mem (depth + 1)).cons (c := ':') (by decide) (by decide)
      exact (unspaced_writeString m.1).append value
    rw [write_compact_object]
    exact unspaced_enclosed (by decide) (by decide) (unspaced_joined (List.forall_mem_map.2 member))

theorem unspaced_compact (j : Json) : Unspaced .outside j.compact.toList := by
  rw [compact, String.toList_ofList]
  exact j.raw.unspaced_write 0

end Json

end Untyped
