import Mathlib
import Untyped.Proofs.Json.Denotation
import Untyped.Proofs.Json.Rendered
import Untyped.Value.Load

/-! The compact text of a tree tells the tree and where it ends. Different numbers are written
differently, an integer never as a double; strings end at their quotes; and the first character of a
text tells of which kind its tree is. -/
namespace Untyped.Json
open Element (joined)

/-- Whatever stands after it and cannot go on a number, the text of a datum tells the datum and
where it ends. -/
def Told {α : Type} (text : α → List Char) (a : α) : Prop :=
  ∀ (b : α) (x y : List Char), Ends x → Ends y → text a ++ x = text b ++ y → a = b ∧ x = y

namespace Number

theorem notMem_writeInt {c : Char} (digit : Digit.ofChar? c = none) (sign : c ≠ '-') (n : Int) :
    c ∉ writeInt n := by
  have digits := NumberToken.notMem_chars digit (Digit.ofNat n.natAbs)
  unfold writeInt
  split
  · simp [sign, digits]
  · exact digits

theorem writeInt_ne_write_float (n : Int) (x : Binary.Finite .double) :
    writeInt n ≠ (float x).write := by
  intro same
  obtain ⟨t, literal⟩ := exists_literalOf x
  have text : t.text = writeInt n := literal.text.trans same.symm
  have absent {c : Char} (digit : Digit.ofChar? c = none) (sign : c ≠ '-') : c ∉ t.text := by
    rw [text]
    exact notMem_writeInt digit sign n
  have marked := literal.marked
  rw [← t.point_mem_text_iff, ← t.letter_mem_text_iff] at marked
  obtain point | lower | upper := marked
  · exact absent (by decide) (by decide) point
  · exact absent (by decide) (by decide) lower
  · exact absent (by decide) (by decide) upper

theorem write_injective : Function.Injective write := by
  intro n m same
  cases n with
  | integer j hj =>
    cases m with
    | integer k hk =>
      obtain ⟨t, text, number⟩ := means_integer j hj
      obtain ⟨u, text', number'⟩ := means_integer k hk
      have texts : t.text ++ [] = u.text ++ [] := by rw [text, text', same]
      have numbers := (NumberToken.number?_eq_of_text_eq ends_nil ends_nil texts).1
      exact Option.some.inj (number.symm.trans (numbers.trans number'))
    | float y => exact absurd same (writeInt_ne_write_float j y)
  | float x =>
    cases m with
    | integer k hk => exact absurd same.symm (writeInt_ne_write_float k x)
    | float y =>
      obtain ⟨t, literal⟩ := exists_literalOf x
      obtain ⟨u, literal'⟩ := exists_literalOf y
      have texts : t.text ++ [] = u.text ++ [] := by
        rw [literal.text, literal'.text]
        exact congrArg (· ++ []) same
      have numerals := (NumberToken.numeral_eq_of_text_eq ends_nil ends_nil texts).1
      have sign : x.negative = y.negative := by
        rw [← literal.negative, ← literal'.negative]
        exact congrArg Numeral.negative numerals
      have magnitude : (x.shortest .even).toRat = (y.shortest .even).toRat := by
        rw [← literal.magnitude_numeral, ← literal'.magnitude_numeral, numerals]
      exact congrArg float (Binary.Finite.eq_of_toRat_shortest_eq sign magnitude)

theorem told_write (n : Number) : Told write n := by
  intro m x y hx hy same
  obtain ⟨t, text⟩ := Element.exists_token_write n
  obtain ⟨u, text'⟩ := Element.exists_token_write m
  rw [← text, ← text'] at same
  obtain ⟨_, rfl⟩ := NumberToken.numeral_eq_of_text_eq hx hy same
  have texts := List.append_cancel_right same
  rw [text, text'] at texts
  exact ⟨write_injective texts, rfl⟩

end Number

theorem writeString_inj {s s' : String} {x y : List Char}
    (same : writeString s ++ x = writeString s' ++ y) : s = s' ∧ x = y := by
  obtain ⟨pieces, text, decodes⟩ := exists_written_name s
  obtain ⟨pieces', text', decodes'⟩ := exists_written_name s'
  rw [← text, ← text'] at same
  simp only [Scalar.text, List.cons_append, List.append_assoc, List.cons.injEq, true_and] at same
  obtain ⟨chars, rest⟩ := decode?_eq_of_text_eq same
  rw [decodes, decodes'] at chars
  exact ⟨String.toList_inj.1 (Option.some.inj chars), rest⟩

section Lists

variable {α : Type} {text : α → List Char} {close : Char} (closing : close = ']' ∨ close = '\x7d')

def behind (text : α → List Char) (close : Char) (later : List α) (rest : List Char) : List Char :=
  (later.map text).flatMap (fun text => ',' :: text) ++ close :: rest

theorem behind_cons (a : α) (later : List α) (rest : List Char) :
    behind text close (a :: later) rest = ',' :: (text a ++ behind text close later rest) := by
  simp [behind]

include closing

theorem ends_behind (later : List α) (rest : List Char) : Ends (behind text close later rest) := by
  cases later with
  | nil => obtain rfl | rfl := closing <;> exact ends_cons (by decide) _
  | cons a later =>
    rw [behind_cons]
    exact ends_cons (by decide) _

theorem behind_inj {later : List α} (told : ∀ a ∈ later, Told text a) {later' : List α}
    {x y : List Char} (same : behind text close later x = behind text close later' y) :
    later = later' ∧ x = y := by
  have comma : ',' ≠ close := by obtain rfl | rfl := closing <;> decide
  induction later generalizing later' with
  | nil =>
    cases later' with
    | nil => exact ⟨rfl, (List.cons.inj same).2⟩
    | cons b later' =>
      rw [behind_cons] at same
      exact absurd (List.cons.inj same).1.symm comma
  | cons a later ih =>
    rw [behind_cons] at same
    cases later' with
    | nil => exact absurd (List.cons.inj same).1 comma
    | cons b later' =>
      rw [behind_cons] at same
      obtain ⟨first, rest⟩ := told a (by simp) b _ _ (ends_behind closing _ _)
        (ends_behind closing _ _) (List.cons.inj same).2
      obtain ⟨others, same⟩ := ih (fun a ha => told a (by simp [ha])) rest
      exact ⟨by rw [first, others], same⟩

/-- Items that each tell themselves are told by their list, if none starts as the list ends. -/
theorem joined_inj {items : List α} (told : ∀ a ∈ items, Told text a)
    (opened : ∀ a rest, (text a ++ rest).head? ≠ some close) {items' : List α} {x y : List Char}
    (same : joined (items.map text) ++ close :: x = joined (items'.map text) ++ close :: y) :
    items = items' ∧ x = y := by
  have first (a : α) (later : List α) (rest : List Char) :
      joined ((a :: later).map text) ++ close :: rest = text a ++ behind text close later rest := by
    simp [joined, behind]
  cases items with
  | nil =>
    cases items' with
    | nil => exact ⟨rfl, (List.cons.inj same).2⟩
    | cons b later' =>
      rw [first] at same
      exact absurd (congrArg List.head? same).symm (opened b _)
  | cons a later =>
    rw [first] at same
    cases items' with
    | nil => exact absurd (congrArg List.head? same) (opened a _)
    | cons b later' =>
      rw [first] at same
      obtain ⟨here, rest⟩ := told a (by simp) b _ _ (ends_behind closing _ _)
        (ends_behind closing _ _) same
      obtain ⟨others, same⟩ := behind_inj closing (fun a ha => told a (by simp [ha])) rest
      exact ⟨by rw [here, others], same⟩

end Lists

def Kind.ofChar (c : Char) : Kind :=
  if c = 'n' then null
  else if c = 't' ∨ c = 'f' then boolean
  else if c = '"' then string
  else if c = '[' then array
  else if c = '\x7b' then object
  else number

namespace Raw

def kind : Raw → Kind
  | null => .null
  | bool _ => .boolean
  | number _ => .number
  | string _ => .string
  | array _ => .array
  | object _ => .object

theorem exists_first (r : Raw) (depth : Nat) :
    ∃ c text, r.write .compact depth = c :: text ∧ c ≠ ']' ∧ Kind.ofChar c = r.kind := by
  cases r with
  | null => exact ⟨_, _, rfl, by decide, rfl⟩
  | bool b => cases b <;> exact ⟨_, _, rfl, by decide, rfl⟩
  | number n =>
    obtain ⟨t, text⟩ := Element.exists_token_write n
    obtain ⟨c, later, first, other, _⟩ := t.exists_first
    obtain ⟨_, _, same, opens⟩ := (Scalar.number t).exists_first
    simp only [List.mem_cons, List.not_mem_nil, or_false, not_or] at other
    refine ⟨c, later, text.symm.trans first, ?_, by simp [Kind.ofChar, kind, other]⟩
    obtain ⟨rfl, _⟩ := List.cons.inj (first.symm.trans same)
    exact opens.2
  | string s => exact ⟨_, _, rfl, by decide, rfl⟩
  | array items => exact ⟨_, _, write_compact_array depth items, by decide, rfl⟩
  | object members => exact ⟨_, _, write_compact_object depth members, by decide, rfl⟩

theorem kind_eq_of_write_eq {r r' : Raw} {depth : Nat} {x y : List Char}
    (same : r.write .compact depth ++ x = r'.write .compact depth ++ y) : r.kind = r'.kind := by
  obtain ⟨c, _, first, _, kind⟩ := r.exists_first depth
  obtain ⟨c', _, first', _, kind'⟩ := r'.exists_first depth
  rw [first, first'] at same
  rw [← kind, ← kind', (List.cons.inj same).1]

theorem head?_write_append_ne (r : Raw) (depth : Nat) (rest : List Char) :
    (r.write .compact depth ++ rest).head? ≠ some ']' := by
  obtain ⟨c, _, first, other, _⟩ := r.exists_first depth
  rw [first]
  exact fun same => other (Option.some.inj same)

theorem told_member {m : String × Raw} {text : Raw → List Char} (told : Told text m.2) :
    Told (fun m : String × Raw => writeString m.1 ++ ':' :: text m.2) m := by
  intro m' x y hx hy same
  rw [List.append_assoc, List.append_assoc] at same
  obtain ⟨name, rest⟩ := writeString_inj same
  obtain ⟨value, rest⟩ := told m'.2 x y hx hy (List.cons.inj rest).2
  exact ⟨Prod.ext name value, rest⟩

theorem told_write (r : Raw) : ∀ depth, Told (write .compact depth) r := by
  -- the first character tells the kind, so that only trees of one kind are compared
  induction r using Raw.induction with
  | null =>
    intro depth r' x y _ _ same
    have kind := kind_eq_of_write_eq same
    cases r' with
    | null => exact ⟨rfl, by simpa [write] using same⟩
    | _ => cases kind
  | bool b =>
    intro depth r' x y _ _ same
    have kind := kind_eq_of_write_eq same
    cases r' with
    | bool b' => cases b <;> cases b' <;> simp_all [write]
    | _ => cases kind
  | number n =>
    intro depth r' x y hx hy same
    have kind := kind_eq_of_write_eq same
    cases r' with
    | number m =>
      obtain ⟨rfl, rest⟩ := n.told_write m x y hx hy same
      exact ⟨rfl, rest⟩
    | _ => cases kind
  | string s =>
    intro depth r' x y _ _ same
    have kind := kind_eq_of_write_eq same
    cases r' with
    | string s' =>
      obtain ⟨rfl, rest⟩ := writeString_inj same
      exact ⟨rfl, rest⟩
    | _ => cases kind
  | array items ih =>
    intro depth r' x y _ _ same
    have kind := kind_eq_of_write_eq same
    cases r' with
    | array items' =>
      rw [write_compact_array, write_compact_array] at same
      simp only [List.cons_append, List.append_assoc, List.nil_append] at same
      obtain ⟨rfl, rest⟩ := joined_inj (.inl rfl) (fun item h => ih item h (depth + 1))
        (fun item rest => item.head?_write_append_ne (depth + 1) rest) (List.cons.inj same).2
      exact ⟨rfl, rest⟩
    | _ => cases kind
  | object members ih =>
    intro depth r' x y _ _ same
    have kind := kind_eq_of_write_eq same
    cases r' with
    | object members' =>
      rw [write_compact_object, write_compact_object] at same
      simp only [List.cons_append, List.append_assoc, List.nil_append] at same
      obtain ⟨rfl, rest⟩ := joined_inj (.inr rfl) (fun m h => told_member (ih m h (depth + 1)))
        (fun m rest => by simp [writeString]) (List.cons.inj same).2
      exact ⟨rfl, rest⟩
    | _ => cases kind

end Raw

/-- Different trees have different compact texts. -/
theorem compact_injective : Function.Injective compact := by
  intro j j' same
  have texts : j.write .compact = j'.write .compact := by
    have := congrArg String.toList same
    rwa [compact, compact, String.toList_ofList, String.toList_ofList] at this
  exact ext (j.raw.told_write 0 j'.raw [] [] ends_nil ends_nil (congrArg (· ++ []) texts)).1

end Untyped.Json
