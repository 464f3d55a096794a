import Mathlib
import Untyped.Proofs.Json.Completeness

/-! The grammar is unambiguous but for the place of blanks and the spelling of scalars: all
derivations of one text nest alike and have the same tree. -/
namespace Untyped.Json

/-! ### Strings -/

def Piece.Alike (p q : Piece) : Prop := p.char? = q.char? ∧ p.unit? = q.unit?

theorem HexDigit.value_eq_of_char_eq {a b : HexDigit} (h : a.char = b.char) : a.value = b.value := by
  have same := congrArg hexValue? h
  rw [hexValue?_char, hexValue?_char] at same
  exact Fin.ext (Option.some.inj same)

theorem ShortEscape.char_eq_of_letter_eq {e f : ShortEscape} (h : e.letter = f.letter) :
    e.char = f.char := by
  have same := congrArg escaped? h
  rw [escaped?_letter, escaped?_letter] at same
  exact Option.some.inj same

theorem ShortEscape.letter_ne (e : ShortEscape) : e.letter ≠ 'u' := by
  cases e <;> decide

theorem Piece.text_append_inj {p q : Piece} {x y : List Char} (h : p.text ++ x = q.text ++ y) :
    p.Alike q ∧ x = y := by
  cases p with
  | plain c allowed =>
    cases q with
    | plain d _ =>
      obtain ⟨rfl, rfl⟩ := List.cons.inj h
      exact ⟨⟨rfl, rfl⟩, rfl⟩
    | short f => exact absurd (List.cons.inj h).1 allowed.2.2
    | unit _ _ _ _ => exact absurd (List.cons.inj h).1 allowed.2.2
  | short e =>
    cases q with
    | plain _ allowed => exact absurd (List.cons.inj h).1.symm allowed.2.2
    | short f =>
      obtain ⟨_, h⟩ := List.cons.inj h
      obtain ⟨letter, rfl⟩ := List.cons.inj h
      exact ⟨⟨congrArg some (ShortEscape.char_eq_of_letter_eq letter), rfl⟩, rfl⟩
    | unit _ _ _ _ =>
      obtain ⟨_, h⟩ := List.cons.inj h
      exact absurd (List.cons.inj h).1 e.letter_ne
  | unit a b c d =>
    cases q with
    | plain _ allowed => exact absurd (List.cons.inj h).1.symm allowed.2.2
    | short f =>
      obtain ⟨_, h⟩ := List.cons.inj h
      exact absurd (List.cons.inj h).1.symm f.letter_ne
    | unit a' b' c' d' =>
      simp only [text, List.cons_append, List.nil_append, List.cons.injEq, true_and] at h
      obtain ⟨ha, hb, hc, hd, rfl⟩ := h
      have number : HexDigit.number a b c d = HexDigit.number a' b' c' d' := by
        simp only [HexDigit.number, HexDigit.value_eq_of_char_eq ha,
          HexDigit.value_eq_of_char_eq hb, HexDigit.value_eq_of_char_eq hc,
          HexDigit.value_eq_of_char_eq hd]
      exact ⟨⟨by simp only [char?, number], congrArg some number⟩, rfl⟩

theorem Piece.text_ne_quote (p : Piece) (x y : List Char) : p.text ++ x ≠ '"' :: y := by
  intro h
  cases p with
  | plain c allowed => exact allowed.2.1 (List.cons.inj h).1
  | short e => exact absurd (List.cons.inj h).1 (by decide)
  | unit a b c d => exact absurd (List.cons.inj h).1 (by decide)

theorem decode?_congr {ps qs : List Piece} (h : List.Forall₂ Piece.Alike ps qs) :
    decode? ps = decode? qs := by
  induction hn : ps.length using Nat.strongRecOn generalizing ps qs with
  | ind n ih =>
    cases h with
    | nil => rfl
    | @cons p q ps qs first later =>
      rw [decode?.eq_def, decode?.eq_def (q :: qs)]
      simp only [← first.1, ih ps.length (by rw [← hn, List.length_cons]; omega) later rfl]
      cases later with
      | nil => rfl
      | @cons p' q' ps qs second later =>
        simp only [Piece.paired?, ← first.2, ← second.2,
          ih ps.length (by rw [← hn, List.length_cons, List.length_cons]; omega) later rfl]

theorem decode?_eq_of_text_eq {ps qs : List Piece} {x y : List Char}
    (h : ps.flatMap Piece.text ++ '"' :: x = qs.flatMap Piece.text ++ '"' :: y) :
    decode? ps = decode? qs ∧ x = y := by
  suffices alike : List.Forall₂ Piece.Alike ps qs ∧ x = y from ⟨decode?_congr alike.1, alike.2⟩
  induction ps generalizing qs with
  | nil =>
    cases qs with
    | nil => exact ⟨.nil, (List.cons.inj h).2⟩
    | cons q qs =>
      rw [List.flatMap_cons, List.append_assoc] at h
      exact absurd h.symm (q.text_ne_quote _ _)
  | cons p ps ih =>
    rw [List.flatMap_cons, List.append_assoc] at h
    cases qs with
    | nil => exact absurd h (p.text_ne_quote _ _)
    | cons q qs =>
      rw [List.flatMap_cons, List.append_assoc] at h
      obtain ⟨first, h⟩ := Piece.text_append_inj h
      obtain ⟨later, same⟩ := ih h
      exact ⟨.cons first later, same⟩

/-! ### Scalars -/

theorem NumberToken.exists_first (t : NumberToken) :
    ∃ c text, t.text = c :: text ∧ c ∉ ['n', 't', 'f', '"', '[', '\x7b'] ∧
      (c = '-' ↔ t.negative = true) := by
  unfold text
  split
  next negative => exact ⟨'-', _, rfl, by decide, by simp [negative]⟩
  next positive =>
    have other := (digit_opens t.leading).2
    simp only [List.mem_cons, not_or] at other
    refine ⟨t.leading.toChar, _, rfl, ?_, iff_of_false other.2.2.2.1 positive⟩
    simp only [List.mem_cons, not_or]
    exact ⟨other.1, other.2.1, other.2.2.1, other.2.2.2.2.1, other.2.2.2.2.2.1, other.2.2.2.2.2.2⟩

theorem NumberToken.numeral_eq_of_text_eq {t u : NumberToken} {x y : List Char} (hx : Ends x)
    (hy : Ends y) (h : t.text ++ x = u.text ++ y) : t.numeral = u.numeral ∧ x = y := by
  have sign : t.negative = u.negative := by
    obtain ⟨c, _, htext, _, hc⟩ := t.exists_first
    obtain ⟨d, _, utext, _, hd⟩ := u.exists_first
    rw [htext, utext] at h
    obtain rfl := (List.cons.inj h).1
    exact Bool.eq_iff_iff.2 (hc.symm.trans hd)
  have unsigned : t.unsigned ++ x = u.unsigned ++ y := by
    unfold text at h
    rw [← sign] at h
    split at h
    next => exact (List.cons.inj h).2
    next => exact h
  have read := outcome_readNumeral_token t hx
  rw [unsigned, sign, outcome_readNumeral_token u hy] at read
  obtain ⟨numeral, rest⟩ := Prod.ext_iff.1 (Except.ok.inj read)
  exact ⟨numeral.symm, rest.symm⟩

theorem NumberToken.number?_eq_of_text_eq {t u : NumberToken} {x y : List Char} (hx : Ends x)
    (hy : Ends y) (h : t.text ++ x = u.text ++ y) : t.number? = u.number? ∧ x = y := by
  obtain ⟨numeral, rest⟩ := numeral_eq_of_text_eq hx hy h
  exact ⟨by rw [← toOption_toNumber, ← toOption_toNumber, numeral], rest⟩

theorem Scalar.text_ne_bracket (v : Scalar) (x y : List Char) :
    v.text ++ x ≠ '[' :: y ∧ v.text ++ x ≠ '\x7b' :: y := by
  cases v with
  | null => exact ⟨by simp [text], by simp [text]⟩
  | bool b => cases b <;> exact ⟨by simp [text], by simp [text]⟩
  | number t =>
    obtain ⟨c, later, first, other, _⟩ := t.exists_first
    simp only [List.mem_cons, not_or] at other
    simp [text, first, other]
  | string pieces => exact ⟨by simp [text], by simp [text]⟩

theorem Scalar.tree?_eq_of_text_eq {v w : Scalar} {x y : List Char} (hx : Ends x) (hy : Ends y)
    (h : v.text ++ x = w.text ++ y) : v.tree? = w.tree? ∧ x = y := by
  have apart {t : NumberToken} {c : Char} {z u : List Char}
      (hc : c ∈ ['n', 't', 'f', '"', '[', '\x7b']) : t.text ++ z ≠ c :: u := by
    obtain ⟨d, later, first, other, _⟩ := t.exists_first
    rw [first]
    intro same
    exact other ((List.cons.inj same).1 ▸ hc)
  cases v with
  | null =>
    cases w with
    | null => exact ⟨rfl, by simpa [text] using h⟩
    | bool b => cases b <;> simp [text] at h
    | number t => exact absurd h.symm (apart (by decide))
    | string pieces => simp [text] at h
  | bool b =>
    cases w with
    | null => cases b <;> simp [text] at h
    | bool b' => cases b <;> cases b' <;> simp_all [text]
    | number t => cases b <;> exact absurd h.symm (apart (by decide))
    | string pieces => cases b <;> simp [text] at h
  | number t =>
    cases w with
    | null => exact absurd h (apart (by decide))
    | bool b => cases b <;> exact absurd h (apart (by decide))
    | number u =>
      obtain ⟨number, same⟩ := NumberToken.number?_eq_of_text_eq hx hy h
      exact ⟨by rw [tree?, tree?, number], same⟩
    | string pieces => exact absurd h (apart (by decide))
  | string pieces =>
    cases w with
    | null => simp [text] at h
    | bool b => cases b <;> simp [text] at h
    | number t => exact absurd h.symm (apart (by decide))
    | string pieces' =>
      simp only [text, List.cons_append, List.append_assoc, List.cons.injEq, true_and] at h
      obtain ⟨decoded, same⟩ := decode?_eq_of_text_eq h
      exact ⟨by rw [tree?, tree?, decoded], same⟩

/-! ### Elements -/

namespace Element

variable {β : Type}

/-- What is made of elements depends neither on blanks nor on how scalars and names are spelled. -/
structure Blind (scalar : Blank → Scalar → Blank → β) (array : Blank → Blank → List β → Blank → β)
    (object : Blank → Blank → List (Label × β) → Blank → β) : Prop where
  scalar : ∀ {v w : Scalar}, v.tree? = w.tree? → ∀ before after before' after',
    scalar before v after = scalar before' w after'
  array : ∀ items before gap after before' gap' after',
    array before gap items after = array before' gap' items after'
  object : ∀ {members members' : List (Label × β)},
    members.map (fun m => (decode? m.1.name, m.2)) =
      members'.map (fun m => (decode? m.1.name, m.2)) →
    ∀ before gap after before' gap' after',
      object before gap members after = object before' gap' members' after'

section Unambiguous

variable {scalar : Blank → Scalar → Blank → β} {array : Blank → Blank → List β → Blank → β}
  {object : Blank → Blank → List (Label × β) → Blank → β} (blind : Blind scalar array object)

/-- Whatever stands after the element, its text tells where it ends and what is made of it. -/
def Determined (scalar : Blank → Scalar → Blank → β) (array : Blank → Blank → List β → Blank → β)
    (object : Blank → Blank → List (Label × β) → Blank → β) (e : Element) : Prop :=
  ∀ (e' : Element) (x y : List Char), Ends x → Ends y →
    skipBlank (e.front ++ x) = skipBlank (e'.front ++ y) →
    fold scalar array object e = fold scalar array object e' ∧ x = y

theorem skipBlank_laterItems (b : Blank) (items : List Element) (rest : List Char) :
    skipBlank (b.chars ++ laterItems items rest) = laterItems items rest := by
  rw [skipBlank_append]
  cases items <;> exact skipBlank_cons (by decide) _

theorem skipBlank_laterMembers (b : Blank) (members : List (Label × Element))
    (rest : List Char) :
    skipBlank (b.chars ++ laterMembers members rest) = laterMembers members rest := by
  rw [skipBlank_append]
  cases members <;> exact skipBlank_cons (by decide) _

theorem item_inj {e e' : Element} (h : Determined scalar array object e) {items items' : List Element}
    {x y : List Char} (same : skipBlank (e.front ++ (e.after.chars ++ laterItems items x)) =
      skipBlank (e'.front ++ (e'.after.chars ++ laterItems items' y))) :
    fold scalar array object e = fold scalar array object e' ∧
      laterItems items x = laterItems items' y := by
  obtain ⟨first, later⟩ := h e' _ _ (ends_append e.after (ends_laterItems items x))
    (ends_append e'.after (ends_laterItems items' y)) same
  have skipped := congrArg skipBlank later
  rw [skipBlank_laterItems, skipBlank_laterItems] at skipped
  exact ⟨first, skipped⟩

theorem laterItems_inj {items items' : List Element}
    (h : ∀ e ∈ items, Determined scalar array object e) {x y : List Char}
    (same : laterItems items x = laterItems items' y) :
    items.map (fold scalar array object) = items'.map (fold scalar array object) ∧ x = y := by
  induction items generalizing items' with
  | nil =>
    cases items' with
    | nil => exact ⟨rfl, (List.cons.inj same).2⟩
    | cons e' items' =>
      rw [laterItems_cons] at same
      exact absurd (List.cons.inj same).1 (by decide)
  | cons e items ih =>
    rw [laterItems_cons] at same
    cases items' with
    | nil => exact absurd (List.cons.inj same).1 (by decide)
    | cons e' items' =>
      rw [laterItems_cons] at same
      obtain ⟨first, later⟩ := item_inj (h e (by simp)) (congrArg skipBlank (List.cons.inj same).2)
      obtain ⟨rest, same⟩ := ih (fun e he => h e (by simp [he])) later
      exact ⟨by rw [List.map_cons, List.map_cons, first, rest], same⟩

theorem items_inj {items items' : List Element}
    (h : ∀ e ∈ items, Determined scalar array object e) {gap gap' : Blank} {x y : List Char}
    (same : gap.chars ++ (joined (items.map text) ++ ']' :: x) =
      gap'.chars ++ (joined (items'.map text) ++ ']' :: y)) :
    items.map (fold scalar array object) = items'.map (fold scalar array object) ∧ x = y := by
  have skipped := congrArg skipBlank same
  rw [skipBlank_append, skipBlank_append] at skipped
  cases items with
  | nil =>
    cases items' with
    | nil => exact ⟨rfl, (List.cons.inj skipped).2⟩
    | cons e' items' =>
      obtain ⟨c, later, first, other⟩ :=
        skipBlank_front e' (e'.after.chars ++ laterItems items' y)
      rw [joined_items, first] at skipped
      exact absurd (List.cons.inj skipped).1.symm other
  | cons e items =>
    rw [joined_items] at skipped
    cases items' with
    | nil =>
      obtain ⟨c, later, first, other⟩ := skipBlank_front e (e.after.chars ++ laterItems items x)
      rw [first] at skipped
      exact absurd (List.cons.inj skipped).1 other
    | cons e' items' =>
      rw [joined_items] at skipped
      obtain ⟨first, later⟩ := item_inj (h e (by simp)) skipped
      obtain ⟨rest, same⟩ := laterItems_inj (fun e he => h e (by simp [he])) later
      exact ⟨by rw [List.map_cons, List.map_cons, first, rest], same⟩

def madeMember (scalar : Blank → Scalar → Blank → β) (array : Blank → Blank → List β → Blank → β)
    (object : Blank → Blank → List (Label × β) → Blank → β) (m : Label × Element) :
    Option (List Char) × β :=
  (decode? m.1.name, fold scalar array object m.2)

theorem member_inj {m m' : Label × Element} (h : Determined scalar array object m.2)
    {members members' : List (Label × Element)} {x y : List Char}
    (same : fromName m.1 (m.2.front ++ (m.2.after.chars ++ laterMembers members x)) =
      fromName m'.1 (m'.2.front ++ (m'.2.after.chars ++ laterMembers members' y))) :
    madeMember scalar array object m = madeMember scalar array object m' ∧
      laterMembers members x = laterMembers members' y := by
  obtain ⟨name, same⟩ := decode?_eq_of_text_eq (List.cons.inj same).2
  have colon := congrArg skipBlank same
  rw [skipBlank_append, skipBlank_append, skipBlank_cons (by decide),
    skipBlank_cons (by decide)] at colon
  obtain ⟨value, later⟩ := h m'.2 _ _ (ends_append m.2.after (ends_laterMembers members x))
    (ends_append m'.2.after (ends_laterMembers members' y))
    (congrArg skipBlank (List.cons.inj colon).2)
  have skipped := congrArg skipBlank later
  rw [skipBlank_laterMembers, skipBlank_laterMembers] at skipped
  exact ⟨Prod.ext name value, skipped⟩

theorem laterMembers_inj {members members' : List (Label × Element)}
    (h : ∀ m ∈ members, Determined scalar array object m.2) {x y : List Char}
    (same : laterMembers members x = laterMembers members' y) :
    members.map (madeMember scalar array object) =
      members'.map (madeMember scalar array object) ∧ x = y := by
  induction members generalizing members' with
  | nil =>
    cases members' with
    | nil => exact ⟨rfl, (List.cons.inj same).2⟩
    | cons m' members' =>
      rw [laterMembers_cons] at same
      exact absurd (List.cons.inj same).1 (by decide)
  | cons m members ih =>
    rw [laterMembers_cons] at same
    cases members' with
    | nil => exact absurd (List.cons.inj same).1 (by decide)
    | cons m' members' =>
      rw [laterMembers_cons] at same
      have skipped := congrArg skipBlank (List.cons.inj same).2
      rw [skipBlank_append, skipBlank_append, fromName, fromName, skipBlank_cons (by decide),
        skipBlank_cons (by decide), ← fromName, ← fromName] at skipped
      obtain ⟨first, later⟩ := member_inj (h m (by simp)) skipped
      obtain ⟨rest, same⟩ := ih (fun m hm => h m (by simp [hm])) later
      exact ⟨by rw [List.map_cons, List.map_cons, first, rest], same⟩

theorem members_inj {members members' : List (Label × Element)}
    (h : ∀ m ∈ members, Determined scalar array object m.2) {gap gap' : Blank} {x y : List Char}
    (same : gap.chars ++ (joined (members.map fun m => memberText (m.1, m.2.text)) ++ '\x7d' :: x) =
      gap'.chars ++ (joined (members'.map fun m => memberText (m.1, m.2.text)) ++ '\x7d' :: y)) :
    members.map (madeMember scalar array object) =
      members'.map (madeMember scalar array object) ∧ x = y := by
  have skipped := congrArg skipBlank same
  rw [skipBlank_append, skipBlank_append] at skipped
  cases members with
  | nil =>
    cases members' with
    | nil => exact ⟨rfl, (List.cons.inj skipped).2⟩
    | cons m' members' =>
      rw [joined_members, skipBlank_append, fromName, skipBlank_cons (by decide)] at skipped
      exact absurd (List.cons.inj skipped).1 (by decide)
  | cons m members =>
    rw [joined_members, skipBlank_append, fromName, skipBlank_cons (by decide)] at skipped
    cases members' with
    | nil => exact absurd (List.cons.inj skipped).1 (by decide)
    | cons m' members' =>
      rw [joined_members, skipBlank_append, fromName, skipBlank_cons (by decide), ← fromName,
        ← fromName] at skipped
      obtain ⟨first, later⟩ := member_inj (h m (by simp)) skipped
      obtain ⟨rest, same⟩ := laterMembers_inj (fun m hm => h m (by simp [hm])) later
      exact ⟨by rw [List.map_cons, List.map_cons, first, rest], same⟩

include blind in
/-- Blanks at its start apart, the first character tells a scalar, an array and an object apart. -/
theorem determined (e : Element) : Determined scalar array object e := by
  induction e using Element.induction with
  | scalar before v after =>
    intro e' x y hx hy same
    rw [skipBlank_front_scalar] at same
    cases e' with
    | scalar before' w after' =>
      rw [skipBlank_front_scalar] at same
      obtain ⟨tree, rest⟩ := Scalar.tree?_eq_of_text_eq hx hy same
      exact ⟨blind.scalar tree _ _ _ _, rest⟩
    | array before' gap' items' after' =>
      rw [skipBlank_front_array] at same
      exact absurd same (v.text_ne_bracket _ _).1
    | object before' gap' members' after' =>
      rw [skipBlank_front_object] at same
      exact absurd same (v.text_ne_bracket _ _).2
  | array before gap items after ih =>
    intro e' x y hx hy same
    rw [skipBlank_front_array] at same
    cases e' with
    | scalar before' w after' =>
      rw [skipBlank_front_scalar] at same
      exact absurd same.symm (w.text_ne_bracket _ _).1
    | array before' gap' items' after' =>
      rw [skipBlank_front_array] at same
      obtain ⟨each, rest⟩ := items_inj ih (List.cons.inj same).2
      rw [fold, fold, foldItems_eq, foldItems_eq, each]
      exact ⟨blind.array _ _ _ _ _ _ _, rest⟩
    | object before' gap' members' after' =>
      rw [skipBlank_front_object] at same
      exact absurd (List.cons.inj same).1 (by decide)
  | object before gap members after ih =>
    intro e' x y hx hy same
    rw [skipBlank_front_object] at same
    cases e' with
    | scalar before' w after' =>
      rw [skipBlank_front_scalar] at same
      exact absurd same.symm (w.text_ne_bracket _ _).2
    | array before' gap' items' after' =>
      rw [skipBlank_front_array] at same
      exact absurd (List.cons.inj same).1 (by decide)
    | object before' gap' members' after' =>
      rw [skipBlank_front_object] at same
      obtain ⟨each, rest⟩ := members_inj ih (List.cons.inj same).2
      rw [fold, fold, foldMembers_eq, foldMembers_eq]
      refine ⟨blind.object ?_ _ _ _ _ _ _, rest⟩
      rw [List.map_map, List.map_map]
      exact each

include blind in
/-- The text of an element tells what is made of it. -/
theorem fold_eq_of_text_eq {e e' : Element} (h : e.text = e'.text) :
    fold scalar array object e = fold scalar array object e' := by
  rw [e.text_eq, e'.text_eq] at h
  have ends (b : Blank) : Ends b.chars := by simpa using ends_append b ends_nil
  exact (determined blind e e' _ _ (ends e.after) (ends e'.after) (congrArg skipBlank h)).1

end Unambiguous

theorem blind_depth : Blind (fun _ _ _ => 0) (fun _ _ items _ => items.foldr max 0 + 1)
    (fun _ _ members _ => (members.map Prod.snd).foldr max 0 + 1) where
  scalar _ _ _ _ _ := rfl
  array _ _ _ _ _ _ _ := rfl
  object same _ _ _ _ _ _ := by
    have values := congrArg (List.map Prod.snd) same
    rw [List.map_map, List.map_map] at values
    exact congrArg (fun depths => depths.foldr max 0 + 1) values

theorem blind_tree? : Blind (fun _ value _ => value.tree?)
    (fun _ _ items _ => (every items).map .ofItems)
    (fun _ _ members _ => (every (members.map member?)).map .ofMembers) where
  scalar same _ _ _ _ := same
  array _ _ _ _ _ _ _ := rfl
  object {members members'} same _ _ _ _ _ _ := by
    have each (members : List (Label × Option Json)) : members.map member? =
        (members.map fun m => (decode? m.1.name, m.2)).map fun m =>
          m.1.bind fun cs => m.2.map fun j => (String.ofList cs, j) := by
      rw [List.map_map]
      rfl
    rw [each, each, same]

theorem depth_eq_of_text_eq {e e' : Element} (h : e.text = e'.text) : e.depth = e'.depth :=
  fold_eq_of_text_eq blind_depth h

theorem tree?_eq_of_text_eq {e e' : Element} (h : e.text = e'.text) : e.tree? = e'.tree? :=
  fold_eq_of_text_eq blind_tree? h

end Element

end Untyped.Json
