import Mathlib
import Untyped.Proofs.Json.Blanks
import Untyped.Proofs.Json.Numbers
import Untyped.Proofs.Json.Strings

/-! Every derivation that has a tree is read as that tree, whatever stands after it, if there are
enough levels for its depth. -/
namespace Untyped.Json
open Element (fromName joined joined_items joined_members laterItems laterItems_cons laterMembers
  laterMembers_cons memberText)

theorem ends_cons {c : Char} (h : Digit.ofChar? c = none ∧ c ≠ '.' ∧ c ≠ 'e' ∧ c ≠ 'E')
    (rest : List Char) : Ends (c :: rest) := by
  constructor
  · intro d hd
    cases hd
    exact h.1
  · intro d hd
    cases hd
    exact h.2

theorem ends_append (b : Blank) {rest : List Char} (h : Ends rest) : Ends (b.chars ++ rest) := by
  obtain ⟨chars, blank⟩ := b
  cases chars with
  | nil => exact h
  | cons c chars =>
    have hc : isBlank c = true := blank c (by simp)
    simp only [isBlank, Bool.or_eq_true, decide_eq_true_eq] at hc
    obtain ((rfl | rfl) | rfl) | rfl := hc <;> exact ends_cons (by decide) _

/-! ### Scalars -/

theorem readWord_append (letters rest : List Char) :
    readWord letters (letters ++ rest) = .ok rest := by
  induction letters with
  | nil => rfl
  | cons c letters ih => rw [List.cons_append, readWord, if_pos rfl, ih]

abbrev Opens (c : Char) : Prop := isBlank c = false ∧ c ≠ ']'

theorem digit_opens (d : Digit) :
    Opens d.toChar ∧ d.toChar ∉ ['n', 't', 'f', '-', '"', '[', '\x7b'] := by
  revert d
  decide

theorem Scalar.exists_first (v : Scalar) : ∃ c text, v.text = c :: text ∧ Opens c := by
  cases v with
  | null => exact ⟨'n', _, rfl, by decide⟩
  | bool b => cases b <;> exact ⟨_, _, rfl, by decide⟩
  | number t =>
    show ∃ c text, t.text = c :: text ∧ Opens c
    unfold NumberToken.text
    split
    next => exact ⟨'-', _, rfl, by decide⟩
    next => exact ⟨t.leading.toChar, _, rfl, (digit_opens t.leading).1⟩
  | string pieces => exact ⟨'"', _, rfl, by decide⟩

theorem Element.exists_first (e : Element) :
    ∃ (before : Blank) (c : Char) (text : List Char),
      e.front = before.chars ++ c :: text ∧ Opens c := by
  cases e with
  | scalar before value after =>
    obtain ⟨c, text, h, opens⟩ := value.exists_first
    exact ⟨before, c, text, by rw [Element.front, h], opens⟩
  | array before gap items after => exact ⟨before, '[', _, rfl, by decide⟩
  | object before gap members after => exact ⟨before, '\x7b', _, rfl, by decide⟩

theorem outcome_readTree_number (inner : Option ItemReader) (t : NumberToken) (rest : List Char) :
    ∃ c text, t.text ++ rest = c :: text ∧ Opens c ∧
      outcome (readTree inner c text) =
        follow (outcome (readNumber t.negative (t.unsigned ++ rest))) fun n rest =>
          .ok (.number n, rest) := by
  cases negative : t.negative with
  | true =>
    refine ⟨'-', t.unsigned ++ rest, by rw [NumberToken.text, if_pos negative]; rfl, by decide, ?_⟩
    rw [outcome_readTree, if_neg (by decide), if_neg (by decide), if_neg (by decide), if_pos rfl]
  | false =>
    obtain ⟨opens, notOther⟩ := digit_opens t.leading
    simp only [List.mem_cons, not_or] at notOther
    have text : t.text = t.unsigned := by rw [NumberToken.text, if_neg (by simp [negative])]
    refine ⟨t.leading.toChar, _, by rw [text]; rfl, opens, ?_⟩
    rw [outcome_readTree, if_neg notOther.1, if_neg notOther.2.1, if_neg notOther.2.2.1,
      if_neg notOther.2.2.2.1, if_pos (by rw [Digit.ofChar?_toChar]; rfl)]
    rfl

theorem outcome_readTree_scalar (inner : Option ItemReader) (v : Scalar) {j : Json}
    (h : v.tree? = some j) {rest : List Char} (ends : Ends rest) :
    ∃ c text, v.text ++ rest = c :: text ∧ Opens c ∧
      outcome (readTree inner c text) = .ok (j, rest) := by
  cases v with
  | null =>
    cases h
    refine ⟨'n', _, rfl, by decide, ?_⟩
    rw [outcome_readTree, if_pos rfl]
    exact congrArg _ (readWord_append ['u', 'l', 'l'] rest)
  | bool b =>
    cases h
    cases b with
    | true =>
      refine ⟨'t', _, rfl, by decide, ?_⟩
      rw [outcome_readTree, if_neg (by decide), if_pos rfl]
      exact congrArg _ (readWord_append ['r', 'u', 'e'] rest)
    | false =>
      refine ⟨'f', _, rfl, by decide, ?_⟩
      rw [outcome_readTree, if_neg (by decide), if_neg (by decide), if_pos rfl]
      exact congrArg _ (readWord_append ['a', 'l', 's', 'e'] rest)
  | number t =>
    obtain ⟨n, hn, rfl⟩ := Option.map_eq_some_iff.1 h
    obtain ⟨c, text, htext, opens, read⟩ := outcome_readTree_number inner t rest
    exact ⟨c, text, htext, opens, by rw [read, outcome_readNumber_token t hn ends, follow_ok]⟩
  | string pieces =>
    obtain ⟨cs, hcs, rfl⟩ := Option.map_eq_some_iff.1 h
    refine ⟨'"', pieces.flatMap Piece.text ++ '"' :: rest, by simp [Scalar.text], by decide, ?_⟩
    rw [outcome_readTree]
    simp only [Char.reduceEq, if_false, if_true]
    rw [if_neg (by decide), outcome_readString_pieces pieces hcs, follow_ok]

/-! ### Containers -/

/-- The reader takes the element, up to the blanks at its end, for the tree. -/
def Takes (item : ItemReader) (e : Element) (j : Json) : Prop :=
  ∀ text rest, Ends rest → skipBlank text = skipBlank (e.front ++ rest) →
    outcome (item text) = .ok (j, rest)

variable {item : ItemReader}

theorem skipBlank_front (e : Element) (rest : List Char) :
    ∃ c text, skipBlank (e.front ++ rest) = c :: text ∧ c ≠ ']' := by
  obtain ⟨before, c, text, h, opens⟩ := e.exists_first
  refine ⟨c, text ++ rest, ?_, opens.2⟩
  rw [h, List.append_assoc, List.cons_append, skipBlank_append, skipBlank_cons opens.1]

theorem Element.skipBlank_front_scalar (before : Blank) (v : Scalar) (after : Blank)
    (rest : List Char) :
    skipBlank ((Element.scalar before v after).front ++ rest) = v.text ++ rest := by
  obtain ⟨c, later, first, opens⟩ := v.exists_first
  rw [front, List.append_assoc, skipBlank_append, first]
  exact skipBlank_cons opens.1 _

theorem Element.skipBlank_front_array (before gap : Blank) (items : List Element) (after : Blank)
    (rest : List Char) :
    skipBlank ((Element.array before gap items after).front ++ rest) =
      '[' :: (gap.chars ++ (joined (items.map text) ++ ']' :: rest)) := by
  rw [front, List.append_assoc, skipBlank_append, List.cons_append, skipBlank_cons (by decide),
    List.append_assoc, List.append_assoc, List.singleton_append]

theorem Element.skipBlank_front_object (before gap : Blank) (members : List (Label × Element))
    (after : Blank) (rest : List Char) :
    skipBlank ((Element.object before gap members after).front ++ rest) = '\x7b' ::
      (gap.chars ++ (joined (members.map fun m => memberText (m.1, m.2.text)) ++ '\x7d' :: rest)) := by
  rw [front, List.append_assoc, skipBlank_append, List.cons_append, skipBlank_cons (by decide),
    List.append_assoc, List.append_assoc, List.singleton_append]

theorem ends_laterItems (items : List Element) (rest : List Char) :
    Ends (laterItems items rest) := by
  cases items <;> exact ends_cons (by decide) _

theorem outcome_readMoreItems_elements {items : List Element} {js : List Json}
    (h : List.Forall₂ (Takes item) items js) (gap : Blank) (rest : List Char) :
    outcome (readMoreItems item (gap.chars ++ laterItems items rest)) = .ok (js, rest) := by
  induction h generalizing gap with
  | nil =>
    rw [outcome_readMoreItems, skipBlank_append]
    rfl
  | @cons e j items js he _ ih =>
    have ends := ends_append e.after (ends_laterItems items rest)
    obtain ⟨c, text, hskip, notBracket⟩ :=
      skipBlank_front e (e.after.chars ++ laterItems items rest)
    have noTrailing : ¬(skipBlank (e.front ++ (e.after.chars ++ laterItems items rest))).head? =
        some ']' := by
      rw [hskip, List.head?_cons]
      exact fun hc => notBracket (Option.some.inj hc)
    rw [outcome_readMoreItems, laterItems_cons, skipBlank_append, skipBlank_cons (by decide)]
    dsimp only
    rw [if_neg (by decide), if_pos rfl, if_neg noTrailing, he _ _ ends rfl, follow_ok, ih e.after,
      follow_ok]

theorem outcome_readItems_elements {items : List Element} {js : List Json}
    (h : List.Forall₂ (Takes item) items js) (gap : Blank) (rest : List Char) :
    outcome (readItems item
      (gap.chars ++ (joined (items.map Element.text) ++ ']' :: rest))) = .ok (js, rest) := by
  cases h with
  | nil =>
    rw [outcome_readItems, skipBlank_append]
    rfl
  | @cons e j items js he later =>
    obtain ⟨c, text, hskip, notBracket⟩ :=
      skipBlank_front e (e.after.chars ++ laterItems items rest)
    have taken := he (c :: text) (e.after.chars ++ laterItems items rest)
      (ends_append e.after (ends_laterItems items rest)) (by rw [← hskip, skipBlank_skipBlank])
    rw [outcome_readItems, skipBlank_append, joined_items, hskip]
    dsimp only
    rw [if_neg notBracket, taken, follow_ok, outcome_readMoreItems_elements later, follow_ok]

def TakesMember (item : ItemReader) (m : Label × Element) (member : String × Json) : Prop :=
  (∃ cs, decode? m.1.name = some cs ∧ String.ofList cs = member.1) ∧ Takes item m.2 member.2

theorem outcome_readMember_fromName {m : Label × Element} {member : String × Json}
    (h : TakesMember item m member) {rest : List Char} (ends : Ends rest) :
    outcome (readMember item (fromName m.1 (m.2.front ++ rest))) = .ok (member, rest) := by
  obtain ⟨⟨cs, hcs, hname⟩, taken⟩ := h
  rw [fromName, outcome_readMember_cons, if_pos rfl, outcome_readString_pieces m.1.name hcs,
    follow_ok, outcome_readNamed, skipBlank_append, skipBlank_cons (by decide)]
  dsimp only
  rw [if_pos rfl, taken _ rest ends rfl, follow_ok, hname]

theorem ends_laterMembers (members : List (Label × Element)) (rest : List Char) :
    Ends (laterMembers members rest) := by
  cases members <;> exact ends_cons (by decide) _

theorem outcome_readMoreMembers_elements {ms : List (Label × Element)}
    {members : List (String × Json)} (h : List.Forall₂ (TakesMember item) ms members)
    (gap : Blank) (rest : List Char) :
    outcome (readMoreMembers item (gap.chars ++ laterMembers ms rest)) = .ok (members, rest) := by
  induction h generalizing gap with
  | nil =>
    rw [outcome_readMoreMembers, skipBlank_append]
    rfl
  | @cons m member ms members hm _ ih =>
    have ends := ends_append m.2.after (ends_laterMembers ms rest)
    have hskip : skipBlank (m.1.before.chars ++
        fromName m.1 (m.2.front ++ (m.2.after.chars ++ laterMembers ms rest))) =
        fromName m.1 (m.2.front ++ (m.2.after.chars ++ laterMembers ms rest)) := by
      rw [skipBlank_append, fromName, skipBlank_cons (by decide)]
    have noTrailing : ¬(fromName m.1 (m.2.front ++
        (m.2.after.chars ++ laterMembers ms rest))).head? = some '\x7d' := by
      rw [fromName, List.head?_cons]
      decide
    rw [outcome_readMoreMembers, laterMembers_cons, skipBlank_append, skipBlank_cons (by decide)]
    dsimp only
    rw [if_neg (by decide), if_pos rfl, hskip, if_neg noTrailing,
      outcome_readMember_fromName hm ends, follow_ok, ih m.2.after, follow_ok]

theorem outcome_readMembers_elements {ms : List (Label × Element)}
    {members : List (String × Json)} (h : List.Forall₂ (TakesMember item) ms members)
    (gap : Blank) (rest : List Char) :
    outcome (readMembers item (gap.chars ++
      (joined (ms.map fun m => memberText (m.1, m.2.text)) ++ '\x7d' :: rest))) =
      .ok (members, rest) := by
  cases h with
  | nil =>
    rw [outcome_readMembers, skipBlank_append]
    rfl
  | @cons m member ms members hm later =>
    have first := outcome_readMember_fromName hm
      (ends_append m.2.after (ends_laterMembers ms rest))
    rw [fromName] at first
    rw [outcome_readMembers, skipBlank_append, joined_members, skipBlank_append, fromName,
      skipBlank_cons (by decide)]
    dsimp only
    rw [if_neg (by decide), first, follow_ok, outcome_readMoreMembers_elements later, follow_ok]

/-! ### Trees -/

theorem takes_readItem {inner : Option ItemReader} {e : Element} {j : Json}
    (h : ∀ rest, Ends rest → ∃ c text, skipBlank (e.front ++ rest) = c :: text ∧
      outcome (readTree inner c text) = .ok (j, rest)) : Takes (readItem inner) e j := by
  intro text rest ends same
  obtain ⟨c, later, hskip, read⟩ := h rest ends
  rw [outcome_readItem, same, hskip]
  exact read

theorem takes_scalar (inner : Option ItemReader) (before : Blank) {value : Scalar} {j : Json}
    (h : value.tree? = some j) (after : Blank) :
    Takes (readItem inner) (.scalar before value after) j := by
  refine takes_readItem fun rest ends => ?_
  obtain ⟨c, text, htext, -, read⟩ := outcome_readTree_scalar inner value h ends
  exact ⟨c, text, by rw [Element.skipBlank_front_scalar, htext], read⟩

theorem takes_array {items : List Element} {js : List Json}
    (h : List.Forall₂ (Takes item) items js) (before gap after : Blank) :
    Takes (readItem (some item)) (.array before gap items after) (.ofItems js) := by
  refine takes_readItem fun rest ends =>
    ⟨'[', _, Element.skipBlank_front_array before gap items after rest, ?_⟩
  rw [outcome_readTree]
  simp only [Char.reduceEq, if_false, if_true, insideOutcome]
  rw [if_neg (by decide), outcome_readItems_elements h, follow_ok]

theorem takes_object {ms : List (Label × Element)} {members : List (String × Json)}
    (h : List.Forall₂ (TakesMember item) ms members) (before gap after : Blank) :
    Takes (readItem (some item)) (.object before gap ms after) (.ofMembers members) := by
  refine takes_readItem fun rest ends =>
    ⟨'\x7b', _, Element.skipBlank_front_object before gap ms after rest, ?_⟩
  rw [outcome_readTree]
  simp only [Char.reduceEq, if_false, if_true, insideOutcome]
  rw [if_neg (by decide), outcome_readMembers_elements h, follow_ok]

/-- Where the levels suffice for the depth of a derivation, it is read as its tree. -/
theorem takes_readNested (e : Element) :
    ∀ (depth : Nat) (j : Json), e.depth ≤ depth → e.tree? = some j →
      Takes (readNested depth) e j := by
  induction e using Element.induction with
  | scalar before value after =>
    intro depth j _ hj
    rw [readNested_eq]
    exact takes_scalar _ before hj after
  | array before gap items after ih =>
    intro depth j hdepth hj
    rw [Element.depth_array] at hdepth
    rw [Element.tree?_array] at hj
    obtain ⟨js, hjs, rfl⟩ := Option.map_eq_some_iff.1 hj
    obtain ⟨d, rfl⟩ := Nat.exists_eq_add_of_le' (Nat.le_of_add_left_le hdepth)
    have bound := (Element.foldr_max_le_iff _ _ d).1 (Nat.le_of_succ_le_succ hdepth)
    have taken : List.Forall₂ (Takes (readNested d)) items js :=
      Element.forall₂_imp_mem (Element.every_map_eq_some.1 hjs) fun e he j h =>
        ih e he d j (bound e he) h
    exact takes_array taken before gap after
  | object before gap members after ih =>
    intro depth j hdepth hj
    rw [Element.depth_object] at hdepth
    rw [Element.tree?_object] at hj
    obtain ⟨js, hjs, rfl⟩ := Option.map_eq_some_iff.1 hj
    obtain ⟨d, rfl⟩ := Nat.exists_eq_add_of_le' (Nat.le_of_add_left_le hdepth)
    have bound := (Element.foldr_max_le_iff _ _ d).1 (Nat.le_of_succ_le_succ hdepth)
    have taken : List.Forall₂ (TakesMember (readNested d)) members js := by
      refine Element.forall₂_imp_mem (Element.every_map_eq_some.1 hjs) fun m hm member h => ?_
      obtain ⟨cs, hcs, h⟩ := Option.bind_eq_some_iff.1 h
      obtain ⟨j, hj, rfl⟩ := Option.map_eq_some_iff.1 h
      exact ⟨⟨cs, hcs, rfl⟩, ih m hm d j (bound m hm) hj⟩
    exact takes_object taken before gap after

/-- A text that is derived, with a tree and at most 127 levels, is read as the tree. -/
theorem readChars_text {e : Element} {j : Json} (hdepth : e.depth ≤ maxDepth)
    (hj : e.tree? = some j) : readChars e.text = .ok j := by
  have ends := ends_append e.after ends_nil
  have taken := takes_readNested e maxDepth j hdepth hj _ _ ends rfl
  rw [List.append_nil] at taken
  rw [readChars_eq, e.text_eq, taken]
  dsimp only
  rw [skipBlank_blank]

theorem exists_numberOutOfRange {t : NumberToken} (outOfRange : t.number? = none)
    (before after : Blank) :
    ∃ left, readChars (before.chars ++ t.text ++ after.chars) = .error ⟨.numberOutOfRange, left⟩ := by
  have ends := ends_append after ends_nil
  rw [List.append_nil] at ends
  obtain ⟨inner, level⟩ : ∃ inner, readNested maxDepth = readItem inner :=
    ⟨_, readNested_eq maxDepth⟩
  obtain ⟨c, text, first, opens, read⟩ := outcome_readTree_number inner t after.chars
  have skipped : skipBlank (before.chars ++ t.text ++ after.chars) = c :: text := by
    rw [List.append_assoc, first, skipBlank_append, skipBlank_cons opens.1]
  cases number : t.numeral.toNumber with
  | ok n =>
    rw [(t.toNumber_eq_ok_iff n).1 number] at outOfRange
    cases outOfRange
  | error unread =>
    rw [outcome_readNumber, outcome_readNumeral_token t ends, follow_ok, number] at read
    refine ⟨Text.byteLength after.chars + unread, ?_⟩
    rw [readChars_eq, level, outcome_readItem, skipped]
    dsimp only
    rw [read, follow_error]

end Untyped.Json
