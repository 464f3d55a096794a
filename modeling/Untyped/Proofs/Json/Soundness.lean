import Mathlib
import Untyped.Proofs.Json.Blanks
import Untyped.Proofs.Json.Numbers
import Untyped.Proofs.Json.Strings

/-! What is read as a tree is derived with that tree, and the depth of the derivation is within the
levels of the reader. -/
namespace Untyped.Json
open Element (fromName joined joined_items joined_members laterItems laterItems_cons laterMembers
  laterMembers_cons memberText)

/-! ### Scalars -/

theorem eq_of_readWord {letters text rest : List Char} (h : readWord letters text = .ok rest) :
    text = letters ++ rest := by
  induction letters generalizing text with
  | nil =>
    cases h
    rfl
  | cons letter letters ih =>
    cases text with
    | nil => cases h
    | cons c text =>
      rw [readWord] at h
      split at h
      next hc => rw [hc, ih h, List.cons_append]
      next => cases h

theorem eq_of_readWord_map {letters text rest : List Char} {j k : Json}
    (h : (readWord letters text).map (fun after => (j, after)) = .ok (k, rest)) :
    text = letters ++ rest ∧ k = j := by
  cases hw : readWord letters text with
  | error e =>
    rw [hw] at h
    cases h
  | ok after =>
    rw [hw] at h
    cases h
    exact ⟨eq_of_readWord hw, rfl⟩

/-! ### Containers -/

/-- What the reader reads is derived, within so many levels, with any blanks at the end. -/
def Derives (item : ItemReader) (depth : Nat) : Prop :=
  ∀ (text : List Char) (j : Json) (rest : List Char), outcome (item text) = .ok (j, rest) →
    ∀ after : Blank, ∃ e : Element, e.after = after ∧ text = e.front ++ rest ∧ e.depth ≤ depth ∧
      e.tree? = some j

variable {item : ItemReader} {depth : Nat}

theorem exists_laterItems (h : Derives item depth) {text rest : List Char} {js : List Json}
    (read : outcome (readMoreItems item text) = .ok (js, rest)) :
    ∃ (gap : Blank) (items : List Element), text = gap.chars ++ laterItems items rest ∧
      (∀ e ∈ items, e.depth ≤ depth) ∧ List.Forall₂ (fun e j => e.tree? = some j) items js := by
  induction hn : text.length using Nat.strongRecOn generalizing text js with
  | ind n ih =>
    rw [outcome_readMoreItems] at read
    split at read
    next => cases read
    next c later hskip =>
      obtain ⟨gap, rfl⟩ := exists_blank_cons hskip
      split at read
      next hc =>
        cases read
        exact ⟨gap, [], by rw [hc]; rfl, by simp, .nil⟩
      next =>
        split at read
        next hc =>
          split at read
          next => cases read
          next =>
            obtain ⟨j, afterItem, hitem, read⟩ := follow_eq_ok.1 read
            obtain ⟨js, _, hmore, read⟩ := follow_eq_ok.1 read
            cases read
            have shorter := length_lt_of_outcome hitem
            obtain ⟨gap', items, htext, hdepth, htrees⟩ := ih afterItem.length
              (by rw [← hn, List.length_append, List.length_cons]; omega) hmore rfl
            obtain ⟨e, hafter, hfront, he, hj⟩ := h _ _ _ hitem gap'
            refine ⟨gap, e :: items, ?_, List.forall_mem_cons.2 ⟨he, hdepth⟩, .cons hj htrees⟩
            rw [hc, hfront, htext, laterItems_cons, hafter]
        next => cases read

theorem exists_items (h : Derives item depth) {text rest : List Char} {js : List Json}
    (read : outcome (readItems item text) = .ok (js, rest)) :
    ∃ (gap : Blank) (items : List Element),
      text = gap.chars ++ (joined (items.map Element.text) ++ ']' :: rest) ∧
      (∀ e ∈ items, e.depth ≤ depth) ∧ List.Forall₂ (fun e j => e.tree? = some j) items js := by
  rw [outcome_readItems] at read
  split at read
  next => cases read
  next c later hskip =>
    obtain ⟨gap, rfl⟩ := exists_blank_cons hskip
    split at read
    next hc =>
      cases read
      exact ⟨gap, [], by rw [hc]; rfl, by simp, .nil⟩
    next =>
      obtain ⟨j, afterItem, hitem, read⟩ := follow_eq_ok.1 read
      obtain ⟨js, _, hmore, read⟩ := follow_eq_ok.1 read
      cases read
      obtain ⟨gap', items, htext, hdepth, htrees⟩ := exists_laterItems h hmore
      obtain ⟨e, hafter, hfront, he, hj⟩ := h _ _ _ hitem gap'
      refine ⟨gap, e :: items, ?_, List.forall_mem_cons.2 ⟨he, hdepth⟩, .cons hj htrees⟩
      rw [hfront, htext, joined_items, hafter]

theorem exists_member (h : Derives item depth) {text rest : List Char} {member : String × Json}
    (read : outcome (readMember item text) = .ok (member, rest)) (before after : Blank) :
    ∃ m : Label × Element, m.1.before = before ∧ m.2.after = after ∧
      text = fromName m.1 (m.2.front ++ rest) ∧ m.2.depth ≤ depth ∧
      Element.member? (m.1, m.2.tree?) = some member := by
  cases text with
  | nil => cases read
  | cons c text =>
    rw [outcome_readMember_cons] at read
    split at read
    next hc =>
      obtain ⟨cs, afterName, hname, read⟩ := follow_eq_ok.1 read
      obtain ⟨j, _, hnamed, read⟩ := follow_eq_ok.1 read
      cases read
      rw [outcome_readNamed] at hnamed
      split at hnamed
      next => cases hnamed
      next d later hskip =>
        obtain ⟨gap, rfl⟩ := exists_blank_cons hskip
        split at hnamed
        next hd =>
          obtain ⟨pieces, hpieces, decodes⟩ := exists_pieces hname
          obtain ⟨e, hafter, hfront, he, hj⟩ := h _ _ _ hnamed after
          refine ⟨(⟨before, pieces, gap⟩, e), rfl, hafter, ?_, he, ?_⟩
          · rw [hc, hpieces, hd, hfront, fromName]
          · rw [Element.member?]
            simp only [decodes, hj, Option.bind_some, Option.map_some]
        next => cases hnamed
    next => cases read

theorem exists_laterMembers (h : Derives item depth) {text rest : List Char}
    {members : List (String × Json)}
    (read : outcome (readMoreMembers item text) = .ok (members, rest)) :
    ∃ (gap : Blank) (ms : List (Label × Element)), text = gap.chars ++ laterMembers ms rest ∧
      (∀ m ∈ ms, m.2.depth ≤ depth) ∧
      List.Forall₂ (fun m member => Element.member? (m.1, m.2.tree?) = some member) ms members := by
  induction hn : text.length using Nat.strongRecOn generalizing text members with
  | ind n ih =>
    rw [outcome_readMoreMembers] at read
    split at read
    next => cases read
    next c later hskip =>
      obtain ⟨gap, rfl⟩ := exists_blank_cons hskip
      split at read
      next hc =>
        cases read
        exact ⟨gap, [], by rw [hc]; rfl, by simp, .nil⟩
      next =>
        split at read
        next hc =>
          split at read
          next => cases read
          next =>
            obtain ⟨member, afterMember, hmember, read⟩ := follow_eq_ok.1 read
            obtain ⟨members, _, hmore, read⟩ := follow_eq_ok.1 read
            cases read
            have shorter := length_lt_of_outcome hmember
            have skipped := length_skipBlank later
            obtain ⟨gap', ms, htext, hdepth, htrees⟩ := ih afterMember.length
              (by rw [← hn, List.length_append, List.length_cons]; omega) hmore rfl
            obtain ⟨before, hbefore⟩ := exists_blank later
            obtain ⟨m, rfl, hafter, hfront, hm, hj⟩ := exists_member h hmember before gap'
            refine ⟨gap, m :: ms, ?_, List.forall_mem_cons.2 ⟨hm, hdepth⟩, .cons hj htrees⟩
            rw [hc, hbefore, hfront, htext, laterMembers_cons, hafter]
        next => cases read

theorem exists_members (h : Derives item depth) {text rest : List Char}
    {members : List (String × Json)}
    (read : outcome (readMembers item text) = .ok (members, rest)) :
    ∃ (gap : Blank) (ms : List (Label × Element)),
      text = gap.chars ++
        (joined (ms.map fun m => memberText (m.1, m.2.text)) ++ '\x7d' :: rest) ∧
      (∀ m ∈ ms, m.2.depth ≤ depth) ∧
      List.Forall₂ (fun m member => Element.member? (m.1, m.2.tree?) = some member) ms members := by
  rw [outcome_readMembers] at read
  split at read
  next => cases read
  next c later hskip =>
    obtain ⟨gap, rfl⟩ := exists_blank_cons hskip
    split at read
    next hc =>
      cases read
      exact ⟨gap, [], by rw [hc]; rfl, by simp, .nil⟩
    next =>
      obtain ⟨member, afterMember, hmember, read⟩ := follow_eq_ok.1 read
      obtain ⟨members, _, hmore, read⟩ := follow_eq_ok.1 read
      cases read
      obtain ⟨gap', ms, htext, hdepth, htrees⟩ := exists_laterMembers h hmore
      -- the blanks before the first name all belong to the gap
      obtain ⟨m, hbefore, hafter, hfront, hm, hj⟩ := exists_member h hmember .none gap'
      refine ⟨gap, m :: ms, ?_, List.forall_mem_cons.2 ⟨hm, hdepth⟩, .cons hj htrees⟩
      rw [hfront, htext, joined_members, hbefore, hafter]
      rfl

/-! ### Trees -/

theorem exists_of_insideOutcome {inner : Option ItemReader} {text rest : List Char} {j : Json}
    {inside : ItemReader → Outcome Json} (h : insideOutcome inner text inside = .ok (j, rest)) :
    ∃ item, inner = some item ∧ inside item = .ok (j, rest) := by
  cases inner with
  | none => cases h
  | some item => exact ⟨item, rfl, h⟩

theorem exists_of_readTree {inner : Option ItemReader} {n : Nat}
    (h : ∀ item, inner = some item → ∃ d, n = d + 1 ∧ Derives item d) {c : Char}
    {text rest : List Char} {j : Json} (read : outcome (readTree inner c text) = .ok (j, rest))
    (before after : Blank) :
    ∃ e : Element, e.after = after ∧ before.chars ++ c :: text = e.front ++ rest ∧ e.depth ≤ n ∧
      e.tree? = some j := by
  have scalar (v : Scalar) (htext : c :: text = v.text ++ rest) (hj : v.tree? = some j) :
      ∃ e : Element, e.after = after ∧ before.chars ++ c :: text = e.front ++ rest ∧ e.depth ≤ n ∧
        e.tree? = some j :=
    ⟨.scalar before v after, rfl, by rw [htext, Element.front, List.append_assoc],
      Nat.zero_le n, hj⟩
  rw [outcome_readTree] at read
  split_ifs at read with hn ht hf hminus hdigit hquote hbracket hbrace
  · obtain ⟨rfl, rfl⟩ := eq_of_readWord_map read
    exact scalar .null (by rw [hn]; rfl) rfl
  · obtain ⟨rfl, rfl⟩ := eq_of_readWord_map read
    exact scalar (.bool true) (by rw [ht]; rfl) rfl
  · obtain ⟨rfl, rfl⟩ := eq_of_readWord_map read
    exact scalar (.bool false) (by rw [hf]; rfl) rfl
  · obtain ⟨k, _, hk, read⟩ := follow_eq_ok.1 read
    cases read
    obtain ⟨t, negative, rfl, hnumber⟩ := exists_number_token hk
    refine scalar (.number t) ?_ (by rw [Scalar.tree?, hnumber]; rfl)
    rw [hminus, Scalar.text, NumberToken.text, if_pos negative, List.cons_append]
  · obtain ⟨k, _, hk, read⟩ := follow_eq_ok.1 read
    cases read
    obtain ⟨t, negative, htext, hnumber⟩ := exists_number_token hk
    refine scalar (.number t) ?_ (by rw [Scalar.tree?, hnumber]; rfl)
    rw [htext, Scalar.text, NumberToken.text, if_neg (by simp [negative])]
  · obtain ⟨cs, _, hcs, read⟩ := follow_eq_ok.1 read
    cases read
    obtain ⟨pieces, rfl, decodes⟩ := exists_pieces hcs
    refine scalar (.string pieces) ?_ (by rw [Scalar.tree?, decodes]; rfl)
    rw [hquote, Scalar.text, List.cons_append, List.append_assoc, List.singleton_append]
  · obtain ⟨item, hinner, read⟩ := exists_of_insideOutcome read
    obtain ⟨js, _, hjs, read⟩ := follow_eq_ok.1 read
    cases read
    obtain ⟨d, rfl, derives⟩ := h item hinner
    obtain ⟨gap, items, rfl, hdepth, htrees⟩ := exists_items derives hjs
    refine ⟨.array before gap items after, rfl, ?_, ?_, ?_⟩
    · rw [hbracket, Element.front, List.append_assoc, List.cons_append, List.append_assoc,
        List.append_assoc, List.singleton_append]
    · rw [Element.depth_array]
      exact Nat.succ_le_succ ((Element.foldr_max_le_iff _ _ d).2 hdepth)
    · rw [Element.tree?_array, Element.every_map_eq_some.2 htrees, Option.map_some]
  · obtain ⟨item, hinner, read⟩ := exists_of_insideOutcome read
    obtain ⟨members, _, hmembers, read⟩ := follow_eq_ok.1 read
    cases read
    obtain ⟨d, rfl, derives⟩ := h item hinner
    obtain ⟨gap, ms, rfl, hdepth, htrees⟩ := exists_members derives hmembers
    refine ⟨.object before gap ms after, rfl, ?_, ?_, ?_⟩
    · rw [hbrace, Element.front, List.append_assoc, List.cons_append, List.append_assoc,
        List.append_assoc, List.singleton_append]
    · rw [Element.depth_object]
      exact Nat.succ_le_succ ((Element.foldr_max_le_iff _ _ d).2 hdepth)
    · rw [Element.tree?_object, Element.every_map_eq_some.2 htrees, Option.map_some]

/-- What is read with so many levels is derived within them. -/
theorem derives_readNested (depth : Nat) : Derives (readNested depth) depth := by
  induction depth with
  | zero =>
    intro text j rest read after
    rw [readNested, outcome_readItem] at read
    split at read
    next => cases read
    next c later hskip =>
      obtain ⟨before, rfl⟩ := exists_blank_cons hskip
      exact exists_of_readTree (fun item h => by cases h) read before after
  | succ depth ih =>
    intro text j rest read after
    rw [readNested, outcome_readItem] at read
    split at read
    next => cases read
    next c later hskip =>
      obtain ⟨before, rfl⟩ := exists_blank_cons hskip
      exact exists_of_readTree (fun item h => ⟨depth, rfl, by cases h; exact ih⟩) read before after

/-- A whole text that is read as a tree is derived with that tree, within 127 levels. -/
theorem exists_element {text : List Char} {j : Json} (h : readChars text = .ok j) :
    ∃ e : Element, e.text = text ∧ e.depth ≤ maxDepth ∧ e.tree? = some j := by
  rw [readChars_eq] at h
  split at h
  next => cases h
  next k rest read =>
    split at h
    next hskip =>
      cases h
      obtain ⟨after, hafter⟩ := exists_blank rest
      rw [hskip, List.append_nil] at hafter
      obtain ⟨e, rfl, rfl, hdepth, hj⟩ := derives_readNested maxDepth _ _ _ read after
      exact ⟨e, by rw [e.text_eq, hafter], hdepth, hj⟩
    next => cases h

end Untyped.Json
