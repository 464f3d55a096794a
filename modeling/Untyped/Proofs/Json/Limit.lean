import Mathlib
import Untyped.Proofs.Json.Completeness
import Untyped.Proofs.Json.Soundness
import Untyped.Proofs.Json.Tree

/-! What fewer levels change: the readers answer the same, or that the limit is exceeded. A text
whose derivation has a tree but is too deep is therefore refused for its depth alone. -/
namespace Untyped.Json

variable {α β : Type}

/-- The answer with fewer levels is that with more, or that there are too few. -/
def Within (few many : Outcome α) : Prop :=
  few = many ∨ ∃ left, few = .error ⟨.recursionLimit, left⟩

theorem Within.refl (o : Outcome α) : Within o o := .inl rfl

theorem Within.follow {few many : Outcome α} (h : Within few many)
    {second third : α → List Char → Outcome β}
    (later : ∀ v rest, few = .ok (v, rest) → Within (second v rest) (third v rest)) :
    Within (Json.follow few second) (Json.follow many third) := by
  obtain rfl | ⟨left, rfl⟩ := h
  · cases few with
    | error e => exact .inl rfl
    | ok p => exact later p.1 p.2 rfl
  · exact .inr ⟨left, rfl⟩

theorem Within.trans {few some many : Outcome α} (h : Within few some) (h' : Within some many) :
    Within few many := by
  obtain rfl | h := h
  · exact h'
  · exact .inr h

def Fewer (few many : ItemReader) : Prop :=
  ∀ text, Within (outcome (few text)) (outcome (many text))

variable {few many : ItemReader}

theorem within_readMoreItems (h : Fewer few many) (text : List Char) :
    Within (outcome (readMoreItems few text)) (outcome (readMoreItems many text)) := by
  induction hn : text.length using Nat.strongRecOn generalizing text with
  | ind n ih =>
    rw [outcome_readMoreItems, outcome_readMoreItems]
    split
    next => exact .refl _
    next c rest hskip =>
      have shorter := length_le_of_skipBlank hskip
      rw [List.length_cons] at shorter
      split_ifs
      · exact .refl _
      · exact .refl _
      · refine (h rest).follow fun j afterItem hj => ?_
        have := length_lt_of_outcome hj
        exact (ih afterItem.length (by omega) afterItem rfl).follow fun _ _ _ => .refl _
      · exact .refl _

theorem within_readItems (h : Fewer few many) (text : List Char) :
    Within (outcome (readItems few text)) (outcome (readItems many text)) := by
  rw [outcome_readItems, outcome_readItems]
  split
  next => exact .refl _
  next c rest _ =>
    split_ifs
    · exact .refl _
    · exact (h (c :: rest)).follow fun _ afterItem _ =>
        (within_readMoreItems h afterItem).follow fun _ _ _ => .refl _

theorem within_readMember (h : Fewer few many) (text : List Char) :
    Within (outcome (readMember few text)) (outcome (readMember many text)) := by
  cases text with
  | nil => exact .refl _
  | cons c rest =>
    rw [outcome_readMember_cons, outcome_readMember_cons]
    split_ifs
    · refine (Within.refl _).follow fun _ afterName _ => Within.follow ?_ fun _ _ _ => .refl _
      rw [outcome_readNamed, outcome_readNamed]
      split
      next => exact .refl _
      next d later _ =>
        split_ifs
        · exact h later
        · exact .refl _
    · exact .refl _

theorem within_readMoreMembers (h : Fewer few many) (text : List Char) :
    Within (outcome (readMoreMembers few text)) (outcome (readMoreMembers many text)) := by
  induction hn : text.length using Nat.strongRecOn generalizing text with
  | ind n ih =>
    rw [outcome_readMoreMembers, outcome_readMoreMembers]
    split
    next => exact .refl _
    next c rest hskip =>
      have shorter := length_le_of_skipBlank hskip
      have skipped := length_skipBlank rest
      rw [List.length_cons] at shorter
      split_ifs
      · exact .refl _
      · exact .refl _
      · refine (within_readMember h _).follow fun m afterMember hm => ?_
        have := length_lt_of_outcome hm
        exact (ih afterMember.length (by omega) afterMember rfl).follow fun _ _ _ => .refl _
      · exact .refl _

theorem within_readMembers (h : Fewer few many) (text : List Char) :
    Within (outcome (readMembers few text)) (outcome (readMembers many text)) := by
  rw [outcome_readMembers, outcome_readMembers]
  split
  next => exact .refl _
  next c rest _ =>
    split_ifs
    · exact .refl _
    · exact (within_readMember h (c :: rest)).follow fun _ afterMember _ =>
        (within_readMoreMembers h afterMember).follow fun _ _ _ => .refl _

theorem within_insideOutcome {fewer more : Option ItemReader}
    (h : ∀ few, fewer = some few → ∃ many, more = some many ∧ Fewer few many) (text : List Char)
    {inside : ItemReader → Outcome Json}
    (within : ∀ few many, Fewer few many → Within (inside few) (inside many)) :
    Within (insideOutcome fewer text inside) (insideOutcome more text inside) := by
  cases fewer with
  | none => exact .inr ⟨_, rfl⟩
  | some few =>
    obtain ⟨many, rfl, fewer⟩ := h few rfl
    exact within few many fewer

theorem fewer_readItem {fewer more : Option ItemReader}
    (h : ∀ few, fewer = some few → ∃ many, more = some many ∧ Fewer few many) :
    Fewer (readItem fewer) (readItem more) := by
  intro text
  rw [outcome_readItem, outcome_readItem]
  split
  next => exact .refl _
  next c rest _ =>
    rw [outcome_readTree, outcome_readTree]
    split_ifs
    · exact .refl _
    · exact .refl _
    · exact .refl _
    · exact .refl _
    · exact .refl _
    · exact .refl _
    · exact within_insideOutcome h _ fun few many fewer =>
        (within_readItems fewer rest).follow fun _ _ _ => .refl _
    · exact within_insideOutcome h _ fun few many fewer =>
        (within_readMembers fewer rest).follow fun _ _ _ => .refl _
    · exact .refl _

theorem fewer_readNested_succ (depth : Nat) :
    Fewer (readNested depth) (readNested (depth + 1)) := by
  induction depth with
  | zero => exact fewer_readItem (by simp)
  | succ depth ih =>
    exact fewer_readItem fun few h => ⟨readNested (depth + 1), rfl, by cases h; exact ih⟩

theorem fewer_readNested {depth deeper : Nat} (h : depth ≤ deeper) :
    Fewer (readNested depth) (readNested deeper) := by
  induction h with
  | refl => exact fun _ => .refl _
  | step _ ih => exact fun text => (ih text).trans (fewer_readNested_succ _ text)

/-- A text that is derived, with a tree that nests too deep, is refused for its depth. -/
theorem exists_recursionLimit {e : Element} {j : Json} (hj : e.tree? = some j)
    (deep : maxDepth < j.raw.depth) :
    ∃ left, readChars e.text = .error ⟨.recursionLimit, left⟩ := by
  have enough := takes_readNested e (max e.depth maxDepth) j (Nat.le_max_left _ _) hj e.text
    e.after.chars (by simpa using ends_append e.after ends_nil) (by rw [e.text_eq])
  have within := fewer_readNested (Nat.le_max_right e.depth maxDepth) e.text
  rw [enough] at within
  obtain read | ⟨left, read⟩ := within
  · -- a text that is read has a derivation within the levels, so its tree is not too deep
    have whole : readChars e.text = .ok j := by
      rw [readChars_eq, read]
      simp only [skipBlank_blank]
    obtain ⟨shallow, _, hdepth, htree⟩ := exists_element whole
    have := shallow.depth_tree_le j htree
    omega
  · exact ⟨left, by rw [readChars_eq, read]⟩

end Untyped.Json
