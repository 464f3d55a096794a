import Mathlib
import Untyped.Proofs.Json.Completeness
import Untyped.Proofs.Json.Soundness
import Untyped.Proofs.Json.Tree

/-! Reading a whole text against the grammar, in both directions. -/
namespace Untyped.Json

namespace Element

theorem paired_array_iff (before gap : Blank) (items : List Element) (after : Blank) :
    (array before gap items after).Paired ↔ ∀ e ∈ items, e.Paired := by
  simp only [Element.Paired, scalars_array, List.mem_flatMap]
  exact ⟨fun h e he pieces hp => h pieces ⟨e, he, hp⟩, fun h pieces ⟨e, he, hp⟩ => h e he pieces hp⟩

theorem inRange_array_iff (before gap : Blank) (items : List Element) (after : Blank) :
    (array before gap items after).InRange ↔ ∀ e ∈ items, e.InRange := by
  simp only [InRange, scalars_array, List.mem_flatMap]
  exact ⟨fun h e he t ht => h t ⟨e, he, ht⟩, fun h t ⟨e, he, ht⟩ => h e he t ht⟩

theorem paired_object_iff (before gap : Blank) (members : List (Label × Element)) (after : Blank) :
    (object before gap members after).Paired ↔
      ∀ m ∈ members, Json.Paired m.1.name ∧ m.2.Paired := by
  simp only [Element.Paired, scalars_object, List.mem_flatMap, List.mem_cons]
  constructor
  · intro h m hm
    exact ⟨h _ ⟨m, hm, .inl rfl⟩, fun pieces hp => h pieces ⟨m, hm, .inr hp⟩⟩
  · rintro h pieces ⟨m, hm, hp | hp⟩
    · cases hp
      exact (h m hm).1
    · exact (h m hm).2 pieces hp

theorem inRange_object_iff (before gap : Blank) (members : List (Label × Element))
    (after : Blank) :
    (object before gap members after).InRange ↔ ∀ m ∈ members, m.2.InRange := by
  simp only [InRange, scalars_object, List.mem_flatMap, List.mem_cons]
  constructor
  · exact fun h m hm t ht => h t ⟨m, hm, .inr ht⟩
  · rintro h t ⟨m, hm, ht | ht⟩
    · cases ht
    · exact h m hm t ht

theorem isSome_member?_iff (l : Label) (j? : Option Json) :
    (member? (l, j?)).isSome ↔ Json.Paired l.name ∧ j?.isSome := by
  rw [member?, ← isSome_decode?_iff]
  cases decode? l.name <;> simp

/-- A derivation has a tree exactly if every half of a pair stands beside its other half and no
number is out of range. -/
theorem isSome_tree?_iff (e : Element) : e.tree?.isSome ↔ e.Paired ∧ e.InRange := by
  induction e using Element.induction with
  | scalar before value after =>
    change value.tree?.isSome ↔ _
    simp only [Element.Paired, InRange]
    change _ ↔ (∀ pieces, .string pieces ∈ [value] → _) ∧ (∀ t, .number t ∈ [value] → _)
    simp only [List.mem_singleton]
    cases value with
    | null => simp [Scalar.tree?]
    | bool b => simp [Scalar.tree?]
    | number t => simp [Scalar.tree?]
    | string pieces => simp [Scalar.tree?, isSome_decode?_iff]
  | array before gap items after ih =>
    rw [tree?_array, Option.isSome_map, isSome_every_map, paired_array_iff, inRange_array_iff,
      ← forall₂_and]
    exact forall₂_congr ih
  | object before gap members after ih =>
    rw [tree?_object, Option.isSome_map, isSome_every_map, paired_object_iff, inRange_object_iff,
      ← forall₂_and]
    refine forall₂_congr fun m hm => ?_
    rw [isSome_member?_iff, ih m hm, and_assoc]

/-- The tree of an object has every name once, in order, with the value of the last member that has
the name. -/
def KeepsLast (members : List (String × Json)) (j : Json) : Prop :=
  ∃ kept : List (String × Json), j.raw = .object (kept.map fun m => (m.1, m.2.raw)) ∧
    kept.Pairwise (fun a b => a.1 < b.1) ∧
    ∀ name, kept.lookup name = members.reverse.lookup name

theorem keepsLast_of_tree? {before gap after : Blank} {members : List (Label × Element)} {j : Json}
    (h : (object before gap members after).tree? = some j) :
    ∃ decoded, every (members.map fun m => member? (m.1, m.2.tree?)) = some decoded ∧
      KeepsLast decoded j := by
  rw [tree?_object] at h
  obtain ⟨decoded, hdecoded, rfl⟩ := Option.map_eq_some_iff.1 h
  exact ⟨decoded, hdecoded, sortMembers decoded, rfl, pairwise_sortMembers decoded,
    lookup_sortMembers decoded⟩

end Element

/-- A whole text is read as a tree exactly if it is derived with that tree, within 127 levels. -/
theorem readChars_eq_ok_iff (text : List Char) (j : Json) :
    readChars text = .ok j ↔
      ∃ e : Element, e.text = text ∧ e.depth ≤ maxDepth ∧ e.tree? = some j := by
  constructor
  · exact exists_element
  · rintro ⟨e, rfl, hdepth, hj⟩
    exact readChars_text hdepth hj

end Untyped.Json
