import Mathlib
import Untyped.Proofs.Value.Load
import Untyped.Proofs.Value.Reload

/-! A list of texts, joined as an array: what loads is what each of them loads as. -/
namespace Untyped
open Json (Element)
open Json.Element (joined)

namespace Json.Element

theorem joined_cons (first : List Char) {rest : List (List Char)} (h : rest ≠ []) :
    joined (first :: rest) = first ++ ',' :: joined rest := by
  obtain ⟨second, rest, rfl⟩ := List.exists_cons_of_ne_nil h
  rfl

theorem joined_eq_intercalate (texts : List (List Char)) : joined texts = [','].intercalate texts := by
  induction texts with
  | nil => rfl
  | cons first rest ih =>
    cases rest with
    | nil => simp [joined]
    | cons second rest =>
      rw [joined_cons first (List.cons_ne_nil _ _), ih, List.intercalate_cons_cons,
        List.append_assoc, List.singleton_append]

theorem read_joined {es : List Element} {js : List Json}
    (trees : List.Forall₂ (fun e j => e.tree? = some j) es js)
    (shallow : ∀ e ∈ es, e.depth + 1 ≤ maxDepth) :
    readChars ('[' :: (joined (es.map text) ++ [']'])) = .ok (ofItems js) := by
  have depth : (array .none .none es .none).depth ≤ maxDepth := by
    rw [depth_array]
    exact Nat.add_le_of_le_sub (by decide)
      ((foldr_max_le_iff depth es _).2 fun e he => Nat.le_sub_of_add_le (shallow e he))
  have tree : (array .none .none es .none).tree? = some (ofItems js) := by
    rw [tree?_array, every_map_eq_some.2 trees, Option.map_some]
  rw [← readChars_text depth tree, text_array]
  rfl

end Json.Element

/-- Texts that load, none of them derived with more than 126 levels, load together as an array: the
list is as long as that of the texts, and each value is what the text in its place loads as. -/
theorem loadValues_joined (identity : Nat) (texts : List String)
    (accepted : ∀ text ∈ texts, ∃ v, loadValue identity text = .ok v)
    (shallow : ∀ text ∈ texts, ∃ e : Element, e.text = text.toList ∧ e.depth ≤ 126) :
    ∃ vs, loadValues identity ("[" ++ ",".intercalate texts ++ "]") = .ok vs ∧
      vs.length = texts.length ∧
      ∀ i text, texts[i]? = some text →
        ∃ v, vs[i]? = some v ∧ loadValue (identity + i) text = .ok v := by
  have each : ∀ text ∈ texts, ∃ (e : Element) (j : Json), e.text = text.toList ∧ e.depth ≤ 126 ∧
      e.tree? = some j ∧ loadJson text = .ok j := by
    intro text ht
    obtain ⟨v, hv⟩ := accepted text ht
    obtain ⟨e, derived, depth⟩ := shallow text ht
    obtain ⟨j, tree, loaded⟩ := tree?_of_loadValue hv derived
    exact ⟨e, j, derived, depth, tree, loaded⟩
  have : Nonempty Json := ⟨.null⟩
  have : Nonempty Element := ⟨.scalar .none .null .none⟩
  choose! element tree derived depth hasTree loaded using each
  have trees : List.Forall₂ (fun e j => e.tree? = some j) (texts.map element) (texts.map tree) := by
    rw [List.forall₂_map_left_iff, List.forall₂_map_right_iff, List.forall₂_same]
    exact hasTree
  have chars : (texts.map element).map Element.text = texts.map String.toList := by
    rw [List.map_map]
    exact List.map_congr_left derived
  have read : Json.read ("[" ++ ",".intercalate texts ++ "]") = .ok (.ofItems (texts.map tree)) := by
    rw [Json.read, ← Element.read_joined trees fun e he => ?_, chars, Element.joined_eq_intercalate]
    · simp
    · obtain ⟨text, ht, rfl⟩ := List.mem_map.1 he
      exact Nat.succ_le_succ (depth text ht)
  refine ⟨_, loadValues_of_read read identity, by simp, fun i text hi => ?_⟩
  refine ⟨(tree text).toValue (identity + i), by simp [hi], ?_⟩
  exact (loadValue_eq_ok_iff _ _ _).2 ⟨_, loaded text (List.mem_of_getElem? hi), rfl⟩

/-- A number between blanks, and an object with a line end after it. -/
theorem loadValues_joined_blanks :
    let texts := [" -7 ", "\x7b\"k\": [true]\x7d\n"]
    (∀ text ∈ texts, ∃ v, loadValue 3 text = .ok v) ∧
      (∀ text ∈ texts, ∃ e : Element, e.text = text.toList ∧ e.depth ≤ 126) ∧
      ∃ vs, loadValues 3 "[ -7 ,\x7b\"k\": [true]\x7d\n]" = .ok vs ∧ vs.length = 2 ∧
        vs[1]? = some (.ref (.mk datumPath 4 (.json (.ofMembers [("k", .ofItems [.bool true])])))) := by
  intro texts
  let space : Json.Blank := ⟨[' '], by simp [Json.isBlank]⟩
  let line : Json.Blank := ⟨['\n'], by simp [Json.isBlank]⟩
  let number : Element := .scalar space (.number ⟨true, 7, [], fun _ => rfl, [], none⟩) space
  let object : Element := .object .none .none
    [(⟨.none, [.plain 'k' (by decide)], .none⟩,
      .array space .none [.scalar .none (.bool true) .none] .none)] line
  have numberText : number.text = " -7 ".toList := by decide
  have objectText : object.text = "\x7b\"k\": [true]\x7d\n".toList := by decide
  have numberLoads := loadValue_of_derived numberText (by decide) rfl 3
  have objectLoads := loadValue_of_derived objectText (by decide) rfl
  have accepted : ∀ text ∈ texts, ∃ v, loadValue 3 text = .ok v :=
    List.forall_mem_cons.2 ⟨⟨_, numberLoads⟩, List.forall_mem_singleton.2 ⟨_, objectLoads 3⟩⟩
  have shallow : ∀ text ∈ texts, ∃ e : Element, e.text = text.toList ∧ e.depth ≤ 126 :=
    List.forall_mem_cons.2 ⟨⟨number, numberText, by decide⟩,
      List.forall_mem_singleton.2 ⟨object, objectText, by decide⟩⟩
  obtain ⟨vs, loads, length, each⟩ := loadValues_joined 3 texts accepted shallow
  obtain ⟨v, second, hv⟩ := each 1 _ rfl
  obtain rfl := Except.ok.inj ((objectLoads 4).symm.trans hv)
  exact ⟨accepted, shallow, vs, loads, length, second⟩

end Untyped
