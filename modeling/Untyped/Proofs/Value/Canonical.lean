import Mathlib
import Untyped.Proofs.Json.Rendered
import Untyped.Proofs.Value.Load
import Untyped.Proofs.Value.Normal

/-! The compact text of what is loaded does not show in which order a text lists the members of its
objects. -/
namespace Untyped
open Json (Element)
open Json.Element (Rearranged)

/-- What a text loads as is written with the names of every object in strictly ascending order of
their bytes, each with what is written for its last member; a tree that is altered is a lone scalar,
without any object. A text that lists members of different names in another order, at any depth,
loads as well and is written alike. -/
theorem loadValue_canonical (identity : Nat) (text : String) (v : Value)
    (h : loadValue identity text = .ok v) :
    (∃ out : Element, out.text = v.toJson.compact.toList) ∧
    (∀ out : Element, out.text = v.toJson.compact.toList → out.Ascending) ∧
    (∀ source : Element, source.text = text.toList →
      ∃ j, source.tree? = some j ∧ (¬j.Altered → source.Rendered v.toJson.compact.toList)) ∧
    ∀ (source moved : Element) (identity' : Nat) (text' : String), source.text = text.toList →
      moved.text = text'.toList → Rearranged source moved →
      ∃ v', loadValue identity' text' = .ok v' ∧ v'.toJson.compact = v.toJson.compact := by
  obtain ⟨j, loaded, rfl⟩ := (loadValue_eq_ok_iff identity text v).1 h
  obtain ⟨e, derived, depth, tree⟩ := (loadJson_eq_ok_iff text j).1 loaded
  have chars (k : Json) : k.compact.toList = k.raw.write .compact 0 := String.toList_ofList
  obtain ⟨out, written, ascending⟩ :=
    Element.exists_ascending (j.toValue identity).toJson.raw (j.toValue identity).toJson.ordered 0
  refine ⟨⟨out, written.trans (chars _).symm⟩, fun out' h' => ?_, fun source hs => ?_,
    fun source moved identity' text' hs hm rearranged => ?_⟩
  · exact (Element.ascending_iff_of_text_eq (h'.trans ((chars _).trans written.symm))).2 ascending
  · have same := Element.tree?_eq_of_text_eq (hs.trans derived.symm)
    refine ⟨j, same.trans tree, fun unaltered => ?_⟩
    rw [Json.toJson_toValue_eq, Json.normal_of_not_altered unaltered, chars]
    exact Element.rendered_write source j (same.trans tree) 0
  · have start : source.text = e.text := hs.trans derived.symm
    have tree' := rearranged.tree?_eq j ((Element.tree?_eq_of_text_eq start).trans tree)
    have depth' : moved.depth ≤ 127 := by
      rwa [← rearranged.depth_eq, Element.depth_eq_of_text_eq start]
    refine ⟨_, loadValue_of_derived hm depth' tree' identity', ?_⟩
    rw [Json.toJson_toValue_eq, Json.toJson_toValue_eq]

/-- A name that is spelled in two ways, and an inner object in another order. -/
theorem loadValue_canonical_twice :
    let text := "\x7b\"b\":1,\"a\":\x7b\"d\":null,\"c\":2\x7d,\"\\u0062\":[]\x7d"
    let moved := "\x7b\"b\":1,\"a\":\x7b\"c\":2,\"d\":null\x7d,\"\\u0062\":[]\x7d"
    let written := "\x7b\"a\":\x7b\"c\":2,\"d\":null\x7d,\"b\":[]\x7d"
    ∃ v v', loadValue 0 text = .ok v ∧ v.toJson.compact = written ∧
      (∀ out : Element, out.text = written.toList → out.Ascending) ∧
      loadValue 7 moved = .ok v' ∧ v'.toJson.compact = written := by
  intro text moved written
  let label (c : Char) (allowed : 0x20 ≤ c.toNat ∧ c ≠ '"' ∧ c ≠ '\\') : Json.Label :=
    ⟨.none, [.plain c allowed], .none⟩
  let number (d : Digit) : Element :=
    .scalar .none (.number ⟨false, d, [], fun h => rfl, [], none⟩) .none
  let c := (label 'c' (by decide), number 2)
  let d := (label 'd' (by decide), Element.scalar .none .null .none)
  let element (inner : List (Json.Label × Element)) : Element := .object .none .none
    [(label 'b' (by decide), number 1), (label 'a' (by decide), .object .none .none inner .none),
      (⟨.none, [.unit ⟨0, false⟩ ⟨0, false⟩ ⟨6, false⟩ ⟨2, false⟩], .none⟩,
        .array .none .none [] .none)] .none
  have derived : (element [d, c]).text = text.toList := by decide
  have derived' : (element [c, d]).text = moved.toList := by decide
  have rearranged : Rearranged (element [d, c]) (element [c, d]) :=
    .member .none .none [_] _ [_] .none (.moved .none .none .none (by decide) (.swap _ _ _))
  have first : (element [d, c]).tree?.map (fun j => (j.toValue 0).toJson.compact) = some written := by
    decide +kernel
  obtain ⟨j, tree, first⟩ := Option.map_eq_some_iff.1 first
  have loaded := loadValue_of_derived derived (by decide) tree 0
  obtain ⟨_, ascending, _, same⟩ := loadValue_canonical 0 text _ loaded
  obtain ⟨v', loaded', compact⟩ := same _ _ 7 moved derived derived' rearranged
  rw [first] at ascending compact
  exact ⟨_, v', loaded, first, ascending, loaded', compact⟩

end Untyped
