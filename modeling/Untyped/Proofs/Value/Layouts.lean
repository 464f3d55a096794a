import Mathlib
import Untyped.Proofs.Value.Drift
import Untyped.Proofs.Value.Reload

/-! The two forms in which a list of values is written load as the same values, whatever numbers
the values hold. -/
namespace Untyped

namespace Json

theorem exists_means (n : Number) : ∃ meant, Means n (some meant) := by
  cases n with
  | integer k h => exact ⟨_, means_integer k h⟩
  | float x =>
    obtain ⟨t, literal⟩ := exists_literalOf x
    obtain ⟨y, number, _⟩ := literal.exists_number?
    exact ⟨_, t, literal.text, number⟩

/-- A tree is read as one and the same tree, in whichever plain layout it is written. -/
theorem exists_read_write (js : List Json) (shallow : (ofItems js).raw.depth ≤ maxDepth) :
    ∃ read : List Json, read.length = js.length ∧
      ∀ layout, layout.Plain → readChars ((ofItems js).write layout) = .ok (ofItems read) := by
  choose meant means using exists_means
  let number? (n : Number) : Option Number := some (meant n)
  have made : (Raw.remake? number? (ofItems js).raw).isSome := Raw.isSome_remake? _ fun _ _ => rfl
  obtain ⟨tree, htree⟩ := Option.isSome_iff_exists.1 made
  have again := htree
  rw [ofItems, Raw.remake?_array] at again
  obtain ⟨read, each, rfl⟩ := Option.map_eq_some_iff.1 again
  refine ⟨read, ?_, fun layout plain => ?_⟩
  · simpa using (Element.every_map_eq_some.1 each).length_eq.symm
  · obtain ⟨e, text, depth, derived⟩ :=
      derived_write plain (ofItems js).raw (fun n _ => means n) 0 .none .none
    rw [Blank.none, List.append_nil, List.nil_append] at text
    rw [write, ← text]
    exact readChars_text (depth.trans_le shallow) (derived.trans htree)

end Json

/-- Values that nest at most 126 containers load from the indented text as they load from the
compact text, and both texts do load. -/
theorem loadValues_indented (vs : List Value) (shallow : ∀ v ∈ vs, v.toJson.raw.depth ≤ 126) :
    let tree := Json.ofItems (vs.map Value.toJson)
    ∃ js : List Json, js.length = vs.length ∧ ∀ identity,
      loadValues identity tree.compact = .ok (js.mapIdx fun i j => j.toValue (identity + i)) ∧
      loadValues identity tree.indented = .ok (js.mapIdx fun i j => j.toValue (identity + i)) := by
  intro tree
  have depth : tree.raw.depth ≤ Json.maxDepth :=
    (Json.depth_ofItems_le_iff _ 126).2 (List.forall_mem_map.2 shallow)
  obtain ⟨js, length, read⟩ := Json.exists_read_write _ depth
  refine ⟨js, by rw [length, List.length_map], fun identity => ⟨?_, ?_⟩⟩
  · refine loadValues_of_read ?_ identity
    rw [Json.read, Json.compact, String.toList_ofList, read _ Json.Layout.plain_compact]
  · refine loadValues_of_read ?_ identity
    rw [Json.read, Json.indented, String.toList_ofList, read _ Json.Layout.plain_indented]

/-- A double that is not kept, one that no text stands for, a reference to an object that is not
JSON, and empty containers inside an object. -/
theorem loadValues_indented_empty :
    let inner := Json.ofMembers [("none", .ofMembers []), ("one", .ofItems [.ofItems []])]
    let vs := [.double (.finite ⟨false, 0x39b4484bfeebc2a0, by decide⟩), .double .nan,
      .object "/mob" 4, .ref (.mk datumPath 5 (.json inner))]
    let tree := Json.ofItems (vs.map Value.toJson)
    (∀ v ∈ vs, v.toJson.raw.depth ≤ 126) ∧
      tree.indented = "[\n  1e-30,\n  null,\n  \x7b\n    \"$ref\": \"/mob\"\n  \x7d,\n  \x7b\n" ++
        "    \"none\": \x7b\x7d,\n    \"one\": [\n      []\n    ]\n  \x7d\n]" ∧
      ∃ js : List Json, js.length = 4 ∧ ∀ identity,
        loadValues identity tree.compact = .ok (js.mapIdx fun i j => j.toValue (identity + i)) ∧
        loadValues identity tree.indented = .ok (js.mapIdx fun i j => j.toValue (identity + i)) := by
  intro inner vs tree
  have shallow : ∀ v ∈ vs, v.toJson.raw.depth ≤ 126 := by decide
  exact ⟨shallow, by decide +kernel, loadValues_indented vs shallow⟩

end Untyped
