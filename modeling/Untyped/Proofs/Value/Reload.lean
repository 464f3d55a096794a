import Mathlib
import Untyped.Proofs.Json.Limit
import Untyped.Proofs.Json.Written
import Untyped.Proofs.Value.Load

/-! Lists of values that are written and loaded again, where no tree holds a floating-point
number. -/
namespace Untyped

namespace Json

theorem items?_ofItems (js : List Json) : (ofItems js).items? = some js := by
  have each : (js.map raw).pmap Json.mk (ofItems js).ordered.items = js := by
    rw [List.pmap_map]
    change js.pmap (fun j _ => j) _ = js
    simp
  exact congrArg some each

theorem depth_ofItems_le_iff (js : List Json) (n : Nat) :
    (ofItems js).raw.depth ≤ n + 1 ↔ ∀ j ∈ js, j.raw.depth ≤ n := by
  rw [ofItems, Raw.depth_array, List.map_map, Nat.succ_le_succ_iff, Element.foldr_max_le_iff]
  rfl

theorem numbers_ofItems (js : List Json) :
    (ofItems js).raw.numbers = js.flatMap fun j => j.raw.numbers := by
  rw [ofItems, Raw.numbers_array, List.flatMap_map]

/-- The text of a tree of integers is read as that tree, or refused for its depth alone. -/
theorem read_compact (j : Json) (integers : ∀ n ∈ j.raw.numbers, n.isInteger) :
    (j.raw.depth ≤ maxDepth → read j.compact = .ok j) ∧
      (maxDepth < j.raw.depth → ∃ left, read j.compact = .error ⟨.recursionLimit, left⟩) := by
  obtain ⟨e, htext, hdepth, htree⟩ := exists_element_write Layout.plain_compact j integers
  rw [read, compact, String.toList_ofList, ← htext, ← hdepth]
  exact ⟨fun shallow => readChars_text shallow htree, fun deep =>
    exists_recursionLimit htree (hdepth ▸ deep)⟩

end Json

theorem loadValues_of_read {text : String} {js : List Json}
    (h : Json.read text = .ok (Json.ofItems js)) (identity : Nat) :
    loadValues identity text = .ok (js.mapIdx fun i j => j.toValue (identity + i)) := by
  rw [loadValues, loadJson, h]
  dsimp only
  rw [Json.items?_ofItems]

/-- Values whose trees hold no floating-point number are written as a text that loads exactly if
each of them nests at most 126 containers. What loads is each value's own tree as a value, and what
does not is refused for its depth. -/
theorem loadValues_compact_iff (identity : Nat) (vs : List Value)
    (integers : ∀ v ∈ vs, ∀ n ∈ v.toJson.raw.numbers, n.isInteger) :
    let text := (Json.ofItems (vs.map Value.toJson)).compact
    ((∃ loaded, loadValues identity text = .ok loaded) ↔ ∀ v ∈ vs, v.toJson.raw.depth ≤ 126) ∧
    (∀ loaded, loadValues identity text = .ok loaded →
      loaded = vs.mapIdx fun i v => v.toJson.toValue (identity + i)) ∧
    ∀ error, loadValues identity text = .error error → ∃ place,
      error = .malformed .recursionLimit place ∧ error.toFault = {
        code := "E_JSON"
        message := "recursion limit exceeded at line " ++ toString place.line ++
          " column " ++ toString place.column
        help := none } := by
  intro text
  have numbers : ∀ n ∈ (Json.ofItems (vs.map Value.toJson)).raw.numbers, n.isInteger := by
    intro n hn
    rw [Json.numbers_ofItems, List.flatMap_map] at hn
    obtain ⟨v, hv, hn⟩ := List.mem_flatMap.1 hn
    exact integers v hv n hn
  have depth : (Json.ofItems (vs.map Value.toJson)).raw.depth ≤ Json.maxDepth ↔
      ∀ v ∈ vs, v.toJson.raw.depth ≤ 126 := by
    rw [Json.maxDepth, Json.depth_ofItems_le_iff, List.forall_mem_map]
  obtain ⟨reads, refuses⟩ := Json.read_compact _ numbers
  by_cases shallow : ∀ v ∈ vs, v.toJson.raw.depth ≤ 126
  · have loads : loadValues identity text =
        .ok (vs.mapIdx fun i v => v.toJson.toValue (identity + i)) := by
      rw [loadValues_of_read (reads (depth.2 shallow))]
      exact congrArg Except.ok (List.ext_getElem (by simp) (by simp))
    rw [loads]
    refine ⟨⟨fun _ => shallow, fun _ => ⟨_, rfl⟩⟩, fun loaded h => ?_, fun error h => ?_⟩
    · exact (Except.ok.inj h).symm
    · cases h
  · obtain ⟨left, refused⟩ := refuses (Nat.lt_of_not_le (mt depth.1 shallow))
    have fails := loadValues_of_read_error refused identity
    rw [fails]
    refine ⟨⟨fun h => ?_, fun h => absurd h shallow⟩, fun loaded h => ?_, fun error h => ?_⟩
    · obtain ⟨_, h⟩ := h
      cases h
    · cases h
    · cases h
      exact ⟨_, rfl, LoadError.toFault_malformed _ _⟩

/-- A reference with a truth value and an integer of 64 bits nested in it comes back. -/
theorem loadValues_compact_nested :
    let tree := Json.ofMembers [("quote\"", .ofItems [.bool true, .null]),
      ("great", .number (.integer 0x8000000000000000 (by decide)))]
    let vs := [.text "line\n", .ref (.mk "/saved" 4 (.json tree)), .int (-7)]
    (∀ v ∈ vs, ∀ n ∈ v.toJson.raw.numbers, n.isInteger) ∧
      (∀ v ∈ vs, v.toJson.raw.depth ≤ 126) ∧
      loadValues 5 (Json.ofItems (vs.map Value.toJson)).compact =
        .ok [.text "line\n", .ref (.mk datumPath 6 (.json tree)), .int (-7)] := by
  intro tree vs
  have integers : ∀ v ∈ vs, ∀ n ∈ v.toJson.raw.numbers, n.isInteger := by decide
  have shallow : ∀ v ∈ vs, v.toJson.raw.depth ≤ 126 := by decide
  obtain ⟨loads, same, _⟩ := loadValues_compact_iff 5 vs integers
  obtain ⟨loaded, h⟩ := loads.2 shallow
  refine ⟨integers, shallow, ?_⟩
  rw [h, same loaded h]
  rfl

end Untyped
