import Mathlib
import Untyped.Proofs.Json.Reading
import Untyped.Proofs.Json.Unambiguous
import Untyped.Value.Load

/-! Which texts load, and as what. -/
namespace Untyped
open Json (Element)

theorem loadJson_eq_ok_iff_read (text : String) (j : Json) :
    loadJson text = .ok j ↔ Json.read text = .ok j := by
  rw [loadJson]
  cases Json.read text <;> simp

theorem loadJson_eq_ok_iff (text : String) (j : Json) :
    loadJson text = .ok j ↔
      ∃ e : Element, e.text = text.toList ∧ e.depth ≤ 127 ∧ e.tree? = some j := by
  rw [loadJson_eq_ok_iff_read, Json.read]
  exact Json.readChars_eq_ok_iff text.toList j

theorem loadValue_eq_ok_iff (identity : Nat) (text : String) (v : Value) :
    loadValue identity text = .ok v ↔ ∃ j, loadJson text = .ok j ∧ v = j.toValue identity := by
  rw [loadValue]
  cases loadJson text with
  | error e => simp
  | ok j => simp [eq_comm]

theorem loadValues_eq_ok_iff (identity : Nat) (text : String) (vs : List Value) :
    loadValues identity text = .ok vs ↔ ∃ j items, loadJson text = .ok j ∧ j.items? = some items ∧
      vs = items.mapIdx fun i item => item.toValue (identity + i) := by
  rw [loadValues]
  cases loadJson text with
  | error e => simp
  | ok j => cases h : j.items? <;> simp [h, eq_comm]

theorem tree?_of_loadJson {text : String} {j : Json} (loaded : loadJson text = .ok j) {e : Element}
    (derived : e.text = text.toList) : e.tree? = some j := by
  obtain ⟨e', derived', _, tree⟩ := (loadJson_eq_ok_iff text j).1 loaded
  rw [Element.tree?_eq_of_text_eq (derived.trans derived'.symm), tree]

theorem tree?_of_loadValue {identity : Nat} {text : String} {v : Value}
    (h : loadValue identity text = .ok v) {e : Element} (derived : e.text = text.toList) :
    ∃ j, e.tree? = some j ∧ loadJson text = .ok j := by
  obtain ⟨j, loaded, _⟩ := (loadValue_eq_ok_iff identity text v).1 h
  exact ⟨j, tree?_of_loadJson loaded derived, loaded⟩

theorem loadValue_of_derived {e : Element} {text : String} {j : Json} (derived : e.text = text.toList)
    (depth : e.depth ≤ 127) (tree : e.tree? = some j) (identity : Nat) :
    loadValue identity text = .ok (j.toValue identity) :=
  (loadValue_eq_ok_iff _ _ _).2 ⟨j, (loadJson_eq_ok_iff text j).2 ⟨e, derived, depth, tree⟩, rfl⟩

/-- What is reported of a malformed text. -/
theorem LoadError.toFault_malformed (reason : Json.Reason) (place : Text.Position) :
    (malformed reason place).toFault = {
      code := "E_JSON"
      message := reason.message ++ " at line " ++ toString place.line ++
        " column " ++ toString place.column
      help := none } := by
  rw [← Digit.text_eq_toString, ← Digit.text_eq_toString]
  rfl

theorem loadJson_of_read_error {text : String} {failure : Json.Failure}
    (h : Json.read text = .error failure) :
    loadJson text = .error (.malformed failure.reason (failure.position text.toList)) := by
  rw [loadJson, h]

theorem loadValue_of_read_error {text : String} {failure : Json.Failure}
    (h : Json.read text = .error failure) (identity : Nat) :
    loadValue identity text =
      .error (.malformed failure.reason (failure.position text.toList)) := by
  rw [loadValue, loadJson_of_read_error h]

theorem loadValues_of_read_error {text : String} {failure : Json.Failure}
    (h : Json.read text = .error failure) (identity : Nat) :
    loadValues identity text =
      .error (.malformed failure.reason (failure.position text.toList)) := by
  rw [loadValues, loadJson_of_read_error h]

theorem exists_malformed {identity : Nat} {text : String} {error : LoadError}
    (h : loadValue identity text = .error error) :
    ∃ failure, Json.read text = .error failure ∧
      error = .malformed failure.reason (failure.position text.toList) := by
  cases read : Json.read text with
  | error failure =>
    rw [loadValue_of_read_error read] at h
    exact ⟨failure, rfl, (Except.error.inj h).symm⟩
  | ok j =>
    rw [loadValue, (loadJson_eq_ok_iff_read text j).2 read] at h
    cases h

/-- A text loads exactly if the grammar derives it within 127 levels, with every half of a pair
beside its other half and every number in range; it loads as the tree of the derivation, in which of
members with one name the last one is kept. Any other text is reported as malformed. -/
theorem loadValue_iff_derivable (identity : Nat) (text : String) :
    ((∃ v, loadValue identity text = .ok v) ↔
      ∃ e : Element, e.text = text.toList ∧ e.depth ≤ 127 ∧ e.Paired ∧ e.InRange) ∧
    (∀ e : Element, e.text = text.toList → e.depth ≤ 127 → e.Paired → e.InRange →
      ∃ j, e.tree? = some j ∧ loadValue identity text = .ok (j.toValue identity)) ∧
    (∀ before gap members after j, (Element.object before gap members after).tree? = some j →
      ∃ decoded, Element.every (members.map fun m => Element.member? (m.1, m.2.tree?)) =
        some decoded ∧ Element.KeepsLast decoded j) ∧
    ∀ error, loadValue identity text = .error error →
      error.toFault.code = "E_JSON" ∧ error.toFault.help = none := by
  have loads (e : Element) (htext : e.text = text.toList) (hdepth : e.depth ≤ 127)
      (paired : e.Paired) (inRange : e.InRange) :
      ∃ j, e.tree? = some j ∧ loadValue identity text = .ok (j.toValue identity) := by
    obtain ⟨j, hj⟩ := Option.isSome_iff_exists.1 (e.isSome_tree?_iff.2 ⟨paired, inRange⟩)
    have hload := (loadJson_eq_ok_iff text j).2 ⟨e, htext, hdepth, hj⟩
    exact ⟨j, hj, (loadValue_eq_ok_iff identity text _).2 ⟨j, hload, rfl⟩⟩
  refine ⟨⟨?_, ?_⟩, loads, fun _ _ _ _ _ => Element.keepsLast_of_tree?, ?_⟩
  · rintro ⟨v, hv⟩
    obtain ⟨j, hj, _⟩ := (loadValue_eq_ok_iff identity text v).1 hv
    obtain ⟨e, htext, hdepth, hj⟩ := (loadJson_eq_ok_iff text j).1 hj
    obtain ⟨paired, inRange⟩ := e.isSome_tree?_iff.1 (by rw [hj]; rfl)
    exact ⟨e, htext, hdepth, paired, inRange⟩
  · rintro ⟨e, htext, hdepth, paired, inRange⟩
    obtain ⟨j, _, hload⟩ := loads e htext hdepth paired inRange
    exact ⟨_, hload⟩
  · intro error h
    obtain ⟨failure, _, rfl⟩ := exists_malformed h
    exact ⟨rfl, rfl⟩

end Untyped
