import Mathlib
import Untyped.Proofs.Json.Integers
import Untyped.Proofs.Json.Places
import Untyped.Proofs.Value.Drift
import Untyped.Proofs.Value.Normal

/-! What integers load as, and that inside a container they are written as they are. -/
namespace Untyped
open Binary (Finite)
open Json (Blank Element NumberToken)

theorem exists_number_of_loadValue {identity : Nat} {text : String} {v : Value} {t : NumberToken}
    {before after : Blank} (written : text.toList = before.chars ++ t.text ++ after.chars)
    (loads : loadValue identity text = .ok v) : ∃ n, t.number? = some n ∧ v = n.toValue := by
  obtain ⟨j, tree, loaded⟩ :=
    tree?_of_loadValue (e := .scalar before (.number t) after) loads written.symm
  rw [Element.tree?_scalar, Json.Scalar.tree?] at tree
  obtain ⟨n, number, rfl⟩ := Option.map_eq_some_iff.1 tree
  exact ⟨n, number, Except.ok.inj (loads.symm.trans (loadValue_of_spaced written number identity))⟩

theorem exists_numberOutOfRange {text : String} {t : NumberToken} {before after : Blank}
    (written : text.toList = before.chars ++ t.text ++ after.chars) (outOfRange : t.number? = none)
    (identity : Nat) :
    ∃ place, loadValue identity text = .error (.malformed .numberOutOfRange place) := by
  obtain ⟨left, refused⟩ := Json.exists_numberOutOfRange outOfRange before after
  rw [← written] at refused
  exact ⟨_, loadValue_of_read_error refused identity⟩

theorem Json.not_altered_of_select? {j : Json} {s : Selector} {part : Raw}
    (h : j.raw.select? s = some part) : ¬j.Altered := by
  obtain ⟨raw, ordered⟩ := j
  cases raw with
  | array items => exact id
  | object members => exact id
  | _ => cases s <;> cases h

/-- What stands as a number at a place inside a container is written there as what it means. -/
theorem exists_copy_of_number {identity : Nat} {text : String} {v : Value} {e : Element}
    (loads : loadValue identity text = .ok v) (derived : e.text = text.toList)
    {path : List Json.Selector} (inside : path ≠ []) {t : NumberToken} {before after : Blank}
    (stands : e.at? path = some (.scalar before (.number t) after)) :
    ∃ (n : Json.Number) (out copy : Element), t.number? = some n ∧
      out.text = v.toJson.compact.toList ∧ out.at? path = some copy ∧ copy.text = n.write := by
  obtain ⟨j, tree, loaded⟩ := tree?_of_loadValue loads derived
  obtain ⟨k, scalar, place⟩ := Element.exists_tree_at stands tree
  rw [Element.tree?_scalar, Json.Scalar.tree?] at scalar
  obtain ⟨n, number, rfl⟩ := Option.map_eq_some_iff.1 scalar
  have unaltered : ¬j.Altered := by
    obtain ⟨s, path, rfl⟩ := List.exists_cons_of_ne_nil inside
    obtain ⟨part, selected, _⟩ := Option.bind_eq_some_iff.1 place
    exact Json.not_altered_of_select? selected
  have written : v.toJson = j := by
    obtain ⟨j', loaded', rfl⟩ := (loadValue_eq_ok_iff identity text v).1 loads
    obtain rfl := Except.ok.inj (loaded.symm.trans loaded')
    rw [Json.toJson_toValue_eq, Json.normal_of_not_altered unaltered]
  obtain ⟨out, outText, copies⟩ := Element.exists_copies j.raw j.ordered 0
  obtain ⟨copy, depth, same, copyText⟩ := copies path _ place
  refine ⟨n, out, copy, number, ?_, same, copyText⟩
  rw [written, outText]
  exact String.toList_ofList.symm

/-- An integer of at most 64 bits loads, blanks around it apart, as a small integer where 32 bits
hold it and as the double nearest to it where they do not; the negative zero is a double. Inside a
container, wherever its place is, it is written with its own digits, unless it is below the signed
integers of 64 bits or the negative zero. With a fraction or an exponent a number is a double. -/
theorem loadValue_integer (identity : Nat) :
    (∀ t : NumberToken, t.Plain → t.whole.natAbs < 2 ^ 64 →
      (∀ (before after : Blank) (text : String),
        text.toList = before.chars ++ t.text ++ after.chars →
        ∃ v, loadValue identity text = .ok v ∧
          (t.text = ['-', '0'] → v = .double (.finite ⟨true, 0, by decide⟩)) ∧
          (t.text ≠ ['-', '0'] → -2 ^ 31 ≤ t.whole ∧ t.whole < 2 ^ 31 →
            ∃ k : Int32, v = .int k ∧ k.toInt = t.whole) ∧
          (¬(-2 ^ 31 ≤ t.whole ∧ t.whole < 2 ^ 31) →
            ∃ x : Finite .double, v = .double (.finite x) ∧ x.IsNearest t.whole)) ∧
      (t.text ≠ ['-', '0'] → -2 ^ 63 ≤ t.whole →
        ∀ (text : String) (v : Value) (e : Element) (path : List Json.Selector)
          (before after : Blank), loadValue identity text = .ok v → e.text = text.toList →
          path ≠ [] → e.at? path = some (.scalar before (.number t) after) →
          ∃ out copy : Element, out.text = v.toJson.compact.toList ∧ out.at? path = some copy ∧
            copy.text = t.text)) ∧
    ∀ (t : NumberToken) (before after : Blank) (text : String) (v : Value),
      '.' ∈ t.text ∨ 'e' ∈ t.text ∨ 'E' ∈ t.text →
      text.toList = before.chars ++ t.text ++ after.chars → loadValue identity text = .ok v →
      ∃ x : Finite .double, v = .double (.finite x) := by
  have kept {t : NumberToken} (plain : t.Plain) (fits : t.whole.natAbs < 2 ^ 64)
      (other : t.text ≠ ['-', '0']) (low : -2 ^ 63 ≤ t.whole) :=
    plain.number?_of_inRange other (by omega)
  refine ⟨fun t plain fits => ⟨fun before after text written => ?_,
    fun other low text v e path before after loads derived inside stands => ?_⟩,
    fun t before after text v marked written loads => ?_⟩
  · by_cases minusZero : t.text = ['-', '0']
    · have zero := (plain.text_eq_iff.1 minusZero).2
      exact ⟨_, loadValue_of_spaced written (plain.number?_of_minus_zero minusZero) identity,
        fun _ => rfl, fun other => absurd minusZero other, fun large => by omega⟩
    · by_cases low : -2 ^ 63 ≤ t.whole
      · refine ⟨_, loadValue_of_spaced written (kept plain fits minusZero low) identity,
          fun same => absurd same minusZero, fun _ small => ?_, fun large => ?_⟩
        · exact ⟨Int32.ofInt t.whole, by rw [Json.Number.toValue, if_pos (by omega)],
            Int32.toInt_ofInt_of_le (by omega) (by omega)⟩
        · obtain ⟨x, hx, nearest, _⟩ := Binary.exists_ofInt (k := t.whole) (by omega)
          exact ⟨x, by rw [Json.Number.toValue, if_neg (by omega), Json.Number.toDouble, hx], nearest⟩
      · have below : t.integer?.bind Json.Number.ofInt? = none := by
          rw [plain.integer? minusZero, Option.bind_some, Json.Number.ofInt?, dif_neg (by omega)]
        obtain ⟨x, number, _, _, nearest⟩ := plain.number?_of_rounded (by omega) below
        exact ⟨_, loadValue_of_spaced written number identity,
          fun same => absurd same minusZero, fun _ small => by omega, fun _ => ⟨x, rfl, nearest⟩⟩
  · obtain ⟨n, out, copy, number, outText, same, copyText⟩ :=
      exists_copy_of_number loads derived inside stands
    obtain rfl := Option.some.inj ((kept plain fits other low).symm.trans number)
    exact ⟨out, copy, outText, same, copyText.trans (plain.text_eq other).symm⟩
  · obtain ⟨n, number, rfl⟩ := exists_number_of_loadValue written loads
    rw [t.point_mem_text_iff, t.letter_mem_text_iff] at marked
    obtain ⟨x, rfl⟩ := NumberToken.exists_float_of_marked marked number
    exact ⟨x, rfl⟩

/-- The greatest integer of 64 bits becomes a double when it is alone, but keeps its digits in a
list. -/
theorem loadValue_integer_greatest :
    (∃ x : Finite .double, loadValue 0 "18446744073709551615" = .ok (.double (.finite x)) ∧
      x.IsNearest (18446744073709551615 : Int)) ∧
    ∃ (v : Value) (out copy : Element), loadValue 0 "[18446744073709551615]" = .ok v ∧
      out.text = v.toJson.compact.toList ∧ out.at? [.item 0] = some copy ∧
      copy.text = "18446744073709551615".toList := by
  let t : NumberToken := ⟨false, 1, [8, 4, 4, 6, 7, 4, 4, 0, 7, 3, 7, 0, 9, 5, 5, 1, 6, 1, 5],
    fun h => absurd h (by decide), [], none⟩
  let e : Element := .array .none .none [.scalar .none (.number t) .none] .none
  have plain : t.Plain := ⟨rfl, rfl⟩
  have whole : t.whole = 18446744073709551615 := by decide
  have other : t.text ≠ ['-', '0'] := by decide
  have number := plain.number?_of_inRange other (by rw [whole]; decide)
  have derived : e.text = "[18446744073709551615]".toList := by decide
  have tree := Element.tree?_array .none .none [.scalar .none (.number t) .none] .none
  rw [List.map_singleton, Element.tree?_scalar, Json.Scalar.tree?, number, Option.map_some,
    Element.every, Option.bind_some, Element.every, Option.map_some, Option.map_some] at tree
  obtain ⟨alone, inside⟩ := (loadValue_integer 0).1 t plain (by rw [whole]; decide)
  obtain ⟨v, loads, _, _, large⟩ := alone .none .none "18446744073709551615" (by decide)
  obtain ⟨x, rfl, nearest⟩ := large (by rw [whole]; decide)
  have listed := loadValue_of_derived derived (by decide) tree 0
  obtain ⟨out, copy, outText, same, copyText⟩ :=
    inside other (by rw [whole]; decide) _ _ e [.item 0] .none .none listed derived (by decide) rfl
  refine ⟨⟨x, loads, by rwa [whole] at nearest⟩, _, out, copy, listed, outText, same, ?_⟩
  rw [copyText]
  decide

end Untyped
