import Mathlib
import Untyped.Proofs.Json.Unspaced
import Untyped.Proofs.Text.Bytes
import Untyped.Value.Json

/-! The compact text of a value is one line: values written one on each line are told apart by the
newlines alone. -/
namespace Untyped

/-- No byte of a value's compact text is a control character, and outside the string literals, all
of which are closed, there are only printing characters of one byte, so no blank of any kind. Hence
the texts of any number of values, one on each line, are what stands between the newlines. -/
theorem compact_toJson_line :
    (∀ v : Value, let text := v.toJson.compact
      (∀ b ∈ Text.utf8 text, 0x20 ≤ b.toNat) ∧
      (∀ c ∈ Text.unquoted .outside text.toList, Text.IsGraphic c) ∧
      text.toList.foldl Text.Quoting.next .outside = .outside) ∧
    ∀ vs : List Value, vs ≠ [] →
      let texts := vs.map fun v => v.toJson.compact
      (("\n".intercalate texts).split '\n').toList.map String.Slice.copy = texts := by
  refine ⟨fun v => ?_, fun vs some => ?_⟩
  · intro text
    have unspaced : Text.Unspaced .outside text.toList := v.toJson.unspaced_compact
    have bytes := Text.le_toNat_of_mem_bytes (by decide) unspaced.printed
    rw [Text.bytes_toList] at bytes
    exact ⟨bytes, unspaced.graphic, unspaced.returns⟩
  · intro texts
    have absent : ∀ text ∈ texts, '\n' ∉ text.toList := by
      intro text mem newline
      obtain ⟨v, _, rfl⟩ := List.mem_map.1 mem
      exact absurd (v.toJson.unspaced_compact.printed _ newline) (by decide)
    have split := String.toList_split_intercalate absent
    rwa [if_neg (mt List.map_eq_nil_iff.1 some)] at split

/-- Newlines, a tab and quotes in a name, a string and a type path. -/
theorem compact_toJson_line_controls :
    let datum := Value.ref (.mk datumPath 1
      (.json (.ofMembers [("a\n", .ofItems [.string "\t \" ", .null]), ("b", .null)])))
    let foreign := Value.object "/mob\r\n" 2
    let texts := ["\x7b\"a\\n\":[\"\\t \\\" \",null],\"b\":null\x7d",
      "\x7b\"$ref\":\"/mob\\r\\n\"\x7d"]
    [datum.toJson.compact, foreign.toJson.compact] = texts ∧
      0x20 ∈ Text.utf8 datum.toJson.compact ∧ 0x20 ≤ (0x20 : UInt8).toNat ∧
      ',' ∈ Text.unquoted .outside datum.toJson.compact.toList ∧ Text.IsGraphic ',' ∧
      [datum, foreign] ≠ [] ∧
      (("\n".intercalate texts).split '\n').toList.map String.Slice.copy = texts := by
  intro datum foreign texts
  have written : [datum.toJson.compact, foreign.toJson.compact] = texts := by decide +kernel
  obtain ⟨line, split⟩ := compact_toJson_line
  obtain ⟨printed, graphic, _⟩ := line datum
  have blank : 0x20 ∈ Text.utf8 datum.toJson.compact := by decide +kernel
  have comma : ',' ∈ Text.unquoted .outside datum.toJson.compact.toList := by decide +kernel
  have some : [datum, foreign] ≠ [] := List.cons_ne_nil _ _
  refine ⟨written, blank, printed _ blank, comma, graphic _ comma, some, ?_⟩
  rw [← written]
  exact split [datum, foreign] some

end Untyped
