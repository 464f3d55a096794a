import Mathlib
import Untyped.Proofs.Json.Locality
import Untyped.Proofs.Value.Load

/-! Where a text that cannot be loaded is reported to be wrong, and what the report depends on. -/
namespace Untyped
open Text (Position bytes bytes_toList utf8)

namespace Json

theorem Reason.settled_of_message {r : Reason}
    (notEnd : ¬"EOF while parsing ".toList <+: r.message.toList)
    (notRange : r.message ≠ "number out of range") : r.settled := by
  cases r
  all_goals first | rfl | exact absurd (by decide) notEnd | exact absurd rfl notRange

/-- A settled failure is the same in every text that starts with the same bytes up to its place. -/
theorem read_fails {text : String} {e : Failure} (h : read text = .error e)
    (settled : e.reason.settled) {p : Nat} (hp : p = (utf8 text).length - e.left) {text' : String}
    (same : (utf8 text').take p = (utf8 text).take p) :
    ∃ e', read text' = .error e' ∧ e'.reason = e.reason ∧
      e'.position text'.toList = e.position text.toList := by
  have length (s : String) : Text.byteLength s.toList = (utf8 s).length := by
    rw [← Text.length_bytes, bytes_toList]
  obtain ⟨inside, fails⟩ := readChars_fails h settled
  rw [length] at inside
  have agree : Text.Agree ((utf8 text).drop p) ((utf8 text').drop p) text.toList text'.toList :=
    ⟨(utf8 text).take p, by rw [bytes_toList, List.take_append_drop], by
      rw [← same, bytes_toList, List.take_append_drop]⟩
  have within : p ≤ (utf8 text').length := by
    have := congrArg List.length same
    rw [List.length_take, List.length_take] at this
    omega
  refine ⟨_, fails _ _ _ agree (by rw [List.length_drop]; omega), rfl, ?_⟩
  have left : (utf8 text').length - ((utf8 text').drop p).length = p := by
    rw [List.length_drop]
    omega
  simp only [Failure.position, length, Position.ofBytes_eq, bytes_toList, left, same, ← hp]

end Json

/-- A text that cannot be loaded is reported with the place of one of its bytes, or its end. Unless
the text has ended too early or a number is out of range, the report depends on nothing but the bytes
before that place. -/
theorem loadValue_fault_located (identity : Nat) (text : String) (error : LoadError)
    (h : loadValue identity text = .error error) :
    ∃ (reason : Json.Reason) (p : Nat), p ≤ (utf8 text).length ∧
      let place := Position.afterBytes ((utf8 text).take p)
      let report : Fault := {
        code := "E_JSON"
        message := reason.message ++ " at line " ++ toString place.line ++
          " column " ++ toString place.column
        help := none }
      error = .malformed reason place ∧ error.toFault = report ∧
      (¬"EOF while parsing ".toList <+: reason.message.toList →
        reason.message ≠ "number out of range" →
        ∀ (identity' : Nat) (text' : String), (utf8 text').take p = (utf8 text).take p →
          ∃ error', loadValue identity' text' = .error error' ∧
            error' = .malformed reason place ∧ error'.toFault = report) := by
  obtain ⟨failure, hread, rfl⟩ := exists_malformed h
  have place : failure.position text.toList =
      Position.afterBytes ((utf8 text).take ((utf8 text).length - failure.left)) := by
    rw [← bytes_toList, Text.length_bytes, ← Position.ofBytes_eq]
    rfl
  refine ⟨failure.reason, _, Nat.sub_le _ _, congrArg _ place, ?_, ?_⟩
  · rw [LoadError.toFault_malformed, place]
  · intro notEnd notRange identity' text' same
    have settled := Json.Reason.settled_of_message notEnd notRange
    obtain ⟨failure', hread', reason', place'⟩ := Json.read_fails hread settled rfl same
    refine ⟨_, loadValue_of_read_error hread' identity', ?_, ?_⟩
    · rw [reason', place', place]
    · rw [LoadError.toFault_malformed, reason', place', place]

/-- A place on the second line, behind a character of two bytes. -/
theorem loadValue_fault_located_comma :
    let text := "[1,\n \"é\" 2]"
    let error := LoadError.malformed .expectedCommaOrBracket ⟨2, 7⟩
    loadValue 0 text = .error error ∧
      error.toFault.message = "expected `,` or `]` at line 2 column 7" ∧
      ∃ (reason : Json.Reason) (p : Nat), p ≤ (utf8 text).length ∧
        let place := Position.afterBytes ((utf8 text).take p)
        let report : Fault := {
          code := "E_JSON"
          message := reason.message ++ " at line " ++ toString place.line ++
            " column " ++ toString place.column
          help := none }
        error = .malformed reason place ∧ error.toFault = report ∧
        (¬"EOF while parsing ".toList <+: reason.message.toList →
          reason.message ≠ "number out of range" →
          ∀ (identity' : Nat) (text' : String), (utf8 text').take p = (utf8 text).take p →
            ∃ error', loadValue identity' text' = .error error' ∧
              error' = .malformed reason place ∧ error'.toFault = report) := by
  intro text error
  have h : loadValue 0 text = .error error := by cbv
  exact ⟨h, by cbv, loadValue_fault_located 0 text error h⟩

end Untyped
