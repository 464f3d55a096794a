import Mathlib
import Untyped.Proofs.Json.Inside
import Untyped.Proofs.Value.Load

/-! Blanks around a text. They change nothing of what it loads as, and where it does not load, those
before it move the place of the failure and nothing else. -/
namespace Untyped
open Text (Position bytes bytes_toList byteLength byteLength_append utf8)

namespace Json

theorem readChars_blank_append (b : Blank) (text : List Char) :
    readChars (b.chars ++ text) = readChars text := by
  have skips := (localItem_readNested maxDepth).skips
  rw [readChars_eq, readChars_eq, ← skips (b.chars ++ text), skipBlank_append, skips]

theorem readChars_append_blank {text : List Char} {j : Json} (h : readChars text = .ok j)
    (b : Blank) : readChars (text ++ b.chars) = .ok j := by
  obtain ⟨e, rfl, depth, tree⟩ := (readChars_eq_ok_iff text j).1 h
  have ends := ends_append e.after (ends_append b ends_nil)
  have taken := takes_readNested e maxDepth j depth tree _ _ ends rfl
  rw [List.append_nil] at taken
  rw [readChars_eq, e.text_eq, List.append_assoc, taken]
  dsimp only
  rw [skipBlank_append, skipBlank_blank]

/-- What is put before a text moves the places of its failures by its lines, and those on the first
line by what it has on its last one. -/
theorem Failure.position_append {text : List Char} {failure : Failure}
    (inside : failure.left ≤ byteLength text) (before : List Char) :
    failure.position (before ++ text) =
      let place := failure.position text
      ⟨place.line + (bytes before).count 10, if place.line = 1 then
        place.column + ((bytes before).reverse.takeWhile (· != 10)).length else place.column⟩ := by
  have skipped : byteLength (before ++ text) - failure.left =
      (bytes before).length + (byteLength text - failure.left) := by
    rw [byteLength_append, Text.length_bytes]
    omega
  rw [position, position, Position.ofBytes_eq, Position.ofBytes_eq, skipped, Text.bytes_append,
    List.take_length_add_append, Position.afterBytes_append]

end Json

/-- Blanks before or after a text that loads change nothing. Where a text does not load, blanks
before it leave the reason as it is; the line is that many lines further down as they have line
feeds, and the column is further to the right, by their bytes after the last line feed, only on the
first line of the text. -/
theorem loadValue_padded (identity : Nat) (blanks text : String)
    (blank : ∀ c ∈ blanks.toList, c ∈ [' ', '\t', '\n', '\r']) :
    let report (reason : Json.Reason) (line column : Nat) : Fault := {
      code := "E_JSON"
      message := reason.message ++ " at line " ++ toString line ++ " column " ++ toString column
      help := none }
    (∀ v, loadValue identity (blanks ++ text) = .ok v ↔ loadValue identity text = .ok v) ∧
    (∀ error, loadValue identity text = .error error →
      ∃ (reason : Json.Reason) (line column : Nat),
        error = .malformed reason ⟨line, column⟩ ∧ error.toFault = report reason line column ∧
        let line' := line + (utf8 blanks).count 10
        let column' := if line = 1 then
          column + ((utf8 blanks).reverse.takeWhile (· != 10)).length else column
        ∃ error', loadValue identity (blanks ++ text) = .error error' ∧
          error' = .malformed reason ⟨line', column'⟩ ∧
          error'.toFault = report reason line' column') ∧
    ∀ v, loadValue identity text = .ok v → loadValue identity (text ++ blanks) = .ok v := by
  intro report
  let b : Json.Blank := ⟨blanks.toList, fun c hc => by
    have := blank c hc
    simp only [List.mem_cons, List.not_mem_nil, or_false] at this
    obtain rfl | rfl | rfl | rfl := this <;> rfl⟩
  have before : Json.read (blanks ++ text) = Json.read text := by
    rw [Json.read, Json.read, String.toList_append]
    exact Json.readChars_blank_append b text.toList
  refine ⟨fun v => ?_, fun error h => ?_, fun v h => ?_⟩
  · simp only [loadValue_eq_ok_iff, loadJson_eq_ok_iff_read, before]
  · obtain ⟨failure, read, rfl⟩ := exists_malformed h
    have inside := Json.left_le_of_readChars read
    have moved := Json.Failure.position_append inside blanks.toList
    rw [bytes_toList, ← String.toList_append] at moved
    refine ⟨failure.reason, _, _, rfl, LoadError.toFault_malformed _ _, _,
      loadValue_of_read_error (before.trans read) identity, congrArg _ moved, ?_⟩
    rw [LoadError.toFault_malformed, moved]
    rfl
  · obtain ⟨j, loaded, rfl⟩ := (loadValue_eq_ok_iff _ _ _).1 h
    have read := Json.readChars_append_blank ((loadJson_eq_ok_iff_read _ _).1 loaded) b
    rw [← String.toList_append] at read
    exact (loadValue_eq_ok_iff _ _ _).2 ⟨j, (loadJson_eq_ok_iff_read _ _).2 read, rfl⟩

/-- A missing comma on the first line of the text, which blanks make the second one. -/
theorem loadValue_padded_comma :
    let blanks := " \n\t"
    let text := "[1 2]"
    (∀ c ∈ blanks.toList, c ∈ [' ', '\t', '\n', '\r']) ∧
      loadValue 0 text = .error (.malformed .expectedCommaOrBracket ⟨1, 4⟩) ∧
      ∃ error, loadValue 0 (blanks ++ text) = .error error ∧
        error = .malformed .expectedCommaOrBracket ⟨2, 5⟩ ∧
        error.toFault = ⟨"E_JSON", "expected `,` or `]` at line 2 column 5", none⟩ := by
  intro blanks text
  have blank : ∀ c ∈ blanks.toList, c ∈ [' ', '\t', '\n', '\r'] := by simp [blanks]
  have refused : loadValue 0 text = .error (.malformed .expectedCommaOrBracket ⟨1, 4⟩) := by cbv
  obtain ⟨reason, line, column, same, _, error, fails, moved, reported⟩ :=
    (loadValue_padded 0 blanks text blank).2.1 _ refused
  obtain ⟨rfl, place⟩ := LoadError.malformed.inj same
  obtain ⟨rfl, rfl⟩ := Position.mk.inj place
  refine ⟨blank, refused, error, fails, moved.trans ?_, reported.trans ?_⟩
  · cbv
  · cbv

end Untyped
