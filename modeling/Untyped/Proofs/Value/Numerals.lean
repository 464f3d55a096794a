import Mathlib
import Untyped.Proofs.Json.Denotation
import Untyped.Proofs.Value.Drift
import Untyped.Proofs.Value.Widened

/-! The two texts of a number, the one that is shown and the one in JSON. The texts of a single
denote the same number; those of a double do, unless it is halfway between two short decimals. -/
namespace Untyped
open Binary (Finite)
open Json (Denotes)

theorem toList_display_double (x : Finite .double) :
    (Value.double (.finite x)).display.toList = x.write Value.style := String.toList_ofList

theorem toList_display_single (x : Finite .single) :
    (Value.single (.finite x)).display.toList = x.write Value.style := String.toList_ofList

theorem toList_compact_double (x : Finite .double) :
    (Value.double (.finite x)).toJson.compact.toList = x.write Json.Number.style :=
  String.toList_ofList

theorem toJson_single_of_widenByText {x : Finite .single} {y : Finite .double}
    (widened : Binary.widenByText (.finite x) = .finite y) :
    (Value.single (.finite x)).toJson = (Value.double (.finite y)).toJson := by
  change Json.ofDouble (Binary.widenByText (.finite x)) = _
  rw [widened]
  rfl

theorem denotes_compact_double (x : Finite .double) :
    Denotes (Value.double (.finite x)).toJson.compact x.negative (x.shortest .even).toRat := by
  obtain ⟨t, literal⟩ := Json.exists_literalOf x
  exact ⟨t, literal.text.trans (toList_compact_double x).symm, literal.negative,
    literal.magnitude_numeral⟩

/-- The two texts of a finite single denote the same number, the sign of zero included, and it rounds
to the single. The text of every single is read as a double, and the trees of those that are not
finite are null. -/
theorem single_texts_agree :
    (∀ x : Finite .single, let v := Value.single (.finite x)
      ∃ q, Denotes v.display x.negative q ∧ Denotes v.toJson.compact x.negative q ∧
        Binary.ofRat .single x.negative q = .finite x) ∧
    (∀ x : Single, (Binary.read? .double (x.write Value.style)).isSome) ∧
    (Value.single .nan).toJson = .null ∧
    ∀ negative, (Value.single (.infinite negative)).toJson = .null := by
  refine ⟨fun x => ?_, Binary.isSome_read?_write, rfl, fun negative => by cases negative <;> rfl⟩
  obtain ⟨t, text, sign, magnitude, _⟩ := Json.exists_token_shown x
  obtain ⟨y, widened, negative, _⟩ := Binary.exists_widenByText x
  have written := denotes_compact_double y
  rw [negative, Binary.shortest_widenByText widened] at written
  refine ⟨_, ⟨t, text.trans (toList_display_single x).symm, sign, magnitude⟩, ?_,
    Binary.ofRat_of_roundsTo (Decimal.toRat_nonneg _) (x.roundsTo_shortest .up)⟩
  rw [toJson_single_of_widenByText widened]
  exact written

/-- The two texts of a finite double round to it, each in its sign. They denote the same number,
unless the double is halfway between two neighbours of the coarsest decimals that round to it: then
the upper one is shown, and the lower one, whose last digit is even, stands in JSON. No exponent is
shown; in JSON there is a fraction or an exponent, and what loads is a double. -/
theorem double_texts_faithful (identity : Nat) (x : Finite .double) :
    let v := Value.double (.finite x)
    ∃ shown written : ℚ,
      Denotes v.display x.negative shown ∧ Denotes v.toJson.compact x.negative written ∧
      Binary.ofRat .double x.negative shown = .finite x ∧
      Binary.ofRat .double x.negative written = .finite x ∧
      (shown = written ∨ ∃ (below : Nat) (exponent : Int), below % 2 = 0 ∧
        shown = (below + 1) * 10 ^ exponent ∧ written = below * 10 ^ exponent ∧
        shown + written = 2 * Format.double.value x.rank ∧
        ∀ (digits : Nat) (place : Int),
          Binary.ofRat .double x.negative (digits * 10 ^ place) = .finite x → place ≤ exponent) ∧
      ('e' ∉ v.display.toList ∧ 'E' ∉ v.display.toList) ∧
      (∃ t : Json.NumberToken, t.text = v.toJson.compact.toList ∧
        (t.fraction ≠ [] ∨ t.exponent ≠ none)) ∧
      ∃ y, loadValue identity v.toJson.compact = .ok (.double y) := by
  intro v
  obtain ⟨t, text, sign, magnitude, plain⟩ := Json.exists_token_shown x
  obtain ⟨u, literal⟩ := Json.exists_literalOf x
  obtain ⟨y, number, _⟩ := literal.exists_number?
  have written : u.text = v.toJson.compact.toList :=
    literal.text.trans (toList_compact_double x).symm
  refine ⟨_, _, ⟨t, text.trans (toList_display_double x).symm, sign, magnitude⟩,
    denotes_compact_double x,
    Binary.ofRat_of_roundsTo (Decimal.toRat_nonneg _) (x.roundsTo_shortest .up),
    Binary.ofRat_of_roundsTo (Decimal.toRat_nonneg _) (x.roundsTo_shortest .even), ?_, ?_,
    ⟨u, written, literal.marked⟩, .finite y, loadValue_of_number? written number identity⟩
  · obtain same | ⟨below, exponent, even, up, down, halfway⟩ := x.shortest_tie
    · exact .inl (by rw [same])
    · refine .inr ⟨below, exponent, even, ?_, ?_, ?_, fun digits place rounds => ?_⟩
      · rw [up, Decimal.toRat, Nat.cast_succ]
      · rw [down, Decimal.toRat]
      · rw [up, down, halfway, Decimal.toRat, Decimal.toRat]
        push_cast
        ring
      · have positive : 0 < x.rank := by
          by_contra zero
          rw [x.shortest_zero .up (Nat.eq_zero_of_not_pos zero)] at up
          exact absurd (congrArg Decimal.coefficient up) (Nat.succ_ne_zero below).symm
        have coarsest := x.exponent_le_shortest .up positive (d := ⟨digits, place⟩)
          (Binary.roundsTo_of_ofRat (Decimal.toRat_nonneg _) rounds)
        rwa [up] at coarsest
  · rw [toList_display_double, ← text, ← not_or, t.letter_mem_text_iff, plain]
    simp

/-- Halfway between two short decimals the texts of a double differ. -/
theorem double_texts_differ :
    let v := Value.double (.finite ⟨false, 0x4313bd46bd7cbb25, by decide⟩)
    v.display = "1389034020482761.3" ∧ v.toJson.compact = "1389034020482761.2" ∧
      ¬∃ negative q, Denotes v.display negative q ∧ Denotes v.toJson.compact negative q := by
  intro v
  let x : Finite .double := ⟨false, 0x4313bd46bd7cbb25, by decide⟩
  have up : x.shortest .up = ⟨13890340204827613, -1⟩ := by decide +kernel
  have even : x.shortest .even = ⟨13890340204827612, -1⟩ := by decide +kernel
  refine ⟨by decide +kernel, by decide +kernel, ?_⟩
  rintro ⟨negative, q, shown, written⟩
  obtain ⟨t, text, sign, magnitude, _⟩ := Json.exists_token_shown x
  have here : Denotes v.display x.negative (x.shortest .up).toRat :=
    ⟨t, text.trans (toList_display_double x).symm, sign, magnitude⟩
  have same := (here.unique shown).2.trans (written.unique (denotes_compact_double x)).2
  rw [up, even] at same
  norm_num [Decimal.toRat] at same

end Untyped
