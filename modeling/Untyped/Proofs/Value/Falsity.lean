import Mathlib
import Untyped.Proofs.Json.Underflow
import Untyped.Proofs.Text.Bytes
import Untyped.Proofs.Value.Branch
import Untyped.Proofs.Value.Integers

/-! Which texts load as a false value. It is told by their tokens, but for numbers so near to zero
that they become one. -/
namespace Untyped
open Json (Blank Element NumberToken)
open Format (double)

theorem Digit.toNat_eq_zero_iff (ds : List Digit) : toNat ds = 0 ↔ ∀ d ∈ ds, d = zero := by
  induction ds using List.reverseRecOn with
  | nil => simp [toNat, append]
  | append_singleton ds d ih =>
    have value : toNat (ds ++ [d]) = toNat ds * 10 + d.val := append_append 0 ds [d]
    have last : d = zero ↔ d.val = 0 := Fin.ext_iff
    rw [value, List.forall_mem_append, List.forall_mem_singleton, ← ih, last]
    omega

namespace Json

namespace NumberToken

/-- All the digits before the exponent are zero. -/
def IsZero (t : NumberToken) : Prop := ∀ d ∈ t.leading :: t.later ++ t.fraction, d = Digit.zero

/-- A number that is not zero but becomes a double that is. -/
def Underflows (t : NumberToken) : Prop :=
  ¬t.IsZero ∧ ∃ x, t.number? = some (.float x) ∧ x.isZero

variable {t : NumberToken}

theorem isZero_iff : t.IsZero ↔ t.numeral.significand = 0 := by
  rw [Numeral.significand_eq_zero_iff]
  exact (Digit.toNat_eq_zero_iff _).symm

theorem eq_zero_of_integer? {k : Int} (integer : t.integer? = some k) : k = 0 ↔ t.IsZero := by
  have zero : Digit.toNat (t.leading :: t.later) = 0 ↔
      ∀ d ∈ t.leading :: t.later, d = Digit.zero :=
    Digit.toNat_eq_zero_iff _
  obtain ⟨plain, rfl⟩ := plain_of_integer? integer
  rw [IsZero, plain.fraction, List.append_nil, ← zero, ← natAbs_whole, Int.natAbs_eq_zero]

theorem IsZero.exists_number? (zero : t.IsZero) : ∃ n, t.number? = some n ∧ (number n).Void := by
  have rounded := Numeral.toRounded_of_zero (isZero_iff.1 zero)
  obtain ⟨n, number⟩ : ∃ n, t.number? = some n := by
    rw [number?, rounded]
    cases t.integer?.bind Number.ofInt? with
    | none => exact ⟨_, rfl⟩
    | some n => exact ⟨n, rfl⟩
  refine ⟨n, number, ?_⟩
  obtain ⟨k, h, rfl, integer⟩ | ⟨x, rfl, float⟩ := number?_cases number
  · exact (eq_zero_of_integer? integer).2 zero
  · obtain rfl := Number.float.inj (Except.ok.inj (float.symm.trans rounded))
    exact rfl

/-- A number in range is false exactly if it is zero or becomes it. -/
theorem void_iff {n : Number} (h : t.number? = some n) :
    (number n).Void ↔ t.IsZero ∨ t.Underflows := by
  constructor
  · intro void
    by_cases zero : t.IsZero
    · exact .inl zero
    · obtain ⟨k, _, rfl, integer⟩ | ⟨x, rfl, _⟩ := number?_cases h
      · exact .inl ((eq_zero_of_integer? integer).1 void)
      · exact .inr ⟨zero, x, h, void⟩
  · rintro (zero | ⟨_, x, float, isZero⟩)
    · obtain ⟨m, number, void⟩ := zero.exists_number?
      obtain rfl := Option.some.inj (h.symm.trans number)
      exact void
    · obtain rfl := Option.some.inj (h.symm.trans float)
      exact isZero

theorem Underflows.magnitude_lt (h : t.Underflows) (few : t.text.length ≤ 2 ^ 30) :
    t.numeral.magnitude < 1 / 2 ^ 1074 := by
  obtain ⟨nonzero, x, number, zero⟩ := h
  obtain ⟨_, _, kept, _⟩ | ⟨_, same, rounded⟩ := number?_cases number
  · cases kept
  obtain rfl := Number.float.inj same
  have scale : double.scale = 1074 := by decide
  have digits := t.length_digits_le
  have below := Numeral.magnitude_lt_of_zero (mt isZero_iff.2 nonzero) (by omega) rounded
    (beq_iff_eq.1 zero)
  rwa [Format.gap_zero, scale] at below

example : NumberToken.Underflows ⟨false, 1, [], fun _ => rfl, [],
    some ⟨false, some true, [4, 0, 0], List.cons_ne_nil _ _⟩⟩ :=
  ⟨fun zero => absurd (zero 1 (by simp)) (by decide), ⟨false, 0, by decide⟩, by decide +kernel, rfl⟩

end NumberToken

def Scalar.ZeroLike : Scalar → Prop
  | null => True
  | bool b => b = false
  | number t => t.IsZero ∨ t.Underflows
  | string pieces => pieces = []

theorem decode?_eq_nil_iff (pieces : List Piece) : decode? pieces = some [] ↔ pieces = [] := by
  constructor
  · intro h
    cases pieces with
    | nil => rfl
    | cons p later =>
      unfold decode? at h
      split at h
      next =>
        obtain ⟨_, _, h⟩ := Option.map_eq_some_iff.1 h
        cases h
      next =>
        split at h
        next => cases h
        next =>
          obtain ⟨_, _, h⟩ := Option.bind_eq_some_iff.1 h
          obtain ⟨_, _, h⟩ := Option.map_eq_some_iff.1 h
          cases h
  · rintro rfl
    rfl

theorem Scalar.void_iff {value : Scalar} {j : Json} (tree : value.tree? = some j) :
    j.Void ↔ value.ZeroLike := by
  cases value with
  | null =>
    cases tree
    exact Iff.rfl
  | bool b =>
    cases tree
    exact Iff.rfl
  | number t =>
    obtain ⟨n, number, rfl⟩ := Option.map_eq_some_iff.1 tree
    exact NumberToken.void_iff number
  | string pieces =>
    obtain ⟨cs, decoded, rfl⟩ := Option.map_eq_some_iff.1 tree
    have empty : String.ofList cs = "" ↔ cs = [] := by
      rw [← String.toList_inj, String.toList_ofList]
      rfl
    change String.ofList cs = "" ↔ pieces = []
    rw [empty, ← decode?_eq_nil_iff, decoded, Option.some.injEq]

/-- A tree is false exactly if its text is a false token. -/
theorem Element.void_iff {e : Element} {j : Json} (tree : e.tree? = some j) :
    j.Void ↔ ∃ before value after, e = .scalar before value after ∧ value.ZeroLike := by
  cases e with
  | scalar before value after =>
    rw [tree?_scalar] at tree
    rw [Scalar.void_iff tree]
    constructor
    · exact fun zeroLike => ⟨before, value, after, rfl, zeroLike⟩
    · rintro ⟨_, _, _, h, zeroLike⟩
      cases h
      exact zeroLike
  | array before gap items after =>
    rw [tree?_array] at tree
    obtain ⟨js, _, rfl⟩ := Option.map_eq_some_iff.1 tree
    constructor
    · exact fun void => absurd void id
    · rintro ⟨_, _, _, h, _⟩
      cases h
  | object before gap members after =>
    rw [tree?_object] at tree
    obtain ⟨ms, _, rfl⟩ := Option.map_eq_some_iff.1 tree
    constructor
    · exact fun void => absurd void id
    · rintro ⟨_, _, _, h, _⟩
      cases h

end Json

/-- What loads is false exactly if it is null, false, the empty string, a number with no digit but
zero, or a number that becomes zero; arrays and objects are true. In a text of less than `2 ^ 30`
bytes no number becomes zero that is at least the least double. A number with no digit but zero loads
whatever its exponent, and is false with either sign. -/
theorem loadValue_false_iff (identity : Nat) :
    (∀ (text : String) (v : Value) (e : Element), loadValue identity text = .ok v →
      e.text = text.toList →
      (v.truth = false ↔
        ∃ before value after, e = .scalar before value after ∧ value.ZeroLike) ∧
      ((∃ before gap items after, e = .array before gap items after) ∨
        (∃ before gap members after, e = .object before gap members after) → v.truth = true)) ∧
    (∀ (text : String) (before after : Blank) (t : NumberToken),
      Text.byteLength text.toList < 2 ^ 30 →
      text.toList = before.chars ++ t.text ++ after.chars →
      1 / 2 ^ 1074 ≤ t.numeral.magnitude → ¬t.Underflows) ∧
    ∀ (text : String) (before after : Blank) (t : NumberToken),
      text.toList = before.chars ++ t.text ++ after.chars → t.IsZero →
      ∃ v, loadValue identity text = .ok v ∧ v.truth = false := by
  have told {text : String} {v : Value} {e : Element} (loads : loadValue identity text = .ok v)
      (derived : e.text = text.toList) : v.truth = false ↔
        ∃ before value after, e = .scalar before value after ∧ value.ZeroLike := by
    obtain ⟨j, tree, loaded⟩ := tree?_of_loadValue loads derived
    obtain ⟨j', loaded', rfl⟩ := (loadValue_eq_ok_iff identity text v).1 loads
    obtain rfl := Except.ok.inj (loaded.symm.trans loaded')
    rw [← Element.void_iff tree, ← Bool.not_eq_true, Json.truth_toValue_iff, not_not]
  refine ⟨fun text v e loads derived => ⟨told loads derived, fun container => ?_⟩,
    fun text before after t small written least underflows => ?_,
    fun text before after t written zero => ?_⟩
  · rw [← Bool.not_eq_false, told loads derived]
    rintro ⟨_, _, _, rfl, _⟩
    obtain ⟨_, _, _, _, h⟩ | ⟨_, _, _, _, h⟩ := container <;> cases h
  · have few : t.text.length ≤ 2 ^ 30 := by
      have length := congrArg List.length written
      have bytes := Text.length_le_byteLength text.toList
      rw [List.length_append, List.length_append] at length
      omega
    exact absurd (underflows.magnitude_lt few) (not_lt.2 least)
  · obtain ⟨n, number, void⟩ := zero.exists_number?
    refine ⟨_, loadValue_of_spaced written number identity, ?_⟩
    have truth := Json.truth_toValue_iff identity (.number n)
    change n.toValue.truth ↔ _ at truth
    rw [← Bool.not_eq_true, truth, not_not]
    exact void

/-- An exponent of any size does not make a zero true, nor is it out of range. -/
theorem loadValue_false_far :
    ∃ v, loadValue 0 "-0e999999999999" = .ok v ∧ v.truth = false := by
  let t : NumberToken := ⟨true, 0, [], fun _ => rfl, [],
    some ⟨false, none, List.replicate 12 9, List.cons_ne_nil _ _⟩⟩
  have zero : t.IsZero := by
    intro d mem
    exact List.mem_singleton.1 mem
  exact (loadValue_false_iff 0).2.2 _ .none .none t (by decide) zero

end Untyped
