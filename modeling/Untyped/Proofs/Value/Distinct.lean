import Mathlib
import Untyped.Proofs.Json.Injective
import Untyped.Value.Json

/-! The compact text of a value tells its tree: two values have one text exactly if they have the
same tree, in which integers are told apart by their values and doubles by their bits. -/
namespace Untyped

theorem Format.count_lt (f : Format) : f.count < 2 ^ (f.fractionBits + f.exponentBits) := by
  rw [Format.count, Format.fractions, Nat.pow_eq, Nat.pow_eq, Nat.add_comm, Nat.pow_add]
  exact Nat.mul_lt_mul_of_pos_right (Nat.sub_lt (Nat.pow_pos (by omega)) Nat.one_pos)
    (Nat.pow_pos (by omega))

namespace Binary

variable {f : Format}

theorem ofBits_sign_add (negative : Bool) {rank : Nat} (h : rank ≤ f.count) :
    ofBits f (@bits?.sign f negative + rank) = ofRank f negative rank := by
  have below : rank < 2 ^ (f.fractionBits + f.exponentBits) := h.trans_lt f.count_lt
  rw [ofBits]
  cases negative with
  | false =>
    simp [bits?.sign, Nat.mod_eq_of_lt below, h, Nat.testBit_lt_two_pow below]
  | true =>
    simp [bits?.sign, Nat.mod_eq_of_lt below, h, Nat.testBit_two_pow_add_eq,
      Nat.testBit_lt_two_pow below]

theorem ofBits_of_bits? {x : Binary f} {bits : Nat} (h : x.bits? = some bits) :
    ofBits f bits = x := by
  cases x with
  | nan => cases h
  | infinite negative =>
    obtain rfl := Option.some.inj h
    rw [ofBits_sign_add negative le_rfl, ofRank, dif_neg (lt_irrefl _)]
  | finite x =>
    obtain rfl := Option.some.inj h
    rw [ofBits_sign_add x.negative x.rank_lt.le, ofRank, dif_pos x.rank_lt]

theorem bits?_eq_none_iff (x : Binary f) : x.bits? = none ↔ x = .nan := by
  cases x <;> simp [bits?]

theorem bits?_injective : Function.Injective (bits? : Binary f → Option Nat) := by
  intro x y same
  cases h : y.bits? with
  | none => rw [(bits?_eq_none_iff x).1 (same.trans h), (bits?_eq_none_iff y).1 h]
  | some bits => rw [← ofBits_of_bits? (same.trans h), ← ofBits_of_bits? h]

theorem eq_of_bits?_eq {x y : Finite f} (same : (finite x).bits? = (finite y).bits?) : x = y :=
  finite.inj (bits?_injective same)

end Binary

namespace Json.Raw

/-- The trees are the same: both null, or of one truth, integers of one value, doubles of one bit
pattern, strings of the same characters, or arrays or objects of as many items or members, which
are the same one by one, with names of the same characters. No integer is the same as a double. -/
inductive Same : Raw → Raw → Prop where
  | null : Same null null
  | bool (b : Bool) : Same (bool b) (bool b)
  | integer {k k' : Int} (value : k = k') (h : -0x8000000000000000 ≤ k ∧ k < 0x10000000000000000)
      (h' : -0x8000000000000000 ≤ k' ∧ k' < 0x10000000000000000) :
      Same (number (.integer k h)) (number (.integer k' h'))
  | float {x x' : Binary.Finite .double}
      (bits : (Binary.finite x).bits? = (Binary.finite x').bits?) :
      Same (number (.float x)) (number (.float x'))
  | string {s s' : String} (chars : s.toList = s'.toList) : Same (string s) (string s')
  | array {items items' : List Raw} (each : List.Forall₂ Same items items') :
      Same (array items) (array items')
  | object {members members' : List (String × Raw)}
      (names : members.map (fun m => m.1.toList) = members'.map fun m => m.1.toList)
      (each : List.Forall₂ Same (members.map Prod.snd) (members'.map Prod.snd)) :
      Same (object members) (object members')

theorem Same.refl (r : Raw) : Same r r := by
  induction r using Raw.induction with
  | null => exact .null
  | bool b => exact .bool b
  | number n =>
    cases n with
    | integer k h => exact .integer rfl h h
    | float x => exact .float rfl
  | string s => exact .string rfl
  | array items ih => exact .array (List.forall₂_same.2 ih)
  | object members ih =>
    refine .object rfl (List.forall₂_same.2 fun value h => ?_)
    obtain ⟨m, hm, rfl⟩ := List.mem_map.1 h
    exact ih m hm

theorem Same.eq {r r' : Raw} (h : Same r r') : r = r' := by
  induction r using Raw.induction generalizing r' with
  | null => cases h; rfl
  | bool b => cases h; rfl
  | number n =>
    cases h with
    | integer value _ _ => cases value; rfl
    | float bits => rw [Binary.eq_of_bits?_eq bits]
  | string s =>
    cases h with
    | string chars => rw [String.toList_inj.1 chars]
  | array items ih =>
    cases h with
    | array each =>
      have equal := Element.forall₂_imp_mem each fun item h _ same => ih item h same
      rw [List.forall₂_eq_eq_eq] at equal
      rw [equal]
  | object members ih =>
    cases h with
    | @object _ members' names each =>
      have values := Element.forall₂_imp_mem each fun value h _ same => by
        obtain ⟨m, hm, rfl⟩ := List.mem_map.1 h
        exact ih m hm same
      rw [List.forall₂_eq_eq_eq] at values
      have injective : Function.Injective (List.map String.toList) :=
        List.map_injective_iff.2 fun _ _ same => String.toList_inj.1 same
      have names : members.map Prod.fst = members'.map Prod.fst :=
        injective (by rw [List.map_map, List.map_map]; exact names)
      rw [List.zip_of_prod names values, ← List.zip_of_prod rfl rfl]

theorem same_iff {r r' : Raw} : Same r r' ↔ r = r' := ⟨Same.eq, fun same => same ▸ Same.refl r⟩

end Json.Raw

/-- Two values have one compact text exactly if their trees are the same. -/
theorem compact_toJson_eq_iff (v w : Value) :
    v.toJson.compact = w.toJson.compact ↔ v.toJson.raw.Same w.toJson.raw := by
  rw [Json.compact_injective.eq_iff, Json.Raw.same_iff]
  exact ⟨congrArg Json.raw, Json.ext⟩

end Untyped
