import Mathlib
import Untyped.Proofs.Machine.History

/-! What constructions add to the references that exist. One counter numbers all objects, so a new
object never has the identity of an earlier one, however deep the earlier one lies. -/
namespace Untyped

mutual

/-- The reference that a value is, and those inside what it holds. -/
def Value.references : Value → List Reference
  | .ref r => r.references
  | _ => []

def Reference.references : Reference → List Reference
  | .mk path identity payload => .mk path identity payload :: payload.references

def Payload.references : Payload → List Reference
  | .value v => v.references
  | .reference r => r.references
  | _ => []

end

namespace Value

@[simp] theorem references_ref (r : Reference) : (ref r).references = r.references := by
  rw [references]

@[simp] theorem references_null : null.references = [] := by
  simp [references]

@[simp] theorem references_double (x : Double) : (double x).references = [] := by
  simp [references]

@[simp] theorem references_single (x : Single) : (single x).references = [] := by
  simp [references]

@[simp] theorem references_int (n : Int32) : (int n).references = [] := by
  simp [references]

@[simp] theorem references_text (s : String) : (text s).references = [] := by
  simp [references]

@[simp] theorem references_ofBool (b : Bool) : (ofBool b).references = [] := by
  simp [ofBool]

@[simp] theorem references_number (n : Json.Number) : n.toValue.references = [] := by
  cases n with
  | integer k written =>
    simp only [Json.Number.toValue]
    split <;> simp
  | float x => simp [Json.Number.toValue]

end Value

theorem Reference.references_mk (path : String) (identity : Nat) (payload : Payload) :
    (mk path identity payload).references = mk path identity payload :: payload.references := by
  rw [Reference.references]

theorem Reference.mem_references (r : Reference) : r ∈ r.references := by
  obtain ⟨path, identity, payload⟩ := r
  rw [references_mk]
  exact List.mem_cons_self

/-- References to objects that the counter has passed; an identity stands for one object. -/
structure Consistent (next : Nat) (rs : List Reference) : Prop where
  below : ∀ r ∈ rs, r.identity < next
  one : ∀ r ∈ rs, ∀ s ∈ rs, r.identity = s.identity → r = s

namespace Consistent

variable {next : Nat} {rs : List Reference}

theorem of_subset {some : List Reference} (h : Consistent next rs) (sub : some ⊆ rs) :
    Consistent next some where
  below r hr := h.below r (sub hr)
  one r hr s hs := h.one r (sub hr) s (sub hs)

theorem mono {after : Nat} (h : Consistent next rs) (le : next ≤ after) : Consistent after rs where
  below r hr := (h.below r hr).trans_le le
  one := h.one

theorem cons (h : Consistent next rs) (path : String) (payload : Payload) :
    Consistent (next + 1) (.mk path next payload :: rs) where
  below r hr := by
    obtain rfl | hr := List.mem_cons.1 hr
    · exact Nat.lt_succ_self next
    · exact (h.below r hr).trans (Nat.lt_succ_self next)
  one r hr s hs same := by
    obtain rfl | hr := List.mem_cons.1 hr <;> obtain rfl | hs := List.mem_cons.1 hs
    · rfl
    · exact absurd same (h.below s hs).ne'
    · exact absurd same (h.below r hr).ne
    · exact h.one r hr s hs same

end Consistent

theorem exists_tree_of_loadValue {identity : Nat} {text : String} {v : Value}
    (h : loadValue identity text = .ok v) : ∃ j : Json, v = j.toValue identity := by
  unfold loadValue at h
  split at h
  · exact ⟨_, (Except.ok.inj h).symm⟩
  · cases h

theorem exists_items_of_loadValues {identity : Nat} {text : String} {vs : List Value}
    (h : loadValues identity text = .ok vs) :
    ∃ items : List Json, vs = items.mapIdx fun i item => item.toValue (identity + i) := by
  unfold loadValues at h
  split at h
  · split at h
    · exact ⟨_, (Except.ok.inj h).symm⟩
    · cases h
  · cases h

/-- The value is new beside the references: if it is one itself, its object is a new one, and all
that it holds agrees with them. -/
structure Constructed (rs : List Reference) (next after : Nat) (v : Value) : Prop where
  new : ∀ r, v = .ref r → next ≤ r.identity
  consistent : Consistent after (v.references ++ rs)

namespace Constructed

variable {rs : List Reference} {next after : Nat} {v : Value}

theorem plain (h : Consistent next rs) (le : next ≤ after) (none : v.references = []) :
    Constructed rs next after v where
  new r hr := by
    rw [hr, Value.references_ref] at none
    exact absurd r.mem_references (by simp [none])
  consistent := by
    rw [none]
    exact h.mono le

theorem object (h : Consistent after rs) (le : next ≤ after) (path : String) {payload : Payload}
    (known : payload.references ⊆ rs) :
    Constructed rs next (after + 1) (.ref (.mk path after payload)) where
  new r hr := by
    obtain rfl := Value.ref.inj hr
    exact le
  consistent := by
    rw [Value.references_ref, Reference.references_mk]
    refine (h.cons path payload).of_subset ?_
    intro r hr
    simp only [List.cons_append, List.mem_cons, List.mem_append] at hr ⊢
    exact hr.imp_right fun hr => hr.elim (fun hr => known hr) id

theorem wrap (h : Constructed rs next after v) (le : next ≤ after) (path : String)
    {payload : Payload} (known : payload.references ⊆ v.references) :
    Constructed rs next (after + 1) (.ref (.mk path after payload)) where
  new r hr := by
    obtain rfl := Value.ref.inj hr
    exact le
  consistent := by
    have around := object h.consistent le path
      (List.Subset.trans known (List.subset_append_left _ rs))
    refine around.consistent.of_subset fun s hs => ?_
    rw [List.mem_append] at hs ⊢
    exact hs.imp_right (List.mem_append_right _)

theorem toValue (h : Consistent next rs) (j : Json) :
    Constructed rs next (next + 1) (j.toValue next) := by
  unfold Json.toValue
  cases j.raw with
  | null | bool b | string s | number n => exact plain h (Nat.le_succ next) (by simp)
  | array items | object members =>
    exact object h le_rfl _ (by simp [Payload.references])

end Constructed

/-! ### Recipes -/

/-- Whatever exists before, the computation yields what is new beside it. -/
def Build.Constructs {α : Type} (b : Build α) (value : α → Value) : Prop :=
  ∀ next rs, Consistent next rs → next ≤ (b.run.run next).2 ∧
    ∀ x, (b.run.run next).1 = .ok x → Constructed rs next (b.run.run next).2 (value x)

namespace Build.Constructs

variable {α : Type} {value : α → Value}

theorem pure {x : α} (none : (value x).references = []) :
    Build.Constructs (pure x) value := by
  intro next rs h
  refine ⟨le_rfl, fun y hy => ?_⟩
  obtain rfl := Except.ok.inj hy
  exact .plain h le_rfl none

theorem load (text : String) : Build.Constructs (Build.load text) id := by
  intro next rs h
  have run : (Build.load text).run.run next = (loadValue next text, next + 1) := rfl
  rw [run]
  refine ⟨Nat.le_succ next, fun v hv => ?_⟩
  obtain ⟨j, rfl⟩ := exists_tree_of_loadValue hv
  exact .toValue h j

theorem bind {β : Type} {made : β → Value} {b : Build α} {k : α → Build β}
    (h : b.Constructs value)
    (later : ∀ x rs next mid, next ≤ mid → Constructed rs next mid (value x) →
      mid ≤ ((k x).run.run mid).2 ∧ ∀ y, ((k x).run.run mid).1 = .ok y →
        Constructed rs next ((k x).run.run mid).2 (made y)) :
    Build.Constructs (b >>= k) made := by
  intro next rs consistent
  obtain ⟨le, first⟩ := h next rs consistent
  rw [run_bind]
  cases hb : b.run.run next with
  | mk outcome mid =>
    rw [hb] at le first
    cases outcome with
    | error e => exact ⟨le, fun y hy => by cases hy⟩
    | ok x =>
      obtain ⟨further, second⟩ := later x rs next mid le (first x rfl)
      exact ⟨le.trans further, second⟩

theorem wrap {b : Build α} (h : b.Constructs value) (path : String) {content : α → Payload}
    (known : ∀ x, (content x).references ⊆ (value x).references) :
    Build.Constructs (b >>= fun x => PayloadRecipe.build.wrap path (content x)) Value.ref := by
  refine h.bind fun x rs next mid le inside => ⟨Nat.le_succ mid, fun r hr => ?_⟩
  obtain rfl := Except.ok.inj hr
  exact inside.wrap le path (known x)

theorem wrap_plain (path : String) {payload : Payload} (none : payload.references = []) :
    Build.Constructs (PayloadRecipe.build.wrap path payload) Value.ref := by
  have nothing : Build.Constructs (Pure.pure ()) fun _ => Value.null :=
    pure Value.references_null
  have h : Build.Constructs (Pure.pure () >>= fun _ => PayloadRecipe.build.wrap path payload)
      Value.ref := nothing.wrap path fun _ => by simp [none]
  rwa [pure_bind] at h

theorem ref {b : Build Reference} (h : b.Constructs Value.ref) :
    Build.Constructs (do return Value.ref (← b)) id := by
  refine h.bind fun r rs next mid _ made => ⟨le_rfl, fun v hv => ?_⟩
  obtain rfl := Except.ok.inj hv
  exact made

end Build.Constructs

mutual

theorem Recipe.constructs (recipe : Recipe) : recipe.build.Constructs id := by
  cases recipe with
  | double x | single x | int n | bool b | text s | null | number n => exact .pure (by simp)
  | object path => exact (Build.Constructs.wrap_plain path (by simp [Payload.references])).ref
  | reference path payload => exact (payload.constructs path).ref
  | json text => exact .load text

theorem PayloadRecipe.constructs (payload : PayloadRecipe) (path : String) :
    (payload.build path).Constructs Value.ref := by
  cases payload with
  | unit | int n | double x | text s | bool b | absent =>
    exact .wrap_plain path (by simp [Payload.references])
  | json text =>
    exact (Build.Constructs.load text).wrap path (by simp [Payload.references])
  | value recipe =>
    exact recipe.constructs.wrap path (by simp [Payload.references])
  | reference inner payload =>
    exact (payload.constructs inner).wrap path fun r => by simp [Payload.references]

end

/-! ### The constructions of a run -/

def recorded (made : List Value) : List Reference := made.flatMap Value.references

theorem mem_recorded {made : List Value} {v : Value} {k : Nat} {r : Reference}
    (h : made[k]? = some v) (hr : r ∈ v.references) : r ∈ recorded made :=
  List.mem_flatMap.2 ⟨v, List.mem_of_getElem? h, hr⟩

/-- The values that were constructed in order: their references agree, and each object was new
beside all that came before it. -/
structure Ledger (next : Nat) (made : List Value) : Prop where
  consistent : Consistent next (recorded made)
  fresh : made.Pairwise fun earlier later =>
    ∀ s, later = .ref s → ∀ r ∈ earlier.references, r.identity ≠ s.identity

namespace Ledger

variable {next : Nat} {made : List Value}

theorem nil (next : Nat) : Ledger next [] where
  consistent := ⟨by simp [recorded], by simp [recorded]⟩
  fresh := .nil

theorem mono {after : Nat} (h : Ledger next made) (le : next ≤ after) : Ledger after made where
  consistent := h.consistent.mono le
  fresh := h.fresh

theorem append {after : Nat} {v : Value} (h : Ledger next made)
    (new : Constructed (recorded made) next after v) : Ledger after (made ++ [v]) where
  consistent := by
    refine new.consistent.of_subset ?_
    simp [recorded]
  fresh := by
    refine List.pairwise_append.2 ⟨h.fresh, List.pairwise_singleton _ v, ?_⟩
    intro earlier known later hl s hs r hr
    obtain rfl := List.mem_singleton.1 hl
    have below := h.consistent.below r (List.mem_flatMap.2 ⟨earlier, known, hr⟩)
    exact (below.trans_le (new.new s hs)).ne

theorem append_items (h : Ledger next made) (items : List Json) :
    Ledger (next + items.length) (made ++ items.mapIdx fun i item => item.toValue (next + i)) := by
  induction items generalizing next made with
  | nil => simpa using h
  | cons item items ih =>
    have first : Ledger (next + 1) (made ++ [item.toValue next]) :=
      h.append (.toValue h.consistent item)
    have rest := ih first
    simpa [List.mapIdx_cons, Nat.add_assoc, Nat.add_comm 1, Nat.add_left_comm] using rest

/-- No reference in an earlier construction leads to a later one's object. -/
theorem same_eq_false (h : Ledger next made) {earlier later : Nat} {v : Value} {r s : Reference}
    (lt : earlier < later) (hv : made[earlier]? = some v) (hs : made[later]? = some (.ref s))
    (hr : r ∈ v.references) : r.same s = false := by
  obtain ⟨he, rfl⟩ := List.getElem?_eq_some_iff.1 hv
  obtain ⟨hl, hs⟩ := List.getElem?_eq_some_iff.1 hs
  exact beq_false_of_ne (List.pairwise_iff_getElem.1 h.fresh earlier later he hl lt s hs r hr)

theorem index_eq (h : Ledger next made) {j k : Nat} {r s : Reference}
    (hr : made[j]? = some (.ref r)) (hs : made[k]? = some (.ref s)) (same : r.same s = true) :
    j = k := by
  have self (r : Reference) : r ∈ (Value.ref r).references := by simp [r.mem_references]
  have back : s.same r = true := beq_iff_eq.2 (beq_iff_eq.1 same).symm
  obtain lt | eq | lt := Nat.lt_trichotomy j k
  · simp [h.same_eq_false lt hr hs (self r)] at same
  · exact eq
  · simp [h.same_eq_false lt hs hr (self s)] at back

end Ledger

end Untyped
