import Mathlib
import Untyped.Proofs.Json.Rendered

/-! Places in a tree, reached from the outermost container through indices and names. What stands at
a place of a text stands at the same place of its tree, and of the compact text of the tree. -/
namespace Untyped.Json

inductive Selector where
  | item (index : Nat)
  | member (name : String)

def Raw.select? : Raw → Selector → Option Raw
  | .array items, .item index => items[index]?
  | .object members, .member name => members.lookup name
  | _, _ => none

/-- What stands at a place of a tree. -/
def Raw.at? : Raw → List Selector → Option Raw
  | r, [] => some r
  | r, s :: path => (r.select? s).bind fun part => part.at? path

namespace Element

/-- The selected part of an element; of members with one name the last is selected. -/
def select? : Element → Selector → Option Element
  | array _ _ items _, .item index => items[index]?
  | object _ _ members _, .member name => lastNamed name members
  | _, _ => none

def at? : Element → List Selector → Option Element
  | e, [] => some e
  | e, s :: path => (e.select? s).bind fun part => part.at? path

theorem rel_getElem? {α β : Type} {R : α → β → Prop} {xs : List α} {ys : List β}
    (h : List.Forall₂ R xs ys) (index : Nat) : Option.Rel R xs[index]? ys[index]? := by
  induction h generalizing index with
  | nil => exact .none
  | cons first _ ih =>
    cases index with
    | zero => exact .some first
    | succ index => exact ih index

theorem exists_of_rel_left {α β : Type} {R : α → β → Prop} {x : Option α} {y : Option β}
    (h : Option.Rel R x y) {a : α} (ha : x = some a) : ∃ b, y = some b ∧ R a b := by
  cases h with
  | none => cases ha
  | some related =>
    obtain rfl := Option.some.inj ha
    exact ⟨_, rfl, related⟩

theorem exists_of_rel_right {α β : Type} {R : α → β → Prop} {x : Option α} {y : Option β}
    (h : Option.Rel R x y) {b : β} (hb : y = some b) : ∃ a, x = some a ∧ R a b := by
  cases h with
  | none => cases hb
  | some related =>
    obtain rfl := Option.some.inj hb
    exact ⟨_, rfl, related⟩

theorem exists_select_tree {e part : Element} {s : Selector} {j : Json}
    (selected : e.select? s = some part) (tree : e.tree? = some j) :
    ∃ k, part.tree? = some k ∧ j.raw.select? s = some k.raw := by
  cases e with
  | scalar before value after => cases s <;> cases selected
  | array before gap items after =>
    cases s with
    | member name => cases selected
    | item index =>
      rw [tree?_array] at tree
      obtain ⟨js, hjs, rfl⟩ := Option.map_eq_some_iff.1 tree
      obtain ⟨k, hk, tree⟩ :=
        exists_of_rel_left (rel_getElem? (every_map_eq_some.1 hjs) index) selected
      exact ⟨k, tree, by rw [ofItems, Raw.select?, List.getElem?_map, hk, Option.map_some]⟩
  | object before gap members after =>
    cases s with
    | item index => cases selected
    | member name =>
      rw [tree?_object] at tree
      obtain ⟨decoded, hdecoded, rfl⟩ := Option.map_eq_some_iff.1 tree
      have each := List.forall₂_reverse_iff.2 (forall₂_of_every_member hdecoded)
      have named := rel_lookup (R := fun (e : Element) j => e.tree? = some j) each name
      obtain ⟨k, hk, tree⟩ := exists_of_rel_left named selected
      refine ⟨k, tree, ?_⟩
      rw [ofMembers, Raw.select?, lookup_map, lookup_sortMembers, hk, Option.map_some]

/-- What stands at a place of an element has the tree at that place of the element's tree. -/
theorem exists_tree_at {path : List Selector} {e part : Element} {j : Json}
    (stands : e.at? path = some part) (tree : e.tree? = some j) :
    ∃ k, part.tree? = some k ∧ j.raw.at? path = some k.raw := by
  induction path generalizing e j with
  | nil =>
    obtain rfl := Option.some.inj stands
    exact ⟨j, tree, rfl⟩
  | cons s path ih =>
    obtain ⟨next, selected, stands⟩ := Option.bind_eq_some_iff.1 stands
    obtain ⟨k, tree, inner⟩ := exists_select_tree selected tree
    obtain ⟨l, last, place⟩ := ih stands tree
    exact ⟨l, last, by rw [Raw.at?, inner, Option.bind_some, place]⟩

/-- At every place of the tree the element has the compact text of what stands there. -/
def Copies (e : Element) (r : Raw) : Prop :=
  ∀ path part, r.at? path = some part →
    ∃ copy depth, e.at? path = some copy ∧ copy.text = part.write .compact depth

theorem copies_of_select {e : Element} {r : Raw} {depth : Nat}
    (text : e.text = r.write .compact depth)
    (each : ∀ s part, r.select? s = some part → ∃ copy, e.select? s = some copy ∧ copy.Copies part) :
    e.Copies r := by
  intro path part stands
  cases path with
  | nil =>
    obtain rfl := Option.some.inj stands
    exact ⟨e, depth, rfl, text⟩
  | cons s path =>
    obtain ⟨next, selected, stands⟩ := Option.bind_eq_some_iff.1 stands
    obtain ⟨copy, same, copies⟩ := each s next selected
    obtain ⟨last, inner, place, written⟩ := copies path part stands
    exact ⟨last, inner, by rw [at?, same, Option.bind_some, place], written⟩

theorem lookup_reverse_of_ordered {members : List (String × Raw)}
    (ordered : (Raw.object members).Ordered) (name : String) :
    members.reverse.lookup name = members.lookup name := by
  rw [← lookup_sortMembers, sortMembers_of_pairwise ordered.names]

/-- The compact text of a tree is derived with a copy at every place of the tree. -/
theorem exists_copies (r : Raw) (ordered : r.Ordered) :
    ∀ depth, ∃ e : Element, e.text = r.write .compact depth ∧ e.Copies r := by
  have scalar {r : Raw} {depth : Nat} (v : Scalar) (text : v.text = r.write .compact depth)
      (alone : ∀ s, r.select? s = none) :
      ∃ e : Element, e.text = r.write .compact depth ∧ e.Copies r := by
    have written : (Element.scalar .none v .none).text = r.write .compact depth := by
      simp [text_scalar, Blank.none, text]
    refine ⟨_, written, copies_of_select written fun s part selected => ?_⟩
    rw [alone s] at selected
    cases selected
  induction r using Raw.induction with
  | null => exact fun _ => scalar .null rfl fun s => by cases s <;> rfl
  | bool b => exact fun _ => scalar (.bool b) (by cases b <;> rfl) fun s => by cases s <;> rfl
  | number n =>
    obtain ⟨t, text⟩ := exists_token_write n
    exact fun _ => scalar (.number t) text fun s => by cases s <;> rfl
  | string s =>
    obtain ⟨pieces, text, _⟩ := exists_written_name s
    exact fun _ => scalar (.string pieces) text fun s => by cases s <;> rfl
  | array items ih =>
    intro depth
    obtain ⟨es, each⟩ := exists_forall₂ fun item h => ih item h (ordered.items item h) (depth + 1)
    have text := text_compact_array (each.imp fun _ _ h => h.1)
    refine ⟨_, text, copies_of_select text fun s part selected => ?_⟩
    cases s with
    | member name => cases selected
    | item index =>
      obtain ⟨copy, same, _, copies⟩ := exists_of_rel_left (rel_getElem? each index) selected
      exact ⟨copy, same, copies⟩
  | object members ih =>
    intro depth
    obtain ⟨ms, each⟩ := exists_forall₂ fun m h =>
      exists_compact_member (ih m h (ordered.members m h) (depth + 1))
    have text := text_compact_object (each.imp fun _ _ h => h.1)
    refine ⟨_, text, copies_of_select text fun s part selected => ?_⟩
    cases s with
    | item index => cases selected
    | member name =>
      have named : List.Forall₂ (fun x y => x.1 = some y.1.toList ∧ Copies x.2 y.2)
          (ms.map fun m => (decode? m.1.name, m.2)) members := by
        rw [List.forall₂_map_left_iff]
        exact (each.imp fun _ _ h => h.2).flip
      -- the element selects the last member of a name, the tree has only one
      have found : members.reverse.lookup name = some part :=
        (lookup_reverse_of_ordered ordered name).trans selected
      exact exists_of_rel_right (rel_lookup (List.forall₂_reverse_iff.2 named) name) found

end Element

end Untyped.Json
