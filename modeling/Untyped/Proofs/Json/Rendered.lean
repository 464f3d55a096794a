import Mathlib
import Untyped.Proofs.Json.Literal
import Untyped.Proofs.Json.Rearranged
import Untyped.Proofs.Json.Written
import Untyped.Proofs.Text.Order

/-! What stands in the compact text of a tree: the names of every object in the order of their
bytes, and with each name what the last member of that name stands for. -/
namespace Untyped.Json
open Text (bytes bytes_lt_of_lt bytes_toList utf8)

theorem Layout.gap_compact (depth : Nat) : Layout.compact.gap depth = [] := rfl

theorem Layout.colon_compact : Layout.compact.colon = [':'] := rfl

namespace Raw
open Element (joined)

theorem writeItems_compact (depth : Nat) (items : List Raw) :
    writeItems .compact depth items =
      (items.map (write .compact (depth + 1))).flatMap (fun text => ',' :: text) ++ [']'] := by
  induction items with
  | nil => rfl
  | cons item items ih => simp [writeItems, ih, Layout.gap_compact]

theorem write_compact_array (depth : Nat) (items : List Raw) :
    (array items).write .compact depth =
      '[' :: (joined (items.map (write .compact (depth + 1))) ++ [']']) := by
  cases items with
  | nil => rfl
  | cons item items => simp [write, writeItems_compact, joined, Layout.gap_compact]

theorem writeMembers_compact (depth : Nat) (members : List (String × Raw)) :
    writeMembers .compact depth members = (members.map fun m =>
      writeString m.1 ++ ':' :: m.2.write .compact (depth + 1)).flatMap (fun text => ',' :: text) ++
        ['\x7d'] := by
  induction members with
  | nil => rfl
  | cons m members ih => simp [writeMembers, ih, Layout.gap_compact, Layout.colon_compact]

theorem write_compact_object (depth : Nat) (members : List (String × Raw)) :
    (object members).write .compact depth = '\x7b' :: (joined (members.map fun m =>
      writeString m.1 ++ ':' :: m.2.write .compact (depth + 1)) ++ ['\x7d']) := by
  cases members with
  | nil => rfl
  | cons m members =>
    simp [write, writeMembers_compact, joined, Layout.gap_compact, Layout.colon_compact]

end Raw

namespace Element

theorem exists_token_write (n : Number) : ∃ t : NumberToken, t.text = n.write := by
  cases n with
  | integer k h =>
    obtain ⟨t, text, _⟩ := means_integer k h
    exact ⟨t, text⟩
  | float x =>
    obtain ⟨t, literal⟩ := exists_literalOf x
    exact ⟨t, literal.text⟩

/-- In every object the names are in strictly ascending order of their bytes. -/
def Ascending : Element → Prop :=
  fold (fun _ _ _ => True) (fun _ _ items _ => ∀ ascending ∈ items, ascending)
    (fun _ _ members _ =>
      (∃ names, every (members.map fun m => decode? m.1.name) = some names ∧
        names.Pairwise fun a b => bytes a < bytes b) ∧ ∀ m ∈ members, m.2)

theorem blind_ascending : Blind (fun _ _ _ => True)
    (fun _ _ items _ => ∀ ascending ∈ items, ascending)
    (fun _ _ members _ =>
      (∃ names, every (members.map fun m => decode? m.1.name) = some names ∧
        names.Pairwise fun a b => bytes a < bytes b) ∧ ∀ m ∈ members, m.2) where
  scalar _ _ _ _ _ := rfl
  array _ _ _ _ _ _ _ := rfl
  object {members members'} same _ _ _ _ _ _ := by
    have names := congrArg (List.map Prod.fst) same
    have values := congrArg (List.map Prod.snd) same
    rw [List.map_map, List.map_map] at names values
    have all (members : List (Label × Prop)) : (∀ m ∈ members, m.2) ↔
        ∀ p ∈ members.map (Prod.snd ∘ fun m => (decode? m.1.name, m.2)), p := by
      rw [List.forall_mem_map]
      rfl
    rw [all, all, values]
    exact congrArg (fun decoded => (∃ names, every decoded = some names ∧
      names.Pairwise fun a b => bytes a < bytes b) ∧ _) names

theorem ascending_iff_of_text_eq {e e' : Element} (h : e.text = e'.text) :
    e.Ascending ↔ e'.Ascending := iff_of_eq (fold_eq_of_text_eq blind_ascending h)

theorem ascending_array_iff (before gap : Blank) (items : List Element) (after : Blank) :
    (array before gap items after).Ascending ↔ ∀ e ∈ items, e.Ascending := by
  unfold Ascending
  rw [fold, foldItems_eq, List.forall_mem_map]

theorem ascending_object_iff (before gap : Blank) (members : List (Label × Element))
    (after : Blank) :
    (object before gap members after).Ascending ↔
      (∃ names, every (members.map fun m => decode? m.1.name) = some names ∧
        names.Pairwise fun a b => bytes a < bytes b) ∧ ∀ m ∈ members, m.2.Ascending := by
  unfold Ascending
  rw [fold, foldMembers_eq, List.forall_mem_map, List.map_map]
  rfl

theorem map_eq_map_of_forall₂ {α β γ : Type} {f : α → γ} {g : β → γ} {xs : List α} {ys : List β}
    (h : List.Forall₂ (fun x y => g y = f x) xs ys) : ys.map g = xs.map f := by
  rw [← List.forall₂_eq_eq_eq, List.forall₂_map_left_iff, List.forall₂_map_right_iff]
  exact h.flip

theorem exists_compact_member {P : Element → Prop} {m : String × Raw} {depth : Nat}
    (h : ∃ e : Element, e.text = m.2.write .compact depth ∧ P e) :
    ∃ m' : Label × Element,
      memberText (m'.1, m'.2.text) = writeString m.1 ++ ':' :: m.2.write .compact depth ∧
        decode? m'.1.name = some m.1.toList ∧ P m'.2 := by
  obtain ⟨e, text, known⟩ := h
  obtain ⟨pieces, name, decodes⟩ := exists_written_name m.1
  refine ⟨(⟨.none, pieces, .none⟩, e), ?_, decodes, known⟩
  simp [memberText, Label.text, Blank.none, name, text]

theorem text_compact_array {items : List Raw} {es : List Element} {depth : Nat}
    (each : List.Forall₂ (fun item e => e.text = item.write .compact (depth + 1)) items es) :
    (array .none .none es .none).text = (Raw.array items).write .compact depth := by
  rw [text_array, map_eq_map_of_forall₂ each, Raw.write_compact_array]
  rfl

theorem text_compact_object {members : List (String × Raw)} {ms : List (Label × Element)}
    {depth : Nat} (each : List.Forall₂ (fun m m' => memberText (m'.1, m'.2.text) =
      writeString m.1 ++ ':' :: m.2.write .compact (depth + 1)) members ms) :
    (object .none .none ms .none).text = (Raw.object members).write .compact depth := by
  rw [text_object, map_eq_map_of_forall₂ each, Raw.write_compact_object]
  rfl

/-- The compact text of a tree is derived with the names of every object in ascending order. -/
theorem exists_ascending (r : Raw) (ordered : r.Ordered) :
    ∀ depth, ∃ e : Element, e.text = r.write .compact depth ∧ e.Ascending := by
  have scalar (v : Scalar) : ∃ e : Element, e.text = v.text ∧ e.Ascending :=
    ⟨.scalar .none v .none, by simp [text_scalar, Blank.none], trivial⟩
  induction r using Raw.induction with
  | null => exact fun _ => scalar .null
  | bool b =>
    cases b with
    | true => exact fun _ => scalar (.bool true)
    | false => exact fun _ => scalar (.bool false)
  | number n =>
    obtain ⟨t, text⟩ := exists_token_write n
    intro depth
    rw [Raw.write, ← text]
    exact scalar (.number t)
  | string s =>
    obtain ⟨pieces, text, _⟩ := exists_written_name s
    intro depth
    rw [Raw.write, ← text]
    exact scalar (.string pieces)
  | array items ih =>
    intro depth
    obtain ⟨es, each⟩ := exists_forall₂ fun item h => ih item h (ordered.items item h) (depth + 1)
    refine ⟨.array .none .none es .none, text_compact_array (each.imp fun _ _ h => h.1),
      (ascending_array_iff _ _ _ _).2 fun e he => ?_⟩
    obtain ⟨item, _, h⟩ := exists_of_mem_forall₂ each he
    exact h.2
  | object members ih =>
    intro depth
    obtain ⟨ms, each⟩ := exists_forall₂ fun m h =>
      exists_compact_member (ih m h (ordered.members m h) (depth + 1))
    refine ⟨.object .none .none ms .none, text_compact_object (each.imp fun _ _ h => h.1),
      (ascending_object_iff _ _ _ _).2 ⟨?_, fun m hm => ?_⟩⟩
    · refine ⟨members.map fun m => m.1.toList, ?_, ?_⟩
      · rw [every_map_eq_some, List.forall₂_map_right_iff]
        exact (each.imp fun _ _ h => h.2.1).flip
      · exact List.pairwise_map.2 (ordered.names.imp fun h => bytes_lt_of_lt (String.lt_iff.1 h))
    · obtain ⟨_, _, h⟩ := exists_of_mem_forall₂ each hm
      exact h.2.2

def lastNamed {β : Type} (name : String) (members : List (Label × β)) : Option β :=
  (members.map fun m => (decode? m.1.name, m.2)).reverse.lookup (some name.toList)

/-- The text is that of the element without blanks, each of its scalars written anew. An object has
its names in strictly ascending order of their bytes, and with each the text of what is given last
for the name. -/
def Rendered : Element → List Char → Prop :=
  fold (fun _ value _ text => ∃ j, value.tree? = some j ∧ text = j.write .compact)
    (fun _ _ items _ text => ∃ texts, List.Forall₂ (fun rendered text => rendered text) items texts ∧
      text = '[' :: (joined texts ++ [']']))
    (fun _ _ members _ text => ∃ kept : List (String × List Char),
      (kept.Pairwise fun a b => utf8 a.1 < utf8 b.1) ∧
      (∀ name, Option.Rel (fun rendered text => rendered text) (lastNamed name members)
        (kept.lookup name)) ∧
      text = '\x7b' :: (joined (kept.map fun m => writeString m.1 ++ ':' :: m.2) ++ ['\x7d']))

theorem rendered_array_iff (before gap : Blank) (items : List Element) (after : Blank)
    (text : List Char) : (array before gap items after).Rendered text ↔
      ∃ texts, List.Forall₂ Rendered items texts ∧ text = '[' :: (joined texts ++ [']']) := by
  unfold Rendered
  rw [fold, foldItems_eq]
  simp only [List.forall₂_map_left_iff]

theorem lookup_map {κ α β : Type} [BEq κ] (f : α → β) (k : κ) (members : List (κ × α)) :
    (members.map fun m => (m.1, f m.2)).lookup k = (members.lookup k).map f := by
  induction members with
  | nil => rfl
  | cons m members ih =>
    obtain ⟨key, value⟩ := m
    rw [List.map_cons, List.lookup_cons, List.lookup_cons, ih]
    cases k == key <;> rfl

theorem lastNamed_map {α β : Type} (f : α → β) (name : String) (members : List (Label × α)) :
    lastNamed name (members.map fun m => (m.1, f m.2)) = (lastNamed name members).map f := by
  rw [lastNamed, lastNamed, ← lookup_map, List.map_reverse, List.map_map, List.map_map]
  rfl

theorem rendered_object_iff (before gap : Blank) (members : List (Label × Element)) (after : Blank)
    (text : List Char) : (object before gap members after).Rendered text ↔
      ∃ kept : List (String × List Char), (kept.Pairwise fun a b => utf8 a.1 < utf8 b.1) ∧
        (∀ name, Option.Rel Rendered (lastNamed name members) (kept.lookup name)) ∧
        text = '\x7b' ::
          (joined (kept.map fun m => writeString m.1 ++ ':' :: m.2) ++ ['\x7d']) := by
  have rel (rendered : Element → List Char → Prop) (last : Option Element)
      (text : Option (List Char)) :
      Option.Rel (fun holds text => holds text) (last.map rendered) text ↔
        Option.Rel rendered last text := by
    cases last <;> cases text <;> simp
  unfold Rendered
  rw [fold, foldMembers_eq]
  simp only [lastNamed_map, rel]

theorem rel_lookup {α β : Type} {R : α → β → Prop} {xs : List (Option (List Char) × α)}
    {ys : List (String × β)}
    (h : List.Forall₂ (fun x y => x.1 = some y.1.toList ∧ R x.2 y.2) xs ys) (name : String) :
    Option.Rel R (xs.lookup (some name.toList)) (ys.lookup name) := by
  induction h with
  | nil => exact .none
  | @cons x y xs ys first _ ih =>
    obtain ⟨key, value⟩ := x
    obtain ⟨rfl, related⟩ := first
    rw [lookup_cons_eq, List.lookup_cons]
    by_cases same : name = y.1
    · rw [if_pos same, same, beq_self_eq_true]
      exact .some related
    · have other : (some name.toList == some y.1.toList) = false := by
        rw [beq_eq_false_iff_ne, Ne, Option.some.injEq, String.toList_inj]
        exact same
      rw [if_neg same, other]
      exact ih

theorem forall₂_of_every_member {members : List (Label × Element)} {decoded : List (String × Json)}
    (h : every (members.map fun m => member? (m.1, m.2.tree?)) = some decoded) :
    List.Forall₂ (fun x y => x.1 = some y.1.toList ∧ x.2.tree? = some y.2)
      (members.map fun m => (decode? m.1.name, m.2)) decoded := by
  rw [List.forall₂_map_left_iff]
  refine (every_map_eq_some.1 h).imp fun m member h => ?_
  obtain ⟨cs, hcs, h⟩ := Option.bind_eq_some_iff.1 h
  obtain ⟨j, hj, rfl⟩ := Option.map_eq_some_iff.1 h
  exact ⟨hcs.trans (by rw [String.toList_ofList]), hj⟩

/-- An element that has a tree is rendered as the compact text of the tree. -/
theorem rendered_write (e : Element) :
    ∀ j, e.tree? = some j → ∀ depth, e.Rendered (j.raw.write .compact depth) := by
  induction e using Element.induction with
  | scalar before value after =>
    intro j hj depth
    refine ⟨j, hj, ?_⟩
    change value.tree? = some j at hj
    cases value with
    | null => cases hj; rfl
    | bool b => cases hj; cases b <;> rfl
    | number t =>
      obtain ⟨n, _, rfl⟩ := Option.map_eq_some_iff.1 hj
      rfl
    | string pieces =>
      obtain ⟨cs, _, rfl⟩ := Option.map_eq_some_iff.1 hj
      rfl
  | array before gap items after ih =>
    intro j hj depth
    rw [tree?_array] at hj
    obtain ⟨js, hjs, rfl⟩ := Option.map_eq_some_iff.1 hj
    refine (rendered_array_iff _ _ _ _ _).2
      ⟨js.map fun j => j.raw.write .compact (depth + 1), ?_, ?_⟩
    · rw [List.forall₂_map_right_iff]
      exact forall₂_imp_mem (every_map_eq_some.1 hjs) fun e he j h => ih e he j h _
    · rw [ofItems, Raw.write_compact_array, List.map_map]
      rfl
  | object before gap members after ih =>
    intro j hj depth
    rw [tree?_object] at hj
    obtain ⟨decoded, hdecoded, rfl⟩ := Option.map_eq_some_iff.1 hj
    let written (j : Json) := j.raw.write .compact (depth + 1)
    refine (rendered_object_iff _ _ _ _ _).2
      ⟨(sortMembers decoded).map fun m => (m.1, written m.2), ?_, fun name => ?_, ?_⟩
    · refine List.pairwise_map.2 ((pairwise_sortMembers decoded).imp fun {a b} h => ?_)
      rw [← bytes_toList, ← bytes_toList]
      exact bytes_lt_of_lt (String.lt_iff.1 h)
    -- of the members of one name both sides take the last, so they are compared from the end
    · have each : List.Forall₂ (fun x y => x.1 = some y.1.toList ∧ Rendered x.2 y.2)
          (members.map fun m => (decode? m.1.name, m.2)) (decoded.map fun m => (m.1, written m.2)) := by
        rw [List.forall₂_map_right_iff]
        refine forall₂_imp_mem (forall₂_of_every_member hdecoded) fun x hx member h => ?_
        obtain ⟨m, hm, rfl⟩ := List.mem_map.1 hx
        exact ⟨h.1, ih m hm _ h.2 _⟩
      rw [lookup_map, lookup_sortMembers, ← lookup_map, List.map_reverse]
      exact rel_lookup (List.forall₂_reverse_iff.2 each) name
    · rw [ofMembers, Raw.write_compact_object, List.map_map, List.map_map]
      rfl

end Element

end Untyped.Json
