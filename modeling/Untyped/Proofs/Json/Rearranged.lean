import Mathlib
import Untyped.Proofs.Json.Reading
import Untyped.Proofs.Json.Unambiguous

/-! Elements whose objects list the same members in another order. Where the names in each of those
objects differ, the trees are the same. -/
namespace Untyped.Json

namespace Element

def bare : Element → Element :=
  fold (fun _ value _ => scalar .none value .none) (fun _ _ items _ => array .none .none items .none)
    (fun _ _ members _ =>
      object .none .none (members.map fun m => (⟨.none, m.1.name, .none⟩, m.2)) .none)

theorem bare_array (before gap : Blank) (items : List Element) (after : Blank) :
    (array before gap items after).bare = array .none .none (items.map bare) .none := by
  unfold bare
  rw [fold, foldItems_eq]

theorem bare_object (before gap : Blank) (members : List (Label × Element)) (after : Blank) :
    (object before gap members after).bare = object .none .none
      (members.map fun m => (⟨.none, m.1.name, .none⟩, m.2.bare)) .none := by
  unfold bare
  rw [fold, foldMembers_eq, List.map_map]
  rfl

theorem fold_bare {β : Type} {scalar : Blank → Scalar → Blank → β}
    {array : Blank → Blank → List β → Blank → β}
    {object : Blank → Blank → List (Label × β) → Blank → β} (blind : Blind scalar array object)
    (e : Element) : fold scalar array object e.bare = fold scalar array object e := by
  induction e using Element.induction with
  | scalar before value after => exact blind.scalar rfl _ _ _ _
  | array before gap items after ih =>
    have same : (items.map bare).map (fold scalar array object) =
        items.map (fold scalar array object) := by
      rw [List.map_map]
      exact List.map_congr_left ih
    rw [bare_array, fold, fold, foldItems_eq, foldItems_eq, same]
    exact blind.array _ _ _ _ _ _ _
  | object before gap members after ih =>
    rw [bare_object, fold, fold, foldMembers_eq, foldMembers_eq, List.map_map]
    refine blind.object ?_ _ _ _ _ _ _
    rw [List.map_map, List.map_map]
    exact List.map_congr_left fun m hm => Prod.ext rfl (ih m hm)

/-- The elements differ in the order of members, at any depth, of objects whose names decode to
different texts; blanks may stand elsewhere. -/
inductive Rearranged : Element → Element → Prop
  | spaced {e e' : Element} (h : e.bare = e'.bare) : Rearranged e e'
  | item {e e' : Element} (before gap : Blank) (left right : List Element) (after : Blank)
      (h : Rearranged e e') :
      Rearranged (array before gap (left ++ e :: right) after)
        (array before gap (left ++ e' :: right) after)
  | member {e e' : Element} (before gap : Blank) (left : List (Label × Element)) (l : Label)
      (right : List (Label × Element)) (after : Blank) (h : Rearranged e e') :
      Rearranged (object before gap (left ++ (l, e) :: right) after)
        (object before gap (left ++ (l, e') :: right) after)
  | moved {members members' : List (Label × Element)} (before gap after : Blank)
      (distinct : (members.map fun m => decode? m.1.name).Nodup) (h : members.Perm members') :
      Rearranged (object before gap members after) (object before gap members' after)
  | trans {e₁ e₂ e₃ : Element} (first : Rearranged e₁ e₂) (second : Rearranged e₂ e₃) :
      Rearranged e₁ e₃

theorem exists_every_of_perm {α : Type} {xs xs' : List (Option α)} (h : xs.Perm xs') :
    ∀ {ys}, every xs = some ys → ∃ ys', every xs' = some ys' ∧ ys.Perm ys' := by
  induction h with
  | nil => exact fun h => ⟨_, h, .refl _⟩
  | cons x _ ih =>
    intro ys h
    obtain ⟨y, rfl, h⟩ := Option.bind_eq_some_iff.1 h
    obtain ⟨zs, hz, rfl⟩ := Option.map_eq_some_iff.1 h
    obtain ⟨zs', hz', perm⟩ := ih hz
    exact ⟨y :: zs', by rw [every, hz']; rfl, perm.cons y⟩
  | swap x x' xs =>
    intro ys h
    obtain ⟨y', rfl, h⟩ := Option.bind_eq_some_iff.1 h
    obtain ⟨zs, hz, rfl⟩ := Option.map_eq_some_iff.1 h
    obtain ⟨y, rfl, later⟩ := Option.bind_eq_some_iff.1 hz
    obtain ⟨zs, hzs, rfl⟩ := Option.map_eq_some_iff.1 later
    exact ⟨y :: y' :: zs, by rw [every, every, hzs]; rfl, .swap _ _ _⟩
  | trans _ _ ih ih' =>
    intro ys h
    obtain ⟨zs, hz, perm⟩ := ih h
    obtain ⟨zs', hz', perm'⟩ := ih' hz
    exact ⟨zs', hz', perm.trans perm'⟩

theorem names_of_every {members : List (Label × Element)} {decoded : List (String × Json)}
    (h : every (members.map fun m => member? (m.1, m.2.tree?)) = some decoded) :
    members.map (fun m => decode? m.1.name) = decoded.map fun m => some m.1.toList := by
  rw [every_map_eq_some] at h
  induction h with
  | nil => rfl
  | cons first _ ih =>
    obtain ⟨cs, hcs, first⟩ := Option.bind_eq_some_iff.1 first
    obtain ⟨j, _, rfl⟩ := Option.map_eq_some_iff.1 first
    rw [List.map_cons, List.map_cons, ih, hcs, String.toList_ofList]

theorem Rearranged.depth_eq {e e' : Element} (h : Rearranged e e') : e.depth = e'.depth := by
  induction h with
  | spaced h => exact (fold_bare blind_depth _).symm.trans (h ▸ fold_bare blind_depth _)
  | item before gap left right after _ ih =>
    rw [depth_array, depth_array, List.map_append, List.map_append, List.map_cons, List.map_cons, ih]
  | member before gap left l right after _ ih =>
    rw [depth_object, depth_object, List.map_append, List.map_append, List.map_cons, List.map_cons,
      ih]
  | moved before gap after _ h =>
    rw [depth_object, depth_object, (h.map fun m => m.2.depth).foldr_eq 0]
  | trans _ _ ih ih' => exact ih.trans ih'

/-- An element that has a tree keeps it when it is rearranged. -/
theorem Rearranged.tree?_eq {e e' : Element} (h : Rearranged e e') :
    ∀ j, e.tree? = some j → e'.tree? = some j := by
  induction h with
  | spaced h =>
    intro j hj
    rwa [tree?, ← fold_bare blind_tree?, ← h, fold_bare blind_tree?]
  | @item e e' before gap left right after _ ih =>
    intro j hj
    rw [tree?_array] at hj ⊢
    -- a list that has a tree has one for each item, so the induction applies to this one
    have some : e.tree?.isSome := by
      have all : (every ((left ++ e :: right).map tree?)).isSome := by
        rw [← Option.isSome_map, hj]
        rfl
      exact (isSome_every_map _).1 all e (by simp)
    obtain ⟨k, hk⟩ := Option.isSome_iff_exists.1 some
    rw [← hj, List.map_append, List.map_append, List.map_cons, List.map_cons, hk, ih k hk]
  | @member e e' before gap left l right after _ ih =>
    intro j hj
    rw [tree?_object] at hj ⊢
    have some : e.tree?.isSome := by
      have all : (every ((left ++ (l, e) :: right).map fun m => member? (m.1, m.2.tree?))).isSome := by
        rw [← Option.isSome_map, hj]
        rfl
      exact ((isSome_member?_iff l _).1 ((isSome_every_map _).1 all (l, e) (by simp))).2
    obtain ⟨k, hk⟩ := Option.isSome_iff_exists.1 some
    rw [← hj, List.map_append, List.map_append, List.map_cons, List.map_cons, hk, ih k hk]
  | moved before gap after distinct h =>
    intro j hj
    rw [tree?_object] at hj ⊢
    obtain ⟨decoded, hdecoded, rfl⟩ := Option.map_eq_some_iff.1 hj
    obtain ⟨decoded', hdecoded', perm⟩ := exists_every_of_perm (h.map _) hdecoded
    rw [names_of_every hdecoded] at distinct
    have names : (decoded.map Prod.fst).Nodup := by
      refine List.Nodup.of_map (fun name => some name.toList) ?_
      rwa [List.map_map]
    rw [hdecoded', Option.map_some]
    exact congrArg some
      (Json.ext (by simp only [ofMembers, sortMembers_eq_of_perm perm names]))
  | trans _ _ ih ih' => exact fun j hj => ih' j (ih j hj)

end Element

end Untyped.Json
