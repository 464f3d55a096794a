import Untyped.Json.Number

/-!
JSON trees. In every object of a tree the names are strictly ascending, so that equal trees are
exactly the trees with the same data.
-/
namespace Untyped

namespace Json

inductive Raw where
  | null
  | bool (b : Bool)
  | number (n : Number)
  | string (s : String)
  | array (items : List Raw)
  | object (members : List (String × Raw))

/-- Every object lists its members in strictly ascending order of their names. -/
inductive Raw.Ordered : Raw → Prop where
  | null : Ordered .null
  | bool (b : Bool) : Ordered (.bool b)
  | number (n : Number) : Ordered (.number n)
  | string (s : String) : Ordered (.string s)
  | array {items : List Raw} (each : ∀ item ∈ items, Ordered item) : Ordered (.array items)
  | object {members : List (String × Raw)}
      (names : members.Pairwise fun a b => a.1 < b.1)
      (each : ∀ member ∈ members, Ordered member.2) : Ordered (.object members)

theorem Raw.Ordered.items {items : List Raw} (h : Ordered (.array items)) :
    ∀ item ∈ items, Ordered item := by
  cases h
  assumption

theorem Raw.Ordered.members {members : List (String × Raw)} (h : Ordered (.object members)) :
    ∀ member ∈ members, Ordered member.2 := by
  cases h
  assumption

end Json

/-- A JSON tree with ordered objects. -/
structure Json where
  raw : Json.Raw
  ordered : raw.Ordered

namespace Json

theorem ext {a b : Json} (h : a.raw = b.raw) : a = b := by
  cases a
  cases b
  cases h
  rfl

def null : Json := ⟨.null, .null⟩

def bool (b : Bool) : Json := ⟨.bool b, .bool b⟩

def number (n : Number) : Json := ⟨.number n, .number n⟩

def string (s : String) : Json := ⟨.string s, .string s⟩

def ofItems (items : List Json) : Json where
  raw := .array (items.map raw)
  ordered := .array fun item h => by
    obtain ⟨j, _, rfl⟩ := List.mem_map.1 h
    exact j.ordered

/-- Members in ascending order of names, with one more put in its place; a member of the same name
is replaced. -/
def insertMember {α : Type} (name : String) (value : α) : List (String × α) → List (String × α)
  | [] => [(name, value)]
  | (other, old) :: rest =>
    if name < other then (name, value) :: (other, old) :: rest
    else if name = other then (name, value) :: rest
    else (other, old) :: insertMember name value rest

/-- Members in ascending order of names, the last one of each name. -/
def sortMembers {α : Type} (members : List (String × α)) : List (String × α) :=
  members.foldl (fun sorted member => insertMember member.1 member.2 sorted) []

theorem mem_insertMember {α : Type} {name : String} {value : α} {members : List (String × α)}
    {member : String × α} (h : member ∈ insertMember name value members) :
    member = (name, value) ∨ member ∈ members := by
  induction members with
  | nil => simpa [insertMember] using h
  | cons first rest ih =>
    obtain ⟨other, old⟩ := first
    rw [insertMember] at h
    split at h
    next => simpa using h
    next =>
      split at h
      next =>
        obtain h | h := List.mem_cons.1 h
        · exact .inl h
        · exact .inr (List.mem_cons_of_mem _ h)
      next =>
        obtain h | h := List.mem_cons.1 h
        · exact .inr (h ▸ List.mem_cons_self)
        · obtain h | h := ih h
          · exact .inl h
          · exact .inr (List.mem_cons_of_mem _ h)

theorem pairwise_insertMember {α : Type} (name : String) (value : α)
    {members : List (String × α)} (h : members.Pairwise fun a b => a.1 < b.1) :
    (insertMember name value members).Pairwise fun a b => a.1 < b.1 := by
  induction members with
  | nil => simp [insertMember]
  | cons first rest ih =>
    obtain ⟨other, old⟩ := first
    have first_lt := (List.pairwise_cons.1 h).1
    have rest_sorted := (List.pairwise_cons.1 h).2
    rw [insertMember]
    split
    next before =>
      refine List.pairwise_cons.2 ⟨fun member hm => ?_, h⟩
      obtain hm | hm := List.mem_cons.1 hm
      · exact hm ▸ before
      · exact String.lt_trans before (first_lt member hm)
    next not_before =>
      split
      next same =>
        subst same
        exact List.pairwise_cons.2 ⟨first_lt, rest_sorted⟩
      next differ =>
        refine List.pairwise_cons.2 ⟨fun member hm => ?_, ih rest_sorted⟩
        obtain hm | hm := mem_insertMember hm
        · rw [hm]
          exact Classical.byContradiction fun not_after =>
            differ (String.le_antisymm (String.not_lt.1 not_after) (String.not_lt.1 not_before))
        · exact first_lt member hm

theorem pairwise_foldl_insertMember {α : Type} (members : List (String × α))
    {sorted : List (String × α)} (h : sorted.Pairwise fun a b => a.1 < b.1) :
    (members.foldl (fun sorted member => insertMember member.1 member.2 sorted) sorted).Pairwise
      fun a b => a.1 < b.1 := by
  induction members generalizing sorted with
  | nil => exact h
  | cons member rest ih => exact ih (pairwise_insertMember member.1 member.2 h)

theorem mem_foldl_insertMember {α : Type} {members sorted : List (String × α)}
    {member : String × α}
    (h : member ∈ members.foldl (fun sorted m => insertMember m.1 m.2 sorted) sorted) :
    member ∈ members ∨ member ∈ sorted := by
  induction members generalizing sorted with
  | nil => exact .inr h
  | cons first rest ih =>
    obtain h | h := ih h
    · exact .inl (List.mem_cons_of_mem _ h)
    · obtain h | h := mem_insertMember h
      · exact .inl (h ▸ List.mem_cons_self)
      · exact .inr h

theorem pairwise_sortMembers {α : Type} (members : List (String × α)) :
    (sortMembers members).Pairwise fun a b => a.1 < b.1 :=
  pairwise_foldl_insertMember members List.Pairwise.nil

theorem mem_of_mem_sortMembers {α : Type} {members : List (String × α)} {member : String × α}
    (h : member ∈ sortMembers members) : member ∈ members := by
  obtain h | h := mem_foldl_insertMember h
  · exact h
  · cases h

def ofMembers (members : List (String × Json)) : Json where
  raw := .object ((sortMembers members).map fun member => (member.1, member.2.raw))
  ordered := .object
    (List.pairwise_map.2 (pairwise_sortMembers members))
    fun member h => by
      obtain ⟨m, _, rfl⟩ := List.mem_map.1 h
      exact m.2.ordered

def items? (j : Json) : Option (List Json) :=
  match h : j.raw with
  | .array items => some (items.pmap Json.mk (h ▸ j.ordered).items)
  | _ => none

end Json

end Untyped
