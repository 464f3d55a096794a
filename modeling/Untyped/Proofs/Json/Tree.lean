import Mathlib
import Untyped.Proofs.Json.Grammar

/-! Trees: their depth, the numbers in them, and the trees that are made again from their parts. -/
namespace Untyped.Json

def Number.isInteger : Number → Bool
  | .integer _ _ => true
  | .float _ => false

namespace Raw

theorem induction {P : Raw → Prop} (null : P null) (bool : ∀ b, P (bool b))
    (number : ∀ n, P (number n)) (string : ∀ s, P (string s))
    (array : ∀ items, (∀ item ∈ items, P item) → P (array items))
    (object : ∀ members, (∀ m ∈ members, P m.2) → P (object members)) : ∀ r, P r :=
  @Raw.rec P (fun items => ∀ item ∈ items, P item) (fun members => ∀ m ∈ members, P m.2)
    (fun m => P m.2) null bool number string array object (by simp)
    (fun _ _ first rest => List.forall_mem_cons.2 ⟨first, rest⟩) (by simp)
    (fun _ _ first rest => List.forall_mem_cons.2 ⟨first, rest⟩) fun _ _ h => h

theorem Ordered.names {members : List (String × Raw)} (h : Ordered (.object members)) :
    members.Pairwise fun a b => a.1 < b.1 := by
  cases h
  assumption

mutual

def depth : Raw → Nat
  | null => 0
  | bool _ => 0
  | number _ => 0
  | string _ => 0
  | array items => depthOfItems items + 1
  | object members => depthOfMembers members + 1

def depthOfItems : List Raw → Nat
  | [] => 0
  | item :: items => max item.depth (depthOfItems items)

def depthOfMembers : List (String × Raw) → Nat
  | [] => 0
  | (_, value) :: members => max value.depth (depthOfMembers members)

end

theorem depth_array (items : List Raw) :
    (array items).depth = (items.map depth).foldr max 0 + 1 := by
  rw [depth]
  induction items with
  | nil => rfl
  | cons item items ih => rw [depthOfItems, Nat.succ.inj ih]; rfl

theorem depth_object (members : List (String × Raw)) :
    (object members).depth = (members.map fun m => m.2.depth).foldr max 0 + 1 := by
  rw [depth]
  induction members with
  | nil => rfl
  | cons m members ih => rw [depthOfMembers, Nat.succ.inj ih]; rfl

mutual

def numbers : Raw → List Number
  | null => []
  | bool _ => []
  | number n => [n]
  | string _ => []
  | array items => numbersOfItems items
  | object members => numbersOfMembers members

def numbersOfItems : List Raw → List Number
  | [] => []
  | item :: items => item.numbers ++ numbersOfItems items

def numbersOfMembers : List (String × Raw) → List Number
  | [] => []
  | (_, value) :: members => value.numbers ++ numbersOfMembers members

end

theorem numbers_array (items : List Raw) : (array items).numbers = items.flatMap numbers := by
  rw [numbers]
  induction items with
  | nil => rfl
  | cons item items ih => rw [numbersOfItems, ih, List.flatMap_cons]

theorem numbers_object (members : List (String × Raw)) :
    (object members).numbers = members.flatMap fun m => m.2.numbers := by
  rw [numbers]
  induction members with
  | nil => rfl
  | cons m members ih => rw [numbersOfMembers, ih, List.flatMap_cons]

end Raw

/-! ### Members in order -/

theorem insertMember_of_lt {α : Type} {name : String} (value : α) {members : List (String × α)}
    (h : ∀ m ∈ members, m.1 < name) :
    insertMember name value members = members ++ [(name, value)] := by
  induction members with
  | nil => rfl
  | cons first rest ih =>
    obtain ⟨other, old⟩ := first
    have before : other < name := h (other, old) (by simp)
    have later : ∀ m ∈ rest, m.1 < name := fun m hm => h m (by simp [hm])
    rw [insertMember, if_neg (fun after => String.lt_irrefl _ (String.lt_trans before after)),
      if_neg (fun same => String.lt_irrefl _ (same ▸ before)), ih later, List.cons_append]

theorem sortMembers_of_pairwise {α : Type} {members : List (String × α)}
    (h : members.Pairwise fun a b => a.1 < b.1) : sortMembers members = members := by
  have fold (rest : List (String × α)) :
      ∀ sorted, (sorted ++ rest).Pairwise (fun a b : String × α => a.1 < b.1) →
        rest.foldl (fun sorted m => insertMember m.1 m.2 sorted) sorted = sorted ++ rest := by
    induction rest with
    | nil => simp
    | cons m rest ih =>
      intro sorted h
      have first : ∀ s ∈ sorted, s.1 < m.1 := by
        intro s hs
        exact (List.pairwise_append.1 h).2.2 s hs m (by simp)
      rw [List.foldl_cons, insertMember_of_lt m.2 first, ih _ (by simpa using h)]
      simp
  exact fold members [] h

theorem lookup_cons_eq {α : Type} (m : String × α) (members : List (String × α)) (name : String) :
    (m :: members).lookup name = if name = m.1 then some m.2 else members.lookup name := by
  obtain ⟨key, value⟩ := m
  rw [List.lookup_cons]
  by_cases h : name = key
  · simp [h]
  · simp [h, beq_eq_false_iff_ne.2 h]

theorem lookup_insertMember {α : Type} (name other : String) (value : α)
    (members : List (String × α)) :
    (insertMember name value members).lookup other =
      if other = name then some value else members.lookup other := by
  induction members with
  | nil => rw [insertMember, lookup_cons_eq]
  | cons first rest ih =>
    obtain ⟨key, old⟩ := first
    rw [insertMember]
    by_cases before : name < key
    · rw [if_pos before, lookup_cons_eq]
    · by_cases same : name = key
      · rw [if_neg before, if_pos same, lookup_cons_eq, lookup_cons_eq, ← same]
        by_cases h : other = name
        · rw [if_pos h, if_pos h]
        · rw [if_neg h, if_neg h, if_neg h]
      · rw [if_neg before, if_neg same, lookup_cons_eq, lookup_cons_eq, ih]
        by_cases h : other = key
        · rw [if_pos h, if_neg (fun hn => same (hn.symm.trans h)), if_pos h]
        · rw [if_neg h, if_neg h]

/-- Of members with one name the last one is kept. -/
theorem lookup_sortMembers {α : Type} (members : List (String × α)) (name : String) :
    (sortMembers members).lookup name = members.reverse.lookup name := by
  have fold (members : List (String × α)) : ∀ sorted : List (String × α),
      (members.foldl (fun sorted m => insertMember m.1 m.2 sorted) sorted).lookup name =
        (members.reverse ++ sorted).lookup name := by
    induction members with
    | nil => simp
    | cons m members ih =>
      intro sorted
      rw [List.foldl_cons, ih, List.reverse_cons, List.append_assoc, List.lookup_append,
        List.lookup_append, lookup_insertMember, List.singleton_append, lookup_cons_eq]
  rw [sortMembers, fold, List.append_nil]

theorem perm_insertMember {α : Type} {name : String} (value : α) {members : List (String × α)}
    (new : name ∉ members.map Prod.fst) :
    (insertMember name value members).Perm ((name, value) :: members) := by
  induction members with
  | nil => exact .refl _
  | cons first rest ih =>
    obtain ⟨other, old⟩ := first
    rw [List.map_cons, List.mem_cons, not_or] at new
    rw [insertMember]
    split
    next => exact .refl _
    next =>
      rw [if_neg new.1]
      exact ((ih new.2).cons _).trans (.swap _ _ _)

theorem perm_sortMembers {α : Type} {members : List (String × α)}
    (distinct : (members.map Prod.fst).Nodup) : (sortMembers members).Perm members := by
  have fold (members : List (String × α)) : ∀ sorted : List (String × α),
      ((members ++ sorted).map Prod.fst).Nodup →
        (members.foldl (fun sorted m => insertMember m.1 m.2 sorted) sorted).Perm
          (members ++ sorted) := by
    induction members with
    | nil => exact fun _ _ => .refl _
    | cons m members ih =>
      intro sorted distinct
      have middle : (members ++ m :: sorted).Perm (m :: members ++ sorted) := List.perm_middle
      have apart := (middle.map Prod.fst).nodup_iff.2 distinct
      have new : m.1 ∉ sorted.map Prod.fst := by
        rw [List.map_append, List.map_cons] at apart
        exact (List.nodup_cons.1 (List.nodup_append.1 apart).2.1).1
      have inserted := (perm_insertMember m.2 new).append_left members
      exact (ih _ ((inserted.map Prod.fst).nodup_iff.2 apart)).trans (inserted.trans middle)
  have sorted := fold members [] (by simpa using distinct)
  rwa [List.append_nil] at sorted

/-- The order in which members of different names are given does not matter. -/
theorem sortMembers_eq_of_perm {α : Type} {members members' : List (String × α)}
    (h : members.Perm members') (distinct : (members.map Prod.fst).Nodup) :
    sortMembers members = sortMembers members' := by
  have distinct' := (h.map Prod.fst).nodup_iff.1 distinct
  refine List.Perm.eq_of_pairwise (fun a b _ _ before after => ?_) (pairwise_sortMembers members)
    (pairwise_sortMembers members')
    ((perm_sortMembers distinct).trans (h.trans (perm_sortMembers distinct').symm))
  exact absurd (String.lt_trans before after) (String.lt_irrefl _)

/-! ### Trees made again -/

namespace Raw

section Remake

variable (number? : Number → Option Number)

mutual

/-- The tree with each of its numbers made again, if none is missing. -/
def remake? : Raw → Option Json
  | null => some .null
  | bool b => some (.bool b)
  | number n => (number? n).map .number
  | string s => some (.string s)
  | array items => (remakeItems? items).map .ofItems
  | object members => (remakeMembers? members).map .ofMembers

def remakeItems? : List Raw → Option (List Json)
  | [] => some []
  | item :: items => (remake? item).bind fun j => (remakeItems? items).map (List.cons j)

def remakeMembers? : List (String × Raw) → Option (List (String × Json))
  | [] => some []
  | (name, value) :: members =>
    ((remake? value).map (Prod.mk name)).bind fun m => (remakeMembers? members).map (List.cons m)

end

variable {number?}

theorem remake?_array (items : List Raw) :
    remake? number? (array items) =
      (Element.every (items.map (remake? number?))).map .ofItems := by
  rw [remake?]
  congr 1
  induction items with
  | nil => rfl
  | cons item items ih => rw [remakeItems?, ih]; rfl

theorem remake?_object (members : List (String × Raw)) :
    remake? number? (object members) =
      (Element.every (members.map fun m => (remake? number? m.2).map (Prod.mk m.1))).map
        .ofMembers := by
  rw [remake?]
  congr 1
  induction members with
  | nil => rfl
  | cons m members ih => rw [remakeMembers?, ih]; rfl

theorem isSome_remake? (r : Raw) (each : ∀ n ∈ r.numbers, (number? n).isSome) :
    (remake? number? r).isSome := by
  induction r using Raw.induction with
  | null => rfl
  | bool b => rfl
  | number n => simpa [remake?, numbers] using each
  | string s => rfl
  | array items ih =>
    rw [numbers_array] at each
    rw [remake?_array, Option.isSome_map, Element.isSome_every_map]
    exact fun item h => ih item h fun n hn => each n (List.mem_flatMap.2 ⟨item, h, hn⟩)
  | object members ih =>
    rw [numbers_object] at each
    rw [remake?_object, Option.isSome_map, Element.isSome_every_map]
    intro m h
    rw [Option.isSome_map]
    exact ih m h fun n hn => each n (List.mem_flatMap.2 ⟨m, h, hn⟩)

theorem remake?_eq_some (r : Raw) (ordered : r.Ordered)
    (kept : ∀ n ∈ r.numbers, number? n = some n) : remake? number? r = some ⟨r, ordered⟩ := by
  induction r using Raw.induction with
  | null => rfl
  | bool b => rfl
  | number n => rw [remake?, kept n (by simp [numbers])]; rfl
  | string s => rfl
  | array items ih =>
    rw [numbers_array] at kept
    have each : Element.every (items.map (remake? number?)) =
        some (items.pmap Json.mk ordered.items) := by
      refine Element.every_map_eq_some.2 (List.forall₂_iff_get.2 ⟨by simp, fun i hi hj => ?_⟩)
      have hmem : items[i] ∈ items := List.getElem_mem hi
      simpa using ih _ hmem (ordered.items _ hmem) fun n hn =>
        kept n (List.mem_flatMap.2 ⟨_, hmem, hn⟩)
    rw [remake?_array, each]
    exact congrArg some (Json.ext (by simp [ofItems, List.map_pmap]))
  | object members ih =>
    rw [numbers_object] at kept
    let made := members.pmap (fun m h => (m.1, Json.mk m.2 h)) ordered.members
    have each : Element.every (members.map fun m => (remake? number? m.2).map (Prod.mk m.1)) =
        some made := by
      refine Element.every_map_eq_some.2
        (List.forall₂_iff_get.2 ⟨by simp [made], fun i hi hj => ?_⟩)
      have hmem : members[i] ∈ members := List.getElem_mem hi
      have := ih _ hmem (ordered.members _ hmem) fun n hn =>
        kept n (List.mem_flatMap.2 ⟨_, hmem, hn⟩)
      simp [made, this]
    have raws : made.map (fun m => (m.1, m.2.raw)) = members := by
      simp [made, List.map_pmap]
    have sorted : made.Pairwise fun a b => a.1 < b.1 := by
      have names := ordered.names
      rw [← raws, List.pairwise_map] at names
      exact names
    rw [remake?_object, each]
    exact congrArg some (Json.ext (by simp only [ofMembers, sortMembers_of_pairwise sorted, raws]))

end Remake

end Raw

namespace Element

/-- A tree is no deeper than its derivation; a member that is dropped may have been deeper. -/
theorem depth_tree_le (e : Element) : ∀ j, e.tree? = some j → j.raw.depth ≤ e.depth := by
  induction e using Element.induction with
  | scalar before value after =>
    intro j hj
    change value.tree? = some j at hj
    cases value with
    | null => cases hj; exact Nat.le_refl 0
    | bool b => cases hj; exact Nat.le_refl 0
    | number t =>
      obtain ⟨n, _, rfl⟩ := Option.map_eq_some_iff.1 hj
      exact Nat.le_refl 0
    | string pieces =>
      obtain ⟨cs, _, rfl⟩ := Option.map_eq_some_iff.1 hj
      exact Nat.le_refl 0
  | array before gap items after ih =>
    intro j hj
    rw [tree?_array] at hj
    obtain ⟨js, hjs, rfl⟩ := Option.map_eq_some_iff.1 hj
    rw [ofItems, Raw.depth_array, depth_array, List.map_map]
    refine Nat.succ_le_succ ((foldr_max_le_iff _ _ _).2 fun k hk => ?_)
    obtain ⟨e, he, hk⟩ := exists_of_mem_every hjs hk
    exact Nat.le_trans (ih e he k hk) ((foldr_max_le_iff depth items _).1 (Nat.le_refl _) e he)
  | object before gap members after ih =>
    intro j hj
    rw [tree?_object] at hj
    obtain ⟨js, hjs, rfl⟩ := Option.map_eq_some_iff.1 hj
    rw [ofMembers, Raw.depth_object, depth_object, List.map_map]
    refine Nat.succ_le_succ ((foldr_max_le_iff _ _ _).2 fun k hk => ?_)
    -- the members that stay are among those that are decoded
    obtain ⟨m, hm, hk⟩ := exists_of_mem_every hjs (mem_of_mem_sortMembers hk)
    obtain ⟨cs, _, hk⟩ := Option.bind_eq_some_iff.1 hk
    obtain ⟨j, hj, rfl⟩ := Option.map_eq_some_iff.1 hk
    exact Nat.le_trans (ih m hm j hj)
      ((foldr_max_le_iff (fun m : Label × Element => m.2.depth) members _).1 (Nat.le_refl _) m hm)

end Element

end Untyped.Json
