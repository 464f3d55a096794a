import Mathlib
import Untyped.Proofs.Machine.Ledger

/-! Object identity over whole runs. One triple for each part of the machine says that it keeps the
record sound; handles then lead to one object exactly if their values descend from one
construction. -/
namespace Untyped

/-- The value is the construction that it descends from, and a reference descends from one. -/
structure Descends (made : List Value) (d : Descendant) : Prop where
  origin : ∀ k, d.origin = some k → made[k]? = some d.value
  constructed : ∀ r, d.value = .ref r → ∃ k, d.origin = some k

namespace Descends

variable {made : List Value} {d : Descendant}

theorem append (h : Descends made d) (more : List Value) : Descends (made ++ more) d where
  origin k hk := by
    have here := h.origin k hk
    rwa [List.getElem?_append_left (List.getElem?_eq_some_iff.1 here).1]
  constructed := h.constructed

theorem plain {v : Value} (h : ∀ r, v ≠ .ref r) : Descends made ⟨v, none⟩ where
  origin _ hk := nomatch hk
  constructed r hr := absurd hr (h r)

theorem own {k : Nat} {v : Value} (h : made[k]? = some v) : Descends made ⟨v, some k⟩ where
  origin j hj := by rwa [← Option.some.inj hj]
  constructed _ _ := ⟨k, rfl⟩

theorem references_subset (h : Descends made d) : d.value.references ⊆ recorded made := by
  obtain ⟨v, origin⟩ := d
  cases v with
  | ref r =>
    obtain ⟨k, hk⟩ := h.constructed r rfl
    exact fun s hs => mem_recorded (h.origin k hk) hs
  | double x | single x | int n | text s | null => simp

end Descends

def Traced (made : List Value) (slots : Slots) (origin : String → Option Nat) : Prop :=
  ∀ name, Descends made ⟨slots.get name, origin name⟩

namespace Slots

theorem get_set (slots : Slots) (name other : String) (v : Value) :
    (slots.set name v).get other = if other = name then v else slots.get other := by
  rw [get, get?_set]
  split <;> rfl

theorem get_erase (slots : Slots) (name other : String) :
    (slots.erase name).get other = if other = name then .null else slots.get other := by
  rw [get, get?_erase]
  split <;> rfl

end Slots

namespace Traced

variable {made : List Value} {slots : Slots} {origin : String → Option Nat}

theorem append (h : Traced made slots origin) (more : List Value) :
    Traced (made ++ more) slots origin :=
  fun name => (h name).append more

theorem set (h : Traced made slots origin) (name : String) {v : Value} {k : Option Nat}
    (hv : Descends made ⟨v, k⟩) : Traced made (slots.set name v) (Function.update origin name k) := by
  intro other
  rw [Slots.get_set, Function.update_apply]
  split
  · exact hv
  · exact h other

theorem erase (h : Traced made slots origin) (name : String) :
    Traced made (slots.erase name) (Function.update origin name none) := by
  intro other
  rw [Slots.get_erase, Function.update_apply]
  split
  · exact .plain fun _ => nofun
  · exact h other

theorem numbered (h : Traced made slots origin) (stem : String) (first : Nat) (vs : List Value)
    (hvs : ∀ i v, vs[i]? = some v → made[first + i]? = some v) :
    Traced made (Action.numbered stem vs slots) (Tracked.numbered stem first vs origin) := by
  have entries : ∀ entry ∈ vs.zipIdx, made[first + entry.2]? = some entry.1 :=
    fun entry he => hvs _ _ (List.mem_zipIdx_iff_getElem?.1 he)
  unfold Action.numbered Tracked.numbered
  generalize vs.zipIdx = l at entries
  induction l generalizing slots origin with
  | nil => exact h
  | cons entry l ih =>
    obtain ⟨here, rest⟩ := List.forall_mem_cons.1 entries
    exact ih (h.set _ (.own here)) rest

end Traced

/-- The reference is in a slot, or inside what one in a slot holds. -/
def Slots.Holds (slots : Slots) (r : Reference) : Prop :=
  ∃ name, r ∈ (slots.get name).references

/-- The invariant of a history. -/
structure History.Sound (h : History) : Prop where
  ledger : Ledger h.machine.next h.made
  slots : Traced h.made h.machine.slots h.origin

namespace Tracked

variable {α β : Type}

/-- From a sound history that meets `pre` the computation leads to a sound one, and what it yields
meets `post` there. -/
def Keeps (pre : History → Prop) (t : Tracked α) (post : α → History → Prop) : Prop :=
  ∀ h : History, h.Sound → pre h → (t.run.run h).2.Sound ∧
    ∀ x, (t.run.run h).1 = .ok x → post x (t.run.run h).2

theorem run_lift (a : Action α) (h : History) : (lift a).run.run h =
    ((a.run.run h.machine).1, { h with machine := (a.run.run h.machine).2 }) :=
  rfl

def Sourced (d : Descendant) (h : History) : Prop := Descends h.made d

namespace Keeps

variable {pre : History → Prop} {post : β → History → Prop}

theorem pure {x : β} (h : ∀ h, pre h → post x h) : Keeps pre (pure x) post := by
  intro before sound hp
  refine ⟨sound, fun y hy => ?_⟩
  obtain rfl := Except.ok.inj hy
  exact h before hp

theorem bind {t : Tracked α} {k : α → Tracked β} {mid : α → History → Prop} (first : Keeps pre t mid)
    (later : ∀ x, Keeps (mid x) (k x) post) : Keeps pre (t >>= k) post := by
  intro h sound hp
  obtain ⟨kept, yields⟩ := first h sound hp
  rw [run_bind]
  cases ht : t.run.run h with
  | mk outcome after =>
    rw [ht] at kept yields
    cases outcome with
    | ok x => exact later x after kept (yields x rfl)
    | error e => exact ⟨kept, fun y hy => by cases hy⟩

theorem ite {c : Prop} [Decidable c] {t u : Tracked β} (yes : Keeps pre t post)
    (no : Keeps pre u post) : Keeps pre (if c then t else u) post := by
  split
  · exact yes
  · exact no

theorem note (tag : Option String) :
    Keeps pre (lift (tag.forM Action.note)) fun _ _ => True := by
  intro h sound _
  cases tag with
  | none => exact ⟨sound, fun _ _ => trivial⟩
  | some line => exact ⟨⟨sound.ledger, sound.slots⟩, fun _ _ => trivial⟩

theorem construct {a : Action Value} (slots : ∀ m, (a.run.run m).2.slots = m.slots)
    (constructs : ∀ h : History, h.Sound → pre h → h.machine.next ≤ (a.run.run h.machine).2.next ∧
      ∀ v, (a.run.run h.machine).1 = .ok v →
        Constructed (recorded h.made) h.machine.next (a.run.run h.machine).2.next v) :
    Keeps pre (Tracked.construct a) Sourced := by
  intro h sound hp
  obtain ⟨later, constructed⟩ := constructs h sound hp
  have same := slots h.machine
  rw [Tracked.construct, run_bind, run_lift]
  cases ha : a.run.run h.machine with
  | mk outcome machine =>
    rw [ha] at later constructed same
    have traced : Traced h.made machine.slots h.origin := same ▸ sound.slots
    cases outcome with
    | error e => exact ⟨⟨sound.ledger.mono later, traced⟩, fun d hd => by cases hd⟩
    | ok v =>
      refine ⟨⟨sound.ledger.append (constructed v rfl), traced.append [v]⟩, fun d hd => ?_⟩
      obtain rfl := Except.ok.inj hd
      exact .own List.getElem?_concat_length

theorem build {b : Build Value} (h : b.Constructs id) :
    Keeps pre (Tracked.construct (Action.build b)) Sourced :=
  construct (fun _ => rfl) fun before sound _ =>
    h before.machine.next (recorded before.made) sound.ledger.consistent

theorem box (path : String) (d : Descendant) :
    Keeps (Sourced d) (Tracked.construct do
      return .ref (.mk path (← Action.build Build.fresh) (.value d.value))) Sourced := by
  refine construct (fun _ => rfl) fun h sound hd => ⟨Nat.le_succ _, fun v hv => ?_⟩
  obtain rfl := Except.ok.inj hv
  refine .object sound.ledger.consistent le_rfl path ?_
  rw [Payload.references]
  exact hd.references_subset

theorem tree (j : Json) :
    Keeps pre (Tracked.construct do return j.toValue (← Action.build Build.fresh)) Sourced := by
  refine construct (fun _ => rfl) fun h sound _ => ⟨Nat.le_succ _, fun v hv => ?_⟩
  obtain rfl := Except.ok.inj hv
  exact .toValue sound.ledger.consistent j

theorem get (name : String) : Keeps pre (Tracked.get name) Sourced := by
  intro h sound _
  refine ⟨⟨sound.ledger, sound.slots⟩, fun d hd => ?_⟩
  obtain rfl := Except.ok.inj hd
  exact sound.slots name

theorem set (name : String) (d : Descendant) :
    Keeps (Sourced d) (Tracked.set name d) fun _ => Sourced d := by
  intro h sound hd
  exact ⟨⟨sound.ledger, sound.slots.set name hd⟩, fun _ _ => hd⟩

theorem computed {t : Tracked Descendant} (h : Keeps pre t Sourced) {f : Value → Value}
    (plain : ∀ v r, f v ≠ .ref r) : Keeps pre (Tracked.computed f t) Sourced :=
  h.bind fun d => pure fun _ _ => .plain (plain d.value)

end Keeps

end Tracked

namespace Value

theorem ofBool_ne_ref (b : Bool) (r : Reference) : ofBool b ≠ .ref r := nofun

theorem plus_ne_ref (v : Value) (d : Double) (r : Reference) : v.plus d ≠ .ref r := by
  unfold plus
  split <;> nofun

end Value

open Tracked (Keeps Sourced)

/-- One case for each expression: what it yields descends as it says. -/
theorem Expr.keeps {pre : History → Prop} (x : Expr) : Keeps pre x.track Sourced := by
  induction x generalizing pre with
  | value recipe tag => exact (Keeps.note tag).bind fun _ => .build recipe.constructs
  | slot name => exact .get name
  | set name x ih => exact ih.bind fun d => (Keeps.set name d).bind fun _ => .pure fun _ => id
  | not x ih => exact ih.computed fun v => Value.ofBool_ne_ref _
  | truth x ih => exact ih.computed fun v => Value.ofBool_ne_ref _
  | and left right ihl ihr => exact ihl.bind fun d => .ite ihr (.pure fun _ => id)
  | or left right ihl ihr => exact ihl.bind fun d => .ite (.pure fun _ => id) ihr
  | select condition yes no ihc ihy ihn => exact ihc.bind fun d => .ite ihy ihn
  | add x d ih => exact ih.computed fun v => v.plus_ne_ref d
  | display x ih | typeName x ih => exact ih.computed fun _ _ => nofun
  | text x ih => exact ih.computed fun v _ => by cases v.text? <;> nofun
  | number x ih => exact ih.computed fun v _ => by cases v.number? <;> nofun
  | reference x ih =>
    refine ih.bind fun d => .pure fun h hd => ?_
    split
    · exact hd
    · exact .plain fun _ => nofun
  | box path x ih => exact ih.bind fun d => .box path d
  | tree x ih => exact ih.bind fun d => .tree d.value.toJson
  | written x ih => exact ih.bind fun d => .build (.load _)
  | parsed x ih => exact ih.bind fun d => .build (.load _)

namespace Action

variable {m : Machine} {text : String}

theorem run_loadItems_of_ok {vs : List Value} (h : loadValues m.next text = .ok vs) :
    (loadItems text).run.run m = (.ok vs, { m with next := m.next + vs.length }) := by
  rw [loadItems, ExceptT.run_mk, StateT.run_modifyGet]
  dsimp only
  rw [h]
  rfl

theorem run_loadItems_of_error {e : LoadError} (h : loadValues m.next text = .error e) :
    (loadItems text).run.run m = (.error e, m) := by
  rw [loadItems, ExceptT.run_mk, StateT.run_modifyGet]
  dsimp only
  rw [h]
  rfl

end Action

namespace Tracked.Keeps

variable {pre : History → Prop}

theorem runAll (body : List Expr) : Keeps pre (Tracked.runAll body) fun _ _ => True := by
  induction body generalizing pre with
  | nil => exact .pure fun _ _ => trivial
  | cons x xs ih => exact x.keeps.bind fun _ => ih

/-- The induction is on the rounds that are left, so it holds of loops of any length. -/
theorem rounds (condition : Expr) (body : List Expr) (done limit : Nat) :
    Keeps pre (Tracked.rounds condition body done limit) fun _ _ => True := by
  induction limit generalizing pre done with
  | zero => exact .pure fun _ _ => trivial
  | succ limit ih =>
    exact condition.keeps.bind fun _ =>
      .ite ((runAll body).bind fun _ => ih (done + 1)) (.pure fun _ _ => trivial)

theorem loadItems (text : String) :
    Keeps pre (Tracked.loadItems text) fun loaded h =>
      ∀ i v, loaded.2[i]? = some v → h.made[loaded.1 + i]? = some v := by
  intro h sound _
  rw [Tracked.loadItems, run_bind, run_lift]
  cases hl : loadValues h.machine.next text with
  | error e =>
    rw [Action.run_loadItems_of_error hl]
    exact ⟨sound, fun _ hx => by cases hx⟩
  | ok vs =>
    rw [Action.run_loadItems_of_ok hl]
    have ledger : Ledger (h.machine.next + vs.length) (h.made ++ vs) := by
      obtain ⟨items, rfl⟩ := exists_items_of_loadValues hl
      simpa using sound.ledger.append_items items
    have known (i : Nat) : (h.made ++ vs)[h.made.length + i]? = vs[i]? := by
      rw [List.getElem?_append_right (Nat.le_add_right _ _), Nat.add_sub_cancel_left]
    refine ⟨⟨ledger, sound.slots.append vs⟩, fun loaded hx i v hv => ?_⟩
    obtain rfl := Except.ok.inj hx
    exact (known i).trans hv

end Tracked.Keeps

theorem Step.keeps (s : Step) : Keeps (fun _ => True) s.track fun _ _ => True := by
  cases s with
  | eval x => exact x.keeps.bind fun _ => .pure fun _ _ => trivial
  | whileLoop condition body limit =>
    exact (Keeps.rounds condition body 0 limit).bind fun _ => .pure fun _ _ => trivial
  | doWhileLoop condition body limit =>
    exact (Keeps.runAll body).bind fun _ =>
      (Keeps.rounds condition body 1 (limit - 1)).bind fun _ => .pure fun _ _ => trivial
  | unset name =>
    intro h sound _
    exact ⟨⟨sound.ledger, sound.slots.erase name⟩, fun _ _ => trivial⟩
  | same a b | payload name =>
    intro h sound _
    exact ⟨⟨sound.ledger, sound.slots⟩, fun _ _ => trivial⟩
  | load text stem =>
    refine (Keeps.loadItems text).bind fun loaded h sound known => ?_
    exact ⟨⟨sound.ledger, sound.slots.numbered stem loaded.1 loaded.2 known⟩, fun _ _ => trivial⟩

namespace History

theorem Sound.step {h : History} (sound : h.Sound) (s : Step) : (h.step s).Sound :=
  (s.keeps { h with machine := { h.machine with trace := [] } } ⟨sound.ledger, sound.slots⟩
    trivial).1

theorem sound_start : start.Sound where
  ledger := .nil 0
  slots _ := .plain fun _ => nofun

theorem Sound.foldl {h : History} (sound : h.Sound) (steps : List Step) :
    (steps.foldl History.step h).Sound := by
  induction steps generalizing h with
  | nil => exact sound
  | cons s steps ih => exact ih (sound.step s)

namespace Sound

variable {h : History}

theorem recorded_of_holds (sound : h.Sound) {r : Reference} (hr : h.machine.slots.Holds r) :
    r ∈ recorded h.made := by
  obtain ⟨name, hr⟩ := hr
  exact (sound.slots name).references_subset hr

theorem eq_of_same (sound : h.Sound) {r s : Reference} (hr : h.machine.slots.Holds r)
    (hs : h.machine.slots.Holds s) (same : r.same s = true) : r = s :=
  sound.ledger.consistent.one r (sound.recorded_of_holds hr) s (sound.recorded_of_holds hs)
    (beq_iff_eq.1 same)

theorem same?_iff (sound : h.Sound) (a b : String) :
    h.machine.slots.same? a b = some true ↔
      ∃ k r, h.origin a = some k ∧ h.origin b = some k ∧ h.made[k]? = some (.ref r) := by
  constructor
  · intro same
    unfold Slots.same? at same
    split at same
    · next r s hr hs =>
      obtain ⟨j, hj⟩ := (sound.slots a).constructed r hr
      obtain ⟨k, hk⟩ := (sound.slots b).constructed s hs
      have madeA : h.made[j]? = some (.ref r) := hr ▸ (sound.slots a).origin j hj
      have madeB : h.made[k]? = some (.ref s) := hs ▸ (sound.slots b).origin k hk
      obtain rfl := sound.ledger.index_eq madeA madeB (Option.some.inj same)
      exact ⟨j, r, hj, hk, madeA⟩
    · cases same
  · rintro ⟨k, r, ha, hb, made⟩
    have holdsA : h.machine.slots.get a = .ref r :=
      Option.some.inj (((sound.slots a).origin k ha).symm.trans made)
    have holdsB : h.machine.slots.get b = .ref r :=
      Option.some.inj (((sound.slots b).origin k hb).symm.trans made)
    rw [Slots.same?, holdsA, holdsB]
    simp [Reference.same]

end Sound

end History

/-- After any steps of any program, with the record that goes along with its run: the machine is
the one that the steps lead to, and the program runs on with it; to lead to one object is an
equivalence of the references that the slots hold; references that do are alike in all that can be
seen of them; two slots lead to one object exactly if both descend by copying alone from one
construction, whose reference they hold; and no reference that existed before a construction, inside
whatever value, leads to the object of the reference that it yields. -/
theorem identity_descends (steps : List Step) :
    let h := History.start.after steps
    h.machine = steps.foldl (fun m s => (m.step s).2) Machine.start ∧
    (∀ rest, Machine.start.run (steps ++ rest) = Machine.start.run steps ++ h.machine.run rest) ∧
    (Equivalence fun r s : { r // h.machine.slots.Holds r } => r.1.same s.1 = true) ∧
    (∀ r s, h.machine.slots.Holds r → h.machine.slots.Holds s → r.same s = true →
      r.typePath = s.typePath ∧ r.payload = s.payload ∧
        (Value.ref r).toJson = (Value.ref s).toJson ∧
        (Value.ref r).display = (Value.ref s).display) ∧
    (∀ name k, h.origin name = some k → h.made[k]? = some (h.machine.slots.get name)) ∧
    (∀ a b, h.machine.slots.same? a b = some true ↔
      ∃ k r, h.origin a = some k ∧ h.origin b = some k ∧ h.made[k]? = some (.ref r)) ∧
    ∀ (earlier later : Nat) (v : Value) (s : Reference), earlier < later →
      h.made[earlier]? = some v → h.made[later]? = some (.ref s) →
      ∀ r ∈ v.references, r.same s = false := by
  intro h
  have sound : h.Sound := History.sound_start.foldl steps
  refine ⟨History.start.machine_foldl steps, History.start.run_after steps, ⟨?_, ?_, ?_⟩, ?_, ?_,
    sound.same?_iff, ?_⟩
  · exact fun r => beq_self_eq_true _
  · exact fun same => beq_iff_eq.2 (beq_iff_eq.1 same).symm
  · exact fun first second => beq_iff_eq.2 ((beq_iff_eq.1 first).trans (beq_iff_eq.1 second))
  · intro r s hr hs same
    obtain rfl := sound.eq_of_same hr hs same
    exact ⟨rfl, rfl, rfl, rfl⟩
  · exact fun name => (sound.slots name).origin
  · exact fun earlier later v s lt hv hs r hr => sound.ledger.same_eq_false lt hv hs hr

/-- A handle and what hands it on lead to one object; a box around it is another. -/
example :
    let h := History.start.after [.eval (.set "mob" (.value (.object "/mob") none)),
      .eval (.set "copy" (.or (.slot "mob") (.slot "none"))),
      .eval (.set "box" (.box "/box" (.slot "mob")))]
    (h.origin "mob", h.origin "copy", h.origin "box") = (some 0, some 0, some 1) ∧
      h.machine.slots.same? "mob" "copy" = some true ∧
      h.machine.slots.same? "mob" "box" = some false := by decide

end Untyped
